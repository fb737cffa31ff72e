import ExpressEcommerce.Checkout.Outcome

/-!
# The stock specification of an order

An order should be placed exactly when the stock of every product covers all of
its lines together.  The first loop of `createOrder` compares every line with the
stock read at the start, so the two agree as long as lines that are covered one
by one are covered together.
-/

namespace ExpressEcommerce
namespace Checkout

open Foundation
open Store
open Service
open Orders
open Stock
open Runs

/-- The values of the product columns are such as their types can hold. -/
def WellTyped (db : Database) : Prop :=
  forall r, r ∈ db.products.rows ->
    Database.fitsInteger r.stock = true ∧ Database.fitsDecimal r.price = true

instance (db : Database) : Decidable (WellTyped db) :=
  inferInstanceAs (Decidable (forall r, r ∈ db.products.rows ->
    Database.fitsInteger r.stock = true ∧
      Database.fitsDecimal r.price = true))

def InStock (db : Database) (items : List ItemRequest) : Prop :=
  forall line, line ∈ items -> exists r,
    db.product? line.productId true = some r ∧
      requested items line.productId <= r.stock

def Sells (db : Database) (orderId : Int) (line : ItemRequest)
    (i : OrderItem) : Prop :=
  i.orderId = orderId ∧ i.productId = line.productId ∧
    i.quantity = line.quantity ∧
    i.unitPrice = priceOf db line.productId ∧ i.deletedAt = none

/-- One pending order with one item for each line is added, the stocks fall by
what the lines ask for, and nothing else changes. -/
structure Sold (db db' : Database) (customerId : Int)
    (items : List ItemRequest) : Prop where
  customers : db'.customers = db.customers
  added : exists (o : Order) (new : List OrderItem),
    o.customerId = customerId ∧ o.status = .pending ∧ o.deletedAt = none ∧
    o.totalPrice = totalOf db items ∧ db.orders.find? o.id = none ∧
    (forall id, db'.orders.find? id =
      if id = o.id then some o else db.orders.find? id) ∧
    db'.items.rows = db.items.rows ++ new ∧
    List.Forall₂ (Sells db o.id) items new
  products : forall p r, db.products.find? p = some r -> exists stamp,
    db'.products.find? p = some
      { r with stock := r.stock - requested items p, updatedAt := stamp }
  others : forall p, p ∉ items.map ItemRequest.productId ->
    db'.products.find? p = db.products.find? p
  nonNegative : NonNegative db'

structure Unchanged (db db' : Database) : Prop where
  customers : db'.customers = db.customers
  products : db'.products = db.products
  orders : db'.orders.rows = db.orders.rows
  items : db'.items.rows = db.items.rows

/-- The specification of one request. -/
def Meets (db db' : Database) (customerId : Int)
    (items : List ItemRequest) : Prop :=
  (InStock db items -> Sold db db' customerId items) ∧
    (¬ InStock db items -> Unchanged db db')

/-- Lines that are covered one by one are covered together, unless a stock
would leave the range of its column. -/
def CoveredTogether (db : Database) (items : List ItemRequest) : Prop :=
  (forall line, line ∈ items -> covered db line = true) ->
  (forall line, line ∈ items ->
    -2147483648 <= db.stock line.productId -
      requested items line.productId) ->
  forall line, line ∈ items ->
    requested items line.productId <= db.stock line.productId

instance (db : Database) (items : List ItemRequest) :
    Decidable (CoveredTogether db items) :=
  inferInstanceAs (Decidable
    ((forall line, line ∈ items -> covered db line = true) ->
      (forall line, line ∈ items ->
        -2147483648 <= db.stock line.productId -
          requested items line.productId) ->
      forall line, line ∈ items ->
        requested items line.productId <= db.stock line.productId))

/-!
# Quantities
-/

theorem requested_cons (line : ItemRequest) (rest : List ItemRequest)
    (p : Int) :
    requested (line :: rest) p =
      (if line.productId = p then line.quantity else 0) +
        requested rest p := by
  unfold requested
  rw [List.map_cons, List.sum_cons]

theorem requested_nonneg {lines : List ItemRequest}
    (h : forall line, line ∈ lines -> 0 < line.quantity) (p : Int) :
    0 <= requested lines p := by
  induction lines with
  | nil => exact le_refl _
  | cons line rest ih =>
      have hrest := ih (fun other hother =>
        h other (List.mem_cons_of_mem _ hother))
      have hline := h line List.mem_cons_self
      rw [requested_cons]
      split <;> omega

theorem le_requested {lines : List ItemRequest} {line : ItemRequest}
    (h : forall line, line ∈ lines -> 0 < line.quantity)
    (hline : line ∈ lines) :
    line.quantity <= requested lines line.productId := by
  induction lines with
  | nil => cases hline
  | cons head rest ih =>
      have hpositive : forall line, line ∈ rest -> 0 < line.quantity :=
        fun other hother => h other (List.mem_cons_of_mem _ hother)
      rw [requested_cons]
      rcases List.mem_cons.mp hline with rfl | hrest
      · have := requested_nonneg hpositive line.productId
        rw [if_pos rfl]
        omega
      · have := ih hpositive hrest
        have := h head List.mem_cons_self
        split <;> omega

theorem fitsInteger_iff {n : Int} :
    Database.fitsInteger n = true <->
      -2147483648 <= n ∧ n <= 2147483647 :=
  decide_eq_true_iff

theorem linesFit_iff {db : Database} {lines : List ItemRequest}
    {taken : Int -> Int} (htaken : forall p, 0 <= taken p)
    (hpositive : forall line, line ∈ lines -> 0 < line.quantity)
    (hstock : forall p, db.stock p <= 2147483647)
    (hline : forall line, line ∈ lines ->
      Database.fitsInteger line.quantity = true ∧
        Database.fitsDecimal (priceOf db line.productId) = true) :
    linesFit db taken lines = true <->
      forall line, line ∈ lines -> -2147483648 <=
        db.stock line.productId - taken line.productId -
          requested lines line.productId := by
  induction lines generalizing taken with
  | nil => simp [linesFit]
  | cons line rest ih =>
      have hq := hpositive line List.mem_cons_self
      rcases hline line List.mem_cons_self with ⟨hquantity, hprice⟩
      have hpositive' : forall line, line ∈ rest -> 0 < line.quantity :=
        fun other hother => hpositive other (List.mem_cons_of_mem _ hother)
      have hrest := @ih
        (fun p => taken p + if line.productId = p then line.quantity else 0)
        (by
          intro p
          have := htaken p
          split <;> omega)
        hpositive'
        (fun other hother => hline other (List.mem_cons_of_mem _ hother))
      have hnonneg := requested_nonneg hpositive' line.productId
      unfold linesFit
      rw [hquantity, hprice, Bool.true_and, Bool.true_and,
        Bool.and_eq_true_iff, hrest, fitsInteger_iff]
      constructor
      · intro h other hother
        rcases h with ⟨⟨hlow, _⟩, hall⟩
        rw [requested_cons]
        by_cases hin : other ∈ rest
        · have := hall other hin
          omega
        · -- the last line of its product
          have hhead : other = line :=
            (List.mem_cons.mp hother).resolve_right hin
          subst hhead
          rw [if_pos rfl]
          by_cases hmore : other.productId ∈
              rest.map ItemRequest.productId
          · rcases List.mem_map.mp hmore with ⟨twin, htwin, hid⟩
            have := hall twin htwin
            rw [hid, if_pos rfl] at this
            omega
          · rw [requested_of_absent hmore]
            omega
      · intro h
        have hhead := h line List.mem_cons_self
        rw [requested_cons, if_pos rfl] at hhead
        have htop := hstock line.productId
        have hlow := htaken line.productId
        refine ⟨⟨by omega, by omega⟩, ?_⟩
        intro other hother
        have := h other (List.mem_cons_of_mem _ hother)
        rw [requested_cons] at this
        omega

/-!
# Verdicts
-/

theorem stock_of_product? {db : Database} {p : Int} {r : Product}
    (h : db.product? p true = some r) : db.stock p = r.stock := by
  unfold Database.stock
  rw [(Option.filter_eq_some_iff.mp h).left]
  rfl

theorem covered_iff {db : Database} {line : ItemRequest} :
    covered db line = true <->
      exists r, db.product? line.productId true = some r ∧
        line.quantity <= r.stock := by
  unfold covered
  cases db.product? line.productId true with
  | none => simp
  | some r => simp

theorem inStock_iff {db : Database} {items : List ItemRequest}
    (hcovered : forall line, line ∈ items -> covered db line = true) :
    InStock db items <-> forall line, line ∈ items ->
      requested items line.productId <= db.stock line.productId := by
  constructor
  · intro h line hline
    rcases h line hline with ⟨r, hr, hle⟩
    rw [stock_of_product? hr]
    exact hle
  · intro h line hline
    rcases covered_iff.mp (hcovered line hline) with ⟨r, hr, _⟩
    have hle := h line hline
    rw [stock_of_product? hr] at hle
    exact ⟨r, hr, hle⟩

theorem covered_of_inStock {db : Database} {items : List ItemRequest}
    (hpositive : forall line, line ∈ items -> 0 < line.quantity)
    (h : InStock db items) :
    forall line, line ∈ items -> covered db line = true := by
  intro line hline
  rcases h line hline with ⟨r, hr, hle⟩
  have := le_requested hpositive hline
  exact covered_iff.mpr ⟨r, hr, by omega⟩

theorem fits_iff {db : Database} {items : List ItemRequest}
    (htyped : WellTyped db)
    (hpositive : forall line, line ∈ items -> 0 < line.quantity)
    (hcovered : forall line, line ∈ items -> covered db line = true)
    (htotal : Database.fitsDecimal (totalOf db items) = true) :
    fits db items = true <-> forall line, line ∈ items ->
      -2147483648 <= db.stock line.productId -
        requested items line.productId := by
  have hstock : forall p, db.stock p <= 2147483647 := by
    intro p
    unfold Database.stock
    cases hfind : db.products.find? p with
    | none => decide
    | some r =>
        exact (fitsInteger_iff.mp (htyped r
          (Table.find?_eq_some_iff.mp hfind).left).left).right
  have hline : forall line, line ∈ items ->
      Database.fitsInteger line.quantity = true ∧
        Database.fitsDecimal (priceOf db line.productId) = true := by
    intro line hline
    rcases covered_iff.mp (hcovered line hline) with ⟨r, hr, hle⟩
    have hrow := (Option.filter_eq_some_iff.mp hr).left
    have hmem := (Table.find?_eq_some_iff.mp hrow).left
    have hq := hpositive line hline
    have htop := (fitsInteger_iff.mp (htyped r hmem).left).right
    constructor
    · exact fitsInteger_iff.mpr ⟨by omega, by omega⟩
    · rw [priceOf_product hr]
      exact (htyped r hmem).right
  unfold fits
  rw [htotal, Bool.and_true,
    linesFit_iff (fun _ => le_refl _) hpositive hstock hline]
  constructor <;> intro h line hmem
  · have := h line hmem
    omega
  · have := h line hmem
    omega

/-!
# Effects
-/

theorem products_insertOrder (db : Database) (o : Order) :
    (db.insertOrder o).products = db.products := by
  unfold Database.insertOrder
  split <;> rfl

theorem find?_writeAll_lines (db : Database) (taken : List (OrderItem × Nat))
    {p : Int} {r : Product} (h : db.products.find? p = some r) :
    exists stamp,
      (db.writeAll (taken.flatMap Draft.lineWrites)).products.find? p = some
        { r with
          stock := r.stock - quantityOf (taken.map Prod.fst) p
          updatedAt := stamp } := by
  induction taken generalizing db r with
  | nil =>
      refine ⟨r.updatedAt, ?_⟩
      refine h.trans (congrArg some ?_)
      show r = { r with stock := r.stock - 0, updatedAt := r.updatedAt }
      rw [Int.sub_zero]
  | cons entry rest ih =>
      rcases entry with ⟨i, now⟩
      have hnext : ((db.insertItem i).update
          (.productStock i.productId (-i.quantity)) now).products.find? p =
          some { r with
            stock := r.stock -
              (if i.productId = p then i.quantity else 0)
            updatedAt := if i.productId = p then now else r.updatedAt } := by
        rw [Database.find?_update_productStock, products_insertItem, h]
        by_cases hp : p = i.productId
        · subst hp
          simp [Int.sub_eq_add_neg]
        · rw [if_neg hp, if_neg (fun heq => hp heq.symm),
            if_neg (fun heq => hp heq.symm), Int.sub_zero]
      rcases ih _ hnext with ⟨stamp, hstamp⟩
      refine ⟨stamp, hstamp.trans (congrArg some ?_)⟩
      unfold quantityOf
      rw [List.map_cons, List.map_cons, List.sum_cons, ← Int.sub_sub]

theorem find?_writeAll_fullLog (db : Database) (d : Draft) (now : Nat)
    {p : Int} {r : Product} (h : db.products.find? p = some r) :
    exists stamp, (db.writeAll (d.fullLog now)).products.find? p = some
      { r with
        stock := r.stock - quantityOf d.items p
        updatedAt := stamp } := by
  have hopened : (db.insertOrder d.order).products.find? p = some r := by
    rw [products_insertOrder]
    exact h
  rcases find?_writeAll_lines _ d.taken hopened with ⟨stamp, hstamp⟩
  refine ⟨stamp, ?_⟩
  unfold Draft.fullLog
  rw [Database.writeAll_snoc]
  exact hstamp

theorem sells_of_matches {db : Database} {all lines : List ItemRequest}
    {rows : List OrderItem} {orderId : Int}
    (hsub : forall line, line ∈ lines -> line ∈ all)
    (howner : forall i, i ∈ rows -> i.orderId = orderId)
    (h : List.Forall₂ (Matches (readRows db all)) lines rows) :
    List.Forall₂ (Sells db orderId) lines rows := by
  induction h with
  | nil => exact .nil
  | cons hmatch _ ih =>
      rename_i line row lines rows _
      rcases hmatch with ⟨hproduct, hquantity, hlive, product, hfind, hprice⟩
      rw [findProduct_readRows (List.mem_map_of_mem
        (hsub line List.mem_cons_self))] at hfind
      refine .cons ⟨howner row List.mem_cons_self, hproduct, hquantity, ?_,
        hlive⟩ (ih ?_ ?_)
      · rw [priceOf_product hfind]
        exact hprice
      · intro other hother
        exact hsub other (List.mem_cons_of_mem _ hother)
      · intro i hi
        exact howner i (List.mem_cons_of_mem _ hi)

theorem productIds_of_sells {db : Database} {lines : List ItemRequest}
    {rows : List OrderItem} {orderId : Int}
    (h : List.Forall₂ (Sells db orderId) lines rows) :
    rows.map OrderItem.productId = lines.map ItemRequest.productId := by
  induction h with
  | nil => rfl
  | cons hsell _ ih =>
      rw [List.map_cons, List.map_cons, hsell.right.left, ih]

theorem find?_of_grows {db db' : Database} (h : Grows db db') (id : Int) :
    db'.orders.find? id = db.orders.find? id := by
  unfold Table.find?
  rw [h.orders]

theorem sold_of_committed {ok : Cmd -> Env -> Prop} {w w' : World}
    {customerId : Int} {items : List ItemRequest}
    (h : Committed ok w customerId items w') (hnonneg : NonNegative w.db)
    (hstock : forall line, line ∈ items ->
      requested items line.productId <= w.db.stock line.productId) :
    Sold w.db w'.db customerId items := by
  rcases h.placed with ⟨mid, d, now, hgrows, hfresh, hdb, hopened, hlines⟩
  have hplaced : Placed mid w'.db d now := by
    rw [hdb]
    exact placed_of_fresh hfresh
  have hsells := sells_of_matches (fun _ h => h) hplaced.owner hlines
  rcases hopened with ⟨opened, ho⟩
  refine ⟨hplaced.customers.trans hgrows.customers, ?_, ?_, ?_, ?_⟩
  · refine ⟨d.placed now, d.items, ?_, ?_, ?_, ?_, ?_, ?_, ?_, hsells⟩
    · show d.order.customerId = customerId
      rw [ho]
    · show d.order.status = .pending
      rw [ho]
    · show d.order.deletedAt = none
      rw [ho]
    · exact lineSum_eq_totalOf (fun _ h => h) hlines
    · rw [← find?_of_grows hgrows]
      exact hplaced.free
    · intro id
      rw [← find?_of_grows hgrows]
      exact hplaced.order id
    · rw [hplaced.items, hgrows.items]
  · intro p r hr
    rw [hdb, ← quantityOf_eq_requested hlines]
    rw [← hgrows.products] at hr
    exact find?_writeAll_fullLog mid d now hr
  · intro p hp
    rw [← hgrows.products]
    refine hplaced.others p ?_
    rw [productIds_of_sells hsells]
    exact hp
  · intro p
    rw [hplaced.stock p, quantityOf_eq_requested hlines,
      stock_congr hgrows.products]
    by_cases hp : p ∈ items.map ItemRequest.productId
    · rcases List.mem_map.mp hp with ⟨line, hline, rfl⟩
      have := hstock line hline
      omega
    · rw [requested_of_absent hp]
      have := hnonneg p
      omega

theorem unchanged_of_grows {db db' : Database} (h : Grows db db') :
    Unchanged db db' :=
  ⟨h.customers, h.products, h.orders, h.items⟩

/-!
# The request
-/

section Request

variable {w w' : World} {token : Token} {c : Customer}
  {items : List ItemRequest} {out : Outcome}

/-- Without failures a request is committed, or some line is not covered, or
some value does not fit its column. -/
theorem settled (hcustomer : tokenCustomer? w.db.customers token = some c)
    (h : Executes Healthy w (.request (.createOrder token items)) out w') :
    Committed allHealthy w c.id items w' ∨ Grows w.db w'.db ∧
      ((exists line, line ∈ items ∧ covered w.db line = false) ∨
        fits w.db items = false) := by
  have hin : ExecutesIn allHealthy w (.request (.createOrder token items)) out
    w' := h
  rcases executes_checkout hin with ⟨r, _, hends⟩
  cases hends with
  | unknown _ _ hwhy =>
      rcases hwhy with hnone | ⟨_, _, hmay⟩
      · rw [hnone] at hcustomer
        cases hcustomer
      · exact absurd hmay not_mayFail_healthy
  | rejected c' _ _ hrejected =>
      refine Or.inr ⟨hrejected.grows, ?_⟩
      rcases hrejected.reason with huncovered | ⟨_, _, hmay⟩
      · exact Or.inl huncovered
      · exact absurd hmay not_mayFail_healthy
  | rolledBack c' _ _ hrolled =>
      refine Or.inr ⟨hrolled.grows, ?_⟩
      rcases hrolled.reason with hno | ⟨_, _, hmay⟩
      · exact Or.inr hno
      · exact absurd hmay not_mayFail_healthy
  | committed c' hc' _ hcommitted =>
      rw [hcustomer] at hc'
      cases hc'
      exact Or.inl hcommitted

end Request

/-- `createOrder` meets its stock specification exactly on requests whose lines
are covered together when they are covered one by one. -/
theorem createOrder_meets_specification_iff {w : World} {token : Token}
    {c : Customer} {items : List ItemRequest}
    (hcustomer : tokenCustomer? w.db.customers token = some c)
    (hnonneg : NonNegative w.db) (htyped : WellTyped w.db)
    (hpositive : forall line, line ∈ items -> 0 < line.quantity)
    (htotal : Database.fitsDecimal (totalOf w.db items) = true) :
    (forall out w',
      Executes Healthy w (.request (.createOrder token items)) out w' ->
        Meets w.db w'.db c.id items) <->
      CoveredTogether w.db items := by
  constructor
  · intro hmeets hcovered hrange
    have hexec := executes_perform (.request (.createOrder token items)) w
    rw [← inStock_iff hcovered]
    rcases settled hcustomer hexec with hcommitted | ⟨_, hwhy⟩
    · -- a committed request has added an order
      by_contra hnot
      have hsame := (hmeets _ _ hexec).right hnot
      rcases hcommitted.placed with ⟨mid, d, now, hgrows, hfresh, hdb, _, _⟩
      have hplaced : Placed mid (mid.writeAll (d.fullLog now)) d now :=
        placed_of_fresh hfresh
      have hnew := hplaced.order d.order.id
      have hold := hplaced.free
      rw [← hdb, if_pos rfl] at hnew
      unfold Table.find? at hnew hold
      rw [hsame.orders, ← hgrows.orders, hold] at hnew
      cases hnew
    · rcases hwhy with ⟨line, hline, huncovered⟩ | hno
      · rw [hcovered line hline] at huncovered
        cases huncovered
      · rw [(fits_iff htyped hpositive hcovered htotal).mpr hrange] at hno
        cases hno
  · intro htogether out w' hexec
    rcases settled hcustomer hexec with hcommitted | ⟨hgrows, hwhy⟩
    · have hrange := (fits_iff htyped hpositive hcommitted.covered
        htotal).mp hcommitted.fits
      have hle := htogether hcommitted.covered hrange
      constructor
      · intro _
        exact sold_of_committed hcommitted hnonneg hle
      · intro hnot
        exact absurd ((inStock_iff hcommitted.covered).mpr hle) hnot
    · constructor
      · intro hin
        have hcovered := covered_of_inStock hpositive hin
        exfalso
        rcases hwhy with ⟨line, hline, huncovered⟩ | hno
        · rw [hcovered line hline] at huncovered
          cases huncovered
        · have hle := (inStock_iff hcovered).mp hin
          have hfits := (fits_iff htyped hpositive hcovered htotal).mpr
            (fun line hline => by
              have := hle line hline
              omega)
          rw [hfits] at hno
          cases hno
      · intro _
        exact unchanged_of_grows hgrows

/-- Two lines ask for two bottles of ink each, and there are three. -/
theorem repeated_lines_oversell :
    let items : List ItemRequest := [⟨2, 2⟩, ⟨2, 2⟩]
    let task : Task := .request (.createOrder (.valid 1) items)
    Executes Healthy shop task (task.perform shop).1 (task.perform shop).2 ∧
      NonNegative shop.db ∧ requested items 2 = 4 ∧ shop.db.stock 2 = 3 ∧
      (task.perform shop).2.db.stock 2 = -1 ∧
      ((task.perform shop).2.db.orders.find? 1).isSome = true :=
  ⟨executes_perform _ _, nonNegative_of_rows (by decide), by decide,
    by decide, by decide +kernel, by decide +kernel⟩

/-- Two lines of pens that the stock covers together. -/
theorem repeated_lines_in_stock :
    let items : List ItemRequest := [⟨1, 2⟩, ⟨1, 3⟩]
    let task : Task := .request (.createOrder (.valid 1) items)
    CoveredTogether shop.db items ∧
      Meets shop.db (task.perform shop).2.db 1 items := by
  have htogether : CoveredTogether shop.db [⟨1, 2⟩, ⟨1, 3⟩] := by decide
  have hiff := @createOrder_meets_specification_iff shop (.valid 1)
    ⟨1, "buyer", "buyer@shop", "digest", 0, 0, none⟩ [⟨1, 2⟩, ⟨1, 3⟩] rfl
    (nonNegative_of_rows (by decide)) (by decide) (by decide) (by decide)
  exact ⟨htogether, hiff.mpr htogether _ _ (executes_perform _ _)⟩

end Checkout
end ExpressEcommerce
