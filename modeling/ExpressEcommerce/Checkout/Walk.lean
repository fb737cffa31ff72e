import ExpressEcommerce.Service.Symbolic
import ExpressEcommerce.Stock.NonNegative

/-!
# A request for an order, step by step

`createOrder` executed alone on the real states.  The walk says how every
execution ends and, when it ends in an error, why: a line was not covered by the
stock, a column could not hold a value, or a call failed.  All three can be read
off from the store and the request beforehand.
-/

namespace ExpressEcommerce
namespace Checkout

open Foundation
open Store
open Service
open Orders
open Stock
open Foundation.Action

/-!
# What decides about a request
-/

def priceOf (db : Database) (p : Int) : Int :=
  ((db.product? p true).map Product.price).getD 0

def totalOf (db : Database) (items : List ItemRequest) : Int :=
  (items.map (fun line => line.quantity * priceOf db line.productId)).sum

def covered (db : Database) (line : ItemRequest) : Bool :=
  (db.product? line.productId true).any
    (fun p => decide (line.quantity <= p.stock))

/-- The columns can hold the items and the stocks that remain; `taken` is what
earlier lines have taken. -/
def linesFit (db : Database) : (Int -> Int) -> List ItemRequest -> Bool
  | _, [] => true
  | taken, line :: rest =>
      Database.fitsInteger line.quantity &&
        Database.fitsDecimal (priceOf db line.productId) &&
        Database.fitsInteger
          (db.stock line.productId - taken line.productId - line.quantity) &&
        linesFit db (fun p =>
          taken p + if line.productId = p then line.quantity else 0) rest

def fits (db : Database) (items : List ItemRequest) : Bool :=
  linesFit db (fun _ => 0) items &&
    Database.fitsDecimal (totalOf db items)

def lineCommands (db : Database) (line : ItemRequest) : List Cmd :=
  [.insert true (.item db.orders.seq line.productId line.quantity
      (priceOf db line.productId)),
    .query false (.orderByPk db.orders.seq true { items := some true }),
    .update true (.productStock line.productId (-line.quantity))]

/-- The statements after the order itself has been inserted. -/
def lateCommands (db : Database) (items : List ItemRequest) : List Cmd :=
  items.flatMap (lineCommands db) ++
    [.update true (.orderTotal db.orders.seq (totalOf db items)), .commit]

def earlyCommands (customerId : Int) (items : List ItemRequest) : List Cmd :=
  [.begin, .query false (.productsById (items.map ItemRequest.productId)),
    .insert true (.order customerId 0 .pending)]

def firstJob (db : Database) : Job :=
  ⟨db.orders.seq, .processing⟩

theorem findProduct_readRows {db : Database} {items : List ItemRequest}
    {p : Int} (hp : p ∈ items.map ItemRequest.productId) :
    findProduct (readRows db items) p = db.product? p true := by
  have hrow : forall r, r ∈ readRows db items <->
      r ∈ db.products.rows ∧ r.deletedAt = none ∧
        r.id ∈ items.map ItemRequest.productId := by
    intro r
    unfold readRows Query.eval Database.liveProducts
    simp only [List.mem_filter, decide_eq_true_eq, Option.isNone_iff_eq_none]
    exact and_assoc
  unfold findProduct Database.product?
  cases hfind : (readRows db items).find? (fun r => decide (r.id = p)) with
  | some r =>
      have hid : r.id = p := by simpa using List.find?_some hfind
      rcases (hrow r).mp (List.mem_of_find?_eq_some hfind) with
        ⟨hmem, hlive, _⟩
      have hr : db.products.find? p = some r :=
        Table.find?_eq_some_iff.mpr ⟨hmem, hid⟩
      rw [hr]
      simp [Option.filter, hlive]
  | none =>
      rw [List.find?_eq_none] at hfind
      cases hr : db.products.find? p with
      | none => rfl
      | some r =>
          rcases Table.find?_eq_some_iff.mp hr with ⟨hmem, hid⟩
          cases hlive : r.deletedAt with
          | some at_ => simp [Option.filter, hlive]
          | none =>
              have hid' : r.id = p := hid
              have hin : r ∈ readRows db items :=
                (hrow r).mpr ⟨hmem, hlive, by rw [hid']; exact hp⟩
              exact absurd (decide_eq_true hid') (hfind r hin)

theorem passes_iff_covered {db : Database} {items : List ItemRequest}
    {line : ItemRequest} (hline : line ∈ items) :
    Passes (readRows db items) line <-> covered db line = true := by
  unfold Passes covered
  rw [findProduct_readRows (List.mem_map_of_mem hline)]
  cases db.product? line.productId true with
  | none => simp
  | some product => simp

theorem wp_check {sigma : Type} {P : Protocol service sigma} {s : sigma}
    {Q : PUnit -> sigma -> Prop} {E : String -> sigma -> Prop}
    {products : List Product} (items : List ItemRequest)
    (hok : (forall line, line ∈ items -> Passes products line) -> Q () s)
    (hthrow : forall e line, line ∈ items -> ¬ Passes products line ->
      E e s) :
    Action.wp P (items.forM (checkItem products)) Q E s := by
  induction items with
  | nil => exact hok (fun line hline => by cases hline)
  | cons line rest ih =>
      have hhead : forall e, ¬ Passes products line -> E e s :=
        fun e => hthrow e line List.mem_cons_self
      show Action.wp P (checkItem products line >>= fun _ =>
        rest.forM (checkItem products)) Q E s
      rw [wp_bind]
      unfold checkItem
      cases hproduct : findProduct products line.productId with
      | none =>
          apply hhead
          intro hpasses
          rcases hpasses with ⟨_, hsome, _⟩
          rw [hproduct] at hsome
          cases hsome
      | some product =>
          dsimp only
          split
          · rename_i hstock
            apply hhead
            intro hpasses
            rcases hpasses with ⟨_, hsome, hle⟩
            rw [hproduct] at hsome
            cases hsome
            omega
          · rename_i hstock
            have hline : Passes products line :=
              ⟨product, hproduct, Int.not_lt.mp hstock⟩
            rw [wp_pure]
            apply ih
            · intro hrest
              apply hok
              intro other hother
              rcases List.mem_cons.mp hother with rfl | hother
              · exact hline
              · exact hrest other hother
            · intro e other hother
              exact hthrow e other (List.mem_cons_of_mem _ hother)

/-!
# What the store accepts
-/

theorem acceptsChange_productStock {db : Database} {p : Int}
    (h : (db.products.find? p).isSome = true) (amount : Int) :
    db.acceptsChange (.productStock p amount) =
      Database.fitsInteger (db.stock p + amount) := by
  rcases Option.isSome_iff_exists.mp h with ⟨r, hr⟩
  dsimp only [Database.acceptsChange, Database.stock]
  rw [hr]
  rfl

theorem products_insertItem (db : Database) (item : OrderItem) :
    (db.insertItem item).products = db.products := by
  unfold Database.insertItem
  split <;> rfl

section Accepts

variable {db : Database} {d : Draft} {item : OrderItem}

theorem accepts_item (h : Fresh db d.order d.items)
    (horder : item.orderId = d.order.id)
    (hproduct : (db.products.find? item.productId).isSome = true) :
    (db.writeAll d.log).accepts (.insertItem item) =
      (Database.fitsInteger item.quantity &&
        Database.fitsDecimal item.unitPrice) := by
  rcases view_of_log h with ⟨hsome, hproducts, _⟩
  dsimp only [Database.accepts]
  rw [horder, hsome, hproducts, hproduct, Bool.true_and, Bool.true_and]

theorem accepts_take (h : Fresh db d.order d.items)
    (hproduct : (db.products.find? item.productId).isSome = true) :
    (db.writeAll (d.log ++ [.insertItem item])).acceptsChange
        (.productStock item.productId (-item.quantity)) =
      Database.fitsInteger (db.stock item.productId -
        quantityOf d.items item.productId - item.quantity) := by
  rcases view_of_log h with ⟨_, hproducts, hstock⟩
  have hsame : (db.writeAll (d.log ++ [.insertItem item])).products =
      (db.writeAll d.log).products := by
    rw [Database.writeAll_snoc]
    exact products_insertItem _ _
  rw [acceptsChange_productStock, stock_congr hsame, hstock]
  · rfl
  · rw [hsame, hproducts]
    exact hproduct

end Accepts

/-!
# The walk
-/

def Scheduled (ok : Cmd -> Env -> Prop) (start : World) (q : Queue) : Prop :=
  Works (ok (.addJob (firstJob start.db))) ∧
      q = start.queue.add (firstJob start.db) ∨
    MayFail (ok (.addJob (firstJob start.db))) ∧ q = start.queue

def Opened (start : World) (customerId : Int) (o : Order) : Prop :=
  exists now,
    o = ⟨start.db.orders.seq, customerId, 0, .pending, now, now, none⟩

/-- The request has placed the lines `before` and goes on with the rest. -/
structure Building (ok : Cmd -> Env -> Prop) (start : World)
    (customerId : Int) (items before : List ItemRequest) (d : Draft)
    (s : World × Tx) : Prop where
  tx : s.2 = some d.log
  grows : Grows start.db s.1.db
  fresh : Fresh s.1.db d.order d.items
  opened : Opened start customerId d.order
  rows : d.products = readRows start.db items
  split : items = before ++ d.todo
  lines : List.Forall₂ (Matches d.products) before d.items
  queue : Scheduled ok start s.1.queue
  fit : linesFit start.db (fun _ => 0) items =
    linesFit start.db (quantityOf d.items) d.todo
  works : forall c, c ∈ before.flatMap (lineCommands start.db) ->
    Works (ok c)

structure Rejected (ok : Cmd -> Env -> Prop) (start : World)
    (customerId : Int) (items : List ItemRequest) (w : World) : Prop where
  grows : Grows start.db w.db
  queue : w.queue = start.queue
  reason : (exists line, line ∈ items ∧ covered start.db line = false) ∨
    exists c, c ∈ earlyCommands customerId items ∧ MayFail (ok c)

structure RolledBack (ok : Cmd -> Env -> Prop) (start : World)
    (items : List ItemRequest) (w : World) : Prop where
  covered : forall line, line ∈ items -> covered start.db line = true
  grows : Grows start.db w.db
  queue : Scheduled ok start w.queue
  reason : fits start.db items = false ∨
    exists c, c ∈ lateCommands start.db items ∧ MayFail (ok c)

structure Committed (ok : Cmd -> Env -> Prop) (start : World)
    (customerId : Int) (items : List ItemRequest) (w : World) : Prop where
  covered : forall line, line ∈ items -> covered start.db line = true
  fits : fits start.db items = true
  placed : exists (mid : Database) (d : Draft) (now : Nat),
    Grows start.db mid ∧ Fresh mid d.order d.items ∧
    w.db = mid.writeAll (d.fullLog now) ∧
    Opened start customerId d.order ∧
    List.Forall₂ (Matches (readRows start.db items)) items d.items
  queue : Scheduled ok start w.queue
  works : forall c, c ∈ lateCommands start.db items -> Works (ok c)

section Walk

variable {ok : Cmd -> Env -> Prop} {start : World} {customerId : Int}
  {items : List ItemRequest}

theorem rolledBack_of_building {before : List ItemRequest} {d : Draft}
    {s : World × Tx} {w : World}
    (hall : forall line, line ∈ items -> covered start.db line = true)
    (hb : Building ok start customerId items before d s)
    (hgrows : Grows s.1.db w.db) (hqueue : w.queue = s.1.queue)
    (hreason : fits start.db items = false ∨
      exists c, c ∈ lateCommands start.db items ∧ MayFail (ok c)) :
    RolledBack ok start items w := by
  refine ⟨hall, hb.grows.trans hgrows, ?_, hreason⟩
  rw [hqueue]
  exact hb.queue

theorem late_of_line {line : ItemRequest} {c : Cmd} (hline : line ∈ items)
    (hc : c ∈ lineCommands start.db line) :
    c ∈ lateCommands start.db items :=
  List.mem_append_left _ (List.mem_flatMap.mpr ⟨line, hline, hc⟩)

theorem not_fits_of_line {before : List ItemRequest} {d : Draft}
    {s : World × Tx} {line : ItemRequest} {rest : List ItemRequest}
    (hb : Building ok start customerId items before d s)
    (htodo : d.todo = line :: rest)
    (hno : (Database.fitsInteger line.quantity &&
      Database.fitsDecimal (priceOf start.db line.productId) &&
      Database.fitsInteger (start.db.stock line.productId -
        quantityOf d.items line.productId - line.quantity)) = false) :
    fits start.db items = false := by
  unfold fits
  rw [hb.fit, htodo]
  unfold linesFit
  rw [hno]
  rfl

theorem priceOf_product {db : Database} {p : Int} {product : Product}
    (h : db.product? p true = some product) : priceOf db p = product.price := by
  unfold priceOf
  rw [h]
  rfl

theorem isSome_of_product? {db : Database} {p : Int} {product : Product}
    (h : db.product? p true = some product) :
    (db.products.find? p).isSome = true := by
  rw [(Option.filter_eq_some_iff.mp h).left]
  rfl

theorem direct_recalculate_absent {w : World} {tx : Tx} {item : OrderItem}
    {Q : Unit -> World × Tx -> Prop} {E : String -> World × Tx -> Prop}
    (hnone : w.db.orders.find? item.orderId = none)
    (hok : Works (ok (.query false (.orderByPk item.orderId true
      { items := some true }))) -> Q () (w, tx))
    (hfail : MayFail (ok (.query false (.orderByPk item.orderId true
      { items := some true }))) -> forall e, E e (w, tx)) :
    Action.wp (direct ok) (OrderItem.recalculate item) Q E (w, tx) := by
  -- the hook reads outside of the transaction that has inserted the order
  have hfound : Query.eval (w.view tx false)
      (.orderByPk item.orderId true { items := some true }) = none := by
    show (w.db.order? item.orderId true).map _ = none
    unfold Database.order?
    rw [hnone]
    rfl
  unfold OrderItem.recalculate
  refine (wp_bind _ _ _).mpr (direct_query rfl ?_ hfail)
  intro hworks
  rw [hfound]
  exact hok hworks

theorem building_item {before : List ItemRequest} {d : Draft} {w : World}
    {line : ItemRequest} {rest : List ItemRequest} {product : Product}
    {Q : OrderItem -> World × Tx -> Prop} {E : String -> World × Tx -> Prop}
    (hall : forall line, line ∈ items -> covered start.db line = true)
    (hb : Building ok start customerId items before d (w, some d.log))
    (htodo : d.todo = line :: rest)
    (hproduct : start.db.product? line.productId true = some product)
    (hok : forall now w', w'.db = w.db.reserve .items ->
      w'.queue = w.queue ->
      let item : OrderItem := ⟨w.db.items.seq, d.order.id, line.productId,
        line.quantity, product.price, now, now, none⟩
      Database.fitsInteger line.quantity = true ->
      Database.fitsDecimal (priceOf start.db line.productId) = true ->
      (forall c, c ∈ (lineCommands start.db line).take 2 -> Works (ok c)) ->
      Q item (w', some (d.log ++ [.insertItem item])))
    (herr : forall e s, RolledBack ok start items s.1 -> E e s) :
    Action.wp (direct ok) (OrderItem.create true d.order.id line.productId
      line.quantity product.price) Q E (w, some d.log) := by
  have hid : d.order.id = start.db.orders.seq := by
    rcases hb.opened with ⟨now, ho⟩
    rw [ho]
  have hprice := priceOf_product hproduct
  have hline : line ∈ items := by
    rw [hb.split, htodo]
    simp
  have hexists : (w.db.products.find? line.productId).isSome = true := by
    rw [hb.grows.products]
    exact isSome_of_product? hproduct
  have hgrown : Grows w.db (w.db.reserve .items) := grows_reserve_items w.db
  have haccepts : forall now,
      ((w.db.reserve .items).writeAll d.log).accepts (.insertItem
        ⟨w.db.items.seq, d.order.id, line.productId, line.quantity,
          product.price, now, now, none⟩) =
        (Database.fitsInteger line.quantity &&
          Database.fitsDecimal product.price) :=
    fun now => accepts_item (hb.fresh.grows hgrown) rfl hexists
  have hinsert : Cmd.insert true (.item d.order.id line.productId
      line.quantity product.price) ∈ lineCommands start.db line := by
    rw [hid, ← hprice]
    exact List.mem_cons_self
  have hquery : Cmd.query false (.orderByPk d.order.id true
      { items := some true }) ∈ lineCommands start.db line := by
    rw [hid]
    exact List.mem_cons_of_mem _ List.mem_cons_self
  unfold OrderItem.create
  refine (wp_bind _ _ _).mpr (direct_insert ?_ ?_ ?_)
  · intro now hworks hyes
    rcases Bool.and_eq_true_iff.mp ((haccepts now).symm.trans hyes) with
      ⟨hquantity, hunit⟩
    -- the order is in the log of the transaction only
    refine (wp_bind _ _ _).mpr
      (direct_recalculate_absent hb.fresh.order.right ?_ ?_)
    · intro hworks'
      refine hok now (reserved w _) rfl rfl hquantity ?_ ?_
      · rw [hprice]
        exact hunit
      · intro c hc
        rcases List.mem_cons.mp hc with rfl | hc
        · rw [hid, ← hprice] at hworks
          exact hworks
        · rw [List.mem_singleton.mp hc]
          rw [← hid]
          exact hworks'
    · intro hmay e
      exact herr e _ (rolledBack_of_building hall hb hgrown rfl
        (Or.inr ⟨_, late_of_line hline hquery, hmay⟩))
  · intro now hno e
    refine herr e _ (rolledBack_of_building hall hb hgrown rfl (Or.inl ?_))
    refine not_fits_of_line hb htodo ?_
    rw [hprice, (haccepts now).symm.trans hno]
    rfl
  · intro hmay e
    exact herr e _ (rolledBack_of_building hall hb (Grows.refl _) rfl
      (Or.inr ⟨_, late_of_line hline hinsert, hmay⟩))

theorem quantityOf_snoc (before : List OrderItem) (item : OrderItem) :
    quantityOf (before ++ [item]) = fun p =>
      quantityOf before p + if item.productId = p then item.quantity else 0 := by
  funext p
  rw [quantityOf_append]
  simp [quantityOf]

theorem building_next {before : List ItemRequest} {d : Draft} {w w' : World}
    {line : ItemRequest} {rest : List ItemRequest} {product : Product}
    {now now' : Nat}
    (hb : Building ok start customerId items before d (w, some d.log))
    (htodo : d.todo = line :: rest) (hdb : w'.db = w.db.reserve .items)
    (hqueue : w'.queue = w.queue)
    (hexists : (w.db.products.find? line.productId).isSome = true)
    (hfind : findProduct d.products line.productId = some product)
    (hfits : Database.fitsInteger line.quantity = true ∧
      Database.fitsDecimal (priceOf start.db line.productId) = true ∧
      Database.fitsInteger (start.db.stock line.productId -
        quantityOf d.items line.productId - line.quantity) = true)
    (hworks : forall c, c ∈ (lineCommands start.db line).take 2 ->
      Works (ok c))
    (hworks' : Works (ok (.update true
      (.productStock line.productId (-line.quantity))))) :
    let item : OrderItem := ⟨w.db.items.seq, d.order.id, line.productId,
      line.quantity, product.price, now, now, none⟩
    Building ok start customerId items (before ++ [line])
      { d with todo := rest, taken := d.taken ++ [(item, now')] }
      (w', some (d.log ++ [.insertItem item] ++
        [.update (.productStock line.productId (-line.quantity)) now'])) := by
  intro item
  have hitems : (d.with item now').items = d.items ++ [item] :=
    Draft.items_with d item now'
  refine ⟨?_, ?_, ?_, hb.opened, hb.rows, ?_, ?_, ?_, ?_, ?_⟩
  · exact congrArg some (Draft.log_with d item now').symm
  · show Grows start.db w'.db
    rw [hdb]
    exact hb.grows.trans (grows_reserve_items w.db)
  · show Fresh w'.db d.order (d.with item now').items
    rw [hdb, hitems]
    exact fresh_item hb.fresh rfl rfl hexists
  · rw [hb.split, htodo, List.append_assoc]
    rfl
  · show List.Forall₂ _ _ (d.with item now').items
    rw [hitems]
    exact List.rel_append hb.lines
      (.cons ⟨rfl, rfl, rfl, product, hfind, rfl⟩ .nil)
  · show Scheduled ok start w'.queue
    rw [hqueue]
    exact hb.queue
  · show _ = linesFit start.db (quantityOf (d.with item now').items) rest
    rw [hb.fit, htodo, hitems, quantityOf_snoc]
    conv_lhs => unfold linesFit
    rw [hfits.left, hfits.right.left, hfits.right.right]
    rfl
  · intro c hc
    rw [List.flatMap_append, List.mem_append] at hc
    rcases hc with hc | hc
    · exact hb.works c hc
    · rw [List.flatMap_singleton] at hc
      rcases List.mem_cons.mp hc with rfl | hc
      · exact hworks _ List.mem_cons_self
      · rcases List.mem_cons.mp hc with rfl | hc
        · exact hworks _ (List.mem_cons_of_mem _ List.mem_cons_self)
        · rw [List.mem_singleton.mp hc]
          exact hworks'

theorem building_placeItem {before : List ItemRequest} {d : Draft}
    {s : World × Tx} {line : ItemRequest} {rest : List ItemRequest}
    {E : String -> World × Tx -> Prop}
    (hall : forall line, line ∈ items -> covered start.db line = true)
    (hb : Building ok start customerId items before d s)
    (htodo : d.todo = line :: rest)
    (herr : forall e s, RolledBack ok start items s.1 -> E e s) :
    Action.wp (direct ok) (placeItem d.products d.order (lineSum d.items) line)
      (fun total s' => exists d' : Draft,
        Building ok start customerId items (before ++ [line]) d' s' ∧
        d'.products = d.products ∧ d'.order = d.order ∧ d'.todo = rest ∧
        total = lineSum d'.items) E s := by
  rcases s with ⟨w, tx⟩
  have htx : tx = some d.log := hb.tx
  subst htx
  have hline : line ∈ items := by
    rw [hb.split, htodo]
    simp
  have hfind : findProduct d.products line.productId =
      start.db.product? line.productId true := by
    rw [hb.rows]
    exact findProduct_readRows (List.mem_map_of_mem hline)
  have hcovered := hall line hline
  unfold covered at hcovered
  cases hproduct : start.db.product? line.productId true with
  | none =>
      rw [hproduct] at hcovered
      cases hcovered
  | some product =>
      rw [hproduct] at hfind
      have hid := findProduct_id hfind
      unfold placeItem
      rw [hfind]
      refine (wp_bind _ _ _).mpr (building_item hall hb htodo hproduct ?_ herr)
      intro now w' hdb hqueue item hquantity hunit hworks
      have hgrown : Grows w.db w'.db := by
        rw [hdb]
        exact grows_reserve_items w.db
      have hfresh' : Fresh w'.db d.order d.items := hb.fresh.grows hgrown
      have hexists : (w.db.products.find? line.productId).isSome = true := by
        rw [hb.grows.products]
        exact isSome_of_product? hproduct
      have hstock : w'.db.stock line.productId =
          start.db.stock line.productId :=
        stock_congr (hgrown.products.trans hb.grows.products) _
      have haccepts : (w'.db.writeAll
          (d.log ++ [.insertItem item])).acceptsChange
            (.productStock line.productId (-line.quantity)) =
          Database.fitsInteger (start.db.stock line.productId -
            quantityOf d.items line.productId - line.quantity) := by
        rw [← hstock]
        refine accepts_take hfresh' ?_
        rw [hgrown.products]
        exact hexists
      unfold Product.incrementStock
      rw [hid]
      refine (wp_bind _ _ _).mpr ((wp_bind _ _ _).mpr (direct_update ?_ ?_ ?_))
      · intro now' hworks' hyes
        have hstockFits := haccepts.symm.trans hyes
        refine ⟨{ d with todo := rest, taken := d.taken ++ [(item, now')] },
          ?_, rfl, rfl, rfl, ?_⟩
        · exact building_next hb htodo hdb hqueue hexists hfind
            ⟨hquantity, hunit, hstockFits⟩ hworks hworks'
        · show _ = lineSum (d.with item now').items
          rw [Draft.items_with, lineSum_append, Int.mul_comm product.price]
      · intro hno e
        refine herr e _ (rolledBack_of_building hall hb hgrown hqueue
          (Or.inl (not_fits_of_line hb htodo ?_)))
        rw [haccepts.symm.trans hno, Bool.and_false]
      · intro hmay e
        refine herr e _ (rolledBack_of_building hall hb hgrown hqueue
          (Or.inr ⟨_, late_of_line hline ?_, hmay⟩))
        exact List.mem_cons_of_mem _
          (List.mem_cons_of_mem _ List.mem_cons_self)

theorem building_loop {d : Draft} {s : World × Tx}
    {E : String -> World × Tx -> Prop} (hempty : d.taken = [])
    (hall : forall line, line ∈ items -> covered start.db line = true)
    (hb : Building ok start customerId items [] d s)
    (herr : forall e s, RolledBack ok start items s.1 -> E e s) :
    Action.wp (direct ok) (d.todo.foldlM (placeItem d.products d.order) 0)
      (fun total s' => exists d' : Draft,
        Building ok start customerId items items d' s' ∧
        d'.order = d.order ∧ d'.todo = [] ∧ total = lineSum d'.items) E s := by
  refine wp_foldlM
    (fun rest total s' => exists (before : List ItemRequest) (d' : Draft),
      Building ok start customerId items before d' s' ∧
      d'.products = d.products ∧ d'.order = d.order ∧ d'.todo = rest ∧
      total = lineSum d'.items)
    ?_ ?_ d.todo 0 ⟨[], d, hb, rfl, rfl, rfl, ?_⟩
  · intro line rest total s' h
    rcases h with ⟨before, d', hb', hproducts, horder, htodo, rfl⟩
    rw [← hproducts, ← horder]
    refine wp_mono ?_ (fun _ _ he => he)
      (building_placeItem hall hb' htodo herr)
    intro total s2 h2
    rcases h2 with ⟨d2, hb2, hp2, ho2, ht2, htotal⟩
    exact ⟨_, d2, hb2, hp2, ho2, ht2, htotal⟩
  · intro total s' h
    rcases h with ⟨before, d', hb', _, horder, htodo, htotal⟩
    have hsplit := hb'.split
    rw [htodo, List.append_nil] at hsplit
    rw [← hsplit] at hb'
    exact ⟨d', hb', horder, htodo, htotal⟩
  · unfold Draft.items
    rw [hempty]
    rfl

theorem lineSum_eq_totalOf {db : Database} {all lines : List ItemRequest}
    {rows : List OrderItem} (hsub : forall line, line ∈ lines -> line ∈ all)
    (h : List.Forall₂ (Matches (readRows db all)) lines rows) :
    lineSum rows = totalOf db lines := by
  induction h with
  | nil => rfl
  | cons hmatch _ ih =>
      rename_i line row lines rows _
      have hrest := ih (fun other hother =>
        hsub other (List.mem_cons_of_mem _ hother))
      rcases hmatch with ⟨_, hquantity, _, product, hfind, hprice⟩
      rw [findProduct_readRows (List.mem_map_of_mem
        (hsub line List.mem_cons_self))] at hfind
      unfold lineSum totalOf at hrest ⊢
      rw [List.map_cons, List.map_cons, List.sum_cons, List.sum_cons, hrest,
        hquantity, hprice, priceOf_product hfind]

structure Totalled (ok : Cmd -> Env -> Prop) (start : World)
    (customerId : Int) (items : List ItemRequest) (d : Draft) (now : Nat)
    (s : World × Tx) : Prop where
  tx : s.2 = some (d.fullLog now)
  grows : Grows start.db s.1.db
  fresh : Fresh s.1.db d.order d.items
  opened : Opened start customerId d.order
  lines : List.Forall₂ (Matches (readRows start.db items)) items d.items
  queue : Scheduled ok start s.1.queue
  fits : fits start.db items = true
  works : forall c, c ∈ lateCommands start.db items -> c ≠ .commit ->
    Works (ok c)

theorem totalled_of_building {d : Draft} {w : World} {now : Nat}
    {cache : Cache}
    (hb : Building ok start customerId items items d (w, some d.log))
    (htodo : d.todo = [])
    (hfits : Database.fitsDecimal (totalOf start.db items) = true)
    (hworks : Works (ok (.update true
      (.orderTotal start.db.orders.seq (totalOf start.db items))))) :
    Totalled ok start customerId items d now
      ({ w with cache := cache }, some (d.fullLog now)) := by
  refine ⟨rfl, hb.grows, hb.fresh, hb.opened, ?_, hb.queue, ?_, ?_⟩
  · rw [← hb.rows]
    exact hb.lines
  · unfold fits
    rw [hb.fit, htodo, hfits]
    rfl
  · intro c hc hne
    rcases List.mem_append.mp hc with hc | hc
    · exact hb.works c hc
    · rcases List.mem_cons.mp hc with rfl | hc
      · exact hworks
      · exact absurd (List.mem_singleton.mp hc) hne

theorem building_total {d : Draft} {w : World}
    {E : String -> World × Tx -> Prop}
    (hall : forall line, line ∈ items -> covered start.db line = true)
    (hb : Building ok start customerId items items d (w, some d.log))
    (htodo : d.todo = []) {order : Order} (horder : order.id = d.order.id)
    (herr : forall e s, RolledBack ok start items s.1 -> E e s) :
    Action.wp (direct ok) (Order.saveTotal true order (lineSum d.items))
      (fun order' s' => order'.id = d.order.id ∧
        exists now, Totalled ok start customerId items d now s')
      E (w, some d.log) := by
  have hid : order.id = start.db.orders.seq := by
    rcases hb.opened with ⟨now, ho⟩
    rw [horder, ho]
  have hsum : lineSum d.items = totalOf start.db items := by
    have hlines := hb.lines
    rw [hb.rows] at hlines
    exact lineSum_eq_totalOf (fun _ h => h) hlines
  have hlate : Cmd.update true (.orderTotal order.id (lineSum d.items)) ∈
      lateCommands start.db items := by
    rw [hid, hsum]
    exact List.mem_append_right _ List.mem_cons_self
  unfold Order.saveTotal
  refine (wp_bind _ _ _).mpr (direct_update ?_ ?_ ?_)
  · intro now hworks hfits
    refine (wp_bind _ _ _).mpr (direct_invalidateOrderCache ?_)
    intro cache _
    refine ⟨horder, now, ?_⟩
    have hlog : d.fullLog now = d.log ++
        [.update (.orderTotal order.id (lineSum d.items)) now] := by
      unfold Draft.fullLog
      rw [horder]
    show Totalled ok start customerId items d now
      ({ w with cache := cache }, some (d.log ++
        [.update (.orderTotal order.id (lineSum d.items)) now]))
    rw [← hlog]
    rw [hid, hsum] at hworks
    refine totalled_of_building hb htodo ?_ hworks
    rw [← hsum]
    exact hfits
  · intro hno e
    refine herr e _ (rolledBack_of_building hall hb (Grows.refl _) rfl
      (Or.inl ?_))
    have hno' : Database.fitsDecimal (totalOf start.db items) = false := by
      rw [← hsum]
      exact hno
    unfold fits
    rw [hno', Bool.and_false]
  · intro hmay e
    exact herr e _ (rolledBack_of_building hall hb (Grows.refl _) rfl
      (Or.inr ⟨_, hlate, hmay⟩))

end Walk

end Checkout
end ExpressEcommerce
