import ExpressEcommerce.Concurrency.Threads
import ExpressEcommerce.Stock.NonNegative
import Mathlib.Algebra.BigOperators.Group.List.Basic
import Mathlib.Algebra.Order.BigOperators.Group.List

/-!
# Demand and stock

The check of `createOrder` compares each line with product rows that were read
before, without a lock.  Requests that run side by side can therefore all pass
against the same stock.  What they may take together is bounded by the demand:
the quantities of all requests that the store at the start admits.
-/

namespace ExpressEcommerce
namespace Concurrency

open Foundation
open Store
open Service
open Orders
open Products
open Runs
open Stock

structure OrderRequest where
  token : Token
  items : List ItemRequest
  deriving DecidableEq, Repr

def OrderRequest.task (r : OrderRequest) : Task :=
  .request (.createOrder r.token r.items)

def OrderRequest.basket (customers : Table Customer) (r : OrderRequest) :
    Basket :=
  ⟨customers, r.token, r.items⟩

def orderValue (rows : List Product) (items : List ItemRequest) : Int :=
  (items.map (fun line =>
    match findProduct rows line.productId with
    | none => 0
    | some product => line.quantity * product.price)).sum

def admitted (db : Database) (token : Token) (items : List ItemRequest) :
    Bool :=
  (tokenCustomer? db.customers token).isSome &&
    items.all (fun line =>
      (findProduct (readRows db items) line.productId).any
        (fun product => decide (line.quantity <= product.stock))) &&
    Database.fitsDecimal (orderValue (readRows db items) items)

/-- The quantity of a product in all admitted requests. -/
def demand (db : Database) (reqs : List OrderRequest) (p : Int) : Int :=
  (reqs.map (fun r =>
    if admitted db r.token r.items then requested r.items p else 0)).sum

/-- Every value of the store fits its column. -/
def InRange (db : Database) : Prop :=
  forall p r, db.products.find? p = some r ->
    Database.fitsInteger r.stock = true ∧ Database.fitsDecimal r.price = true

/-- Positive quantities of distinct products. -/
structure WellFormed (items : List ItemRequest) : Prop where
  positive : forall line, line ∈ items -> 0 < line.quantity
  distinct : (items.map ItemRequest.productId).Nodup

/-!
# Product rows
-/

theorem findProduct_readRows {db : Database} {items : List ItemRequest}
    {id : Int} {r : Product} :
    findProduct (readRows db items) id = some r <->
      id ∈ items.map ItemRequest.productId ∧
        db.products.find? id = some r ∧ r.deletedAt = none := by
  have hmem : forall x, x ∈ readRows db items <->
      x ∈ db.products.rows ∧ x.deletedAt = none ∧
        x.id ∈ items.map ItemRequest.productId := by
    intro x
    unfold readRows Query.eval Database.liveProducts
    simp only [List.mem_filter, decide_eq_true_eq, Option.isNone_iff_eq_none]
    exact and_assoc
  constructor
  · intro h
    have hid : r.id = id := findProduct_id h
    rcases (hmem r).mp (List.mem_of_find?_eq_some h) with ⟨hrow, hlive, hin⟩
    rw [← hid]
    exact ⟨hin, Table.find?_eq_some_iff.mpr ⟨hrow, rfl⟩, hlive⟩
  · rintro ⟨hin, hfind, hlive⟩
    rcases Table.find?_eq_some_iff.mp hfind with ⟨hrow, hid⟩
    have hid : r.id = id := hid
    have hr : r ∈ readRows db items :=
      (hmem r).mpr ⟨hrow, hlive, by rw [hid]; exact hin⟩
    cases hfound : findProduct (readRows db items) id with
    | none =>
        have hnot := List.find?_eq_none.mp hfound r hr
        simp [hid] at hnot
    | some r' =>
        rcases (hmem r').mp (List.mem_of_find?_eq_some hfound) with
          ⟨hrow', _, _⟩
        have hid' : r'.id = id := findProduct_id hfound
        have hfind' : db.products.find? id = some r' :=
          Table.find?_eq_some_iff.mpr ⟨hrow', hid'⟩
        rw [hfind] at hfind'
        exact hfind'.symm

theorem stock_of_find? {db : Database} {p : Int} {r : Product}
    (h : db.products.find? p = some r) : db.stock p = r.stock := by
  unfold Database.stock
  rw [h]
  rfl

/-- Rows that were read later: the same offers, with no more in stock. -/
def Seen (db : Database) (rows : List Product) : Prop :=
  forall id r, findProduct rows id = some r ->
    exists r0, db.products.find? id = some r0 ∧ r0.deletedAt = none ∧
      r.price = r0.price ∧ r.stock <= r0.stock

/-- The store differs from an earlier one by sales only. -/
structure SoldFrom (start db : Database) : Prop where
  customers : db.customers = start.customers
  offers : forall p, (db.products.find? p).map offer =
    (start.products.find? p).map offer
  less : forall p, db.stock p <= start.stock p

theorem seen_readRows {start db : Database} (h : SoldFrom start db)
    (items : List ItemRequest) : Seen start (readRows db items) := by
  intro id r hr
  rcases findProduct_readRows.mp hr with ⟨_, hfind, hlive⟩
  have hoffer := h.offers id
  rw [hfind, Option.map_some] at hoffer
  rcases Option.map_eq_some_iff.mp hoffer.symm with ⟨r0, hfind0, heq⟩
  have hprice : r0.price = r.price := congrArg Prod.fst heq
  have hdeleted : r0.deletedAt = r.deletedAt := congrArg Prod.snd heq
  refine ⟨r0, hfind0, hdeleted.trans hlive, hprice.symm, ?_⟩
  rw [← stock_of_find? hfind, ← stock_of_find? hfind0]
  exact h.less id

/-!
# Committed requests are admitted
-/

theorem lineSum_eq_orderValue {rows : List Product}
    {lines : List ItemRequest} {items : List OrderItem}
    (h : List.Forall₂ (Matches rows) lines items) :
    lineSum items = orderValue rows lines := by
  unfold lineSum orderValue
  induction h with
  | nil => rfl
  | cons hmatch _ ih =>
      rcases hmatch with ⟨_, hquantity, _, product, hproduct, hprice⟩
      rw [List.map_cons, List.map_cons, List.sum_cons, List.sum_cons, ih,
        hproduct, hquantity, hprice]

theorem orderValue_congr {rows rows' : List Product}
    {items : List ItemRequest}
    (h : forall line, line ∈ items ->
      (findProduct rows line.productId).map Product.price =
        (findProduct rows' line.productId).map Product.price) :
    orderValue rows items = orderValue rows' items := by
  unfold orderValue
  apply congrArg List.sum
  apply List.map_congr_left
  intro line hline
  have hprice := h line hline
  generalize findProduct rows line.productId = found at hprice ⊢
  generalize findProduct rows' line.productId = found' at hprice ⊢
  cases found with
  | none =>
      cases found' with
      | none => rfl
      | some _ => cases hprice
  | some product =>
      cases found' with
      | none => cases hprice
      | some product' =>
          exact congrArg (fun price => line.quantity * price)
            (Option.some.inj hprice)

theorem lines_of_complete {basket : Basket} {P : List Product -> Prop}
    {d : Draft} (hcomplete : d.Complete) (hsound : d.Sound basket P) :
    List.Forall₂ (Matches d.products) basket.items d.items := by
  rcases hsound.lines with ⟨before, hbefore, hmatches⟩
  rw [hcomplete.todo, List.append_nil] at hbefore
  rw [hbefore]
  exact hmatches

theorem admitted_of_committed {start : Database} {basket : Basket} {d : Draft}
    (hcustomers : basket.customers = start.customers)
    (hcomplete : d.Complete) (hsound : d.Sound basket (Seen start)) :
    admitted start basket.token basket.items = true := by
  have hfound : forall line, line ∈ basket.items ->
      exists r r0, findProduct d.products line.productId = some r ∧
        findProduct (readRows start basket.items) line.productId = some r0 ∧
        line.quantity <= r.stock ∧ r.price = r0.price ∧
        r.stock <= r0.stock := by
    intro line hline
    rcases hsound.passes line hline with ⟨r, hr, hle⟩
    rcases hsound.seen _ r hr with ⟨r0, hr0, hlive, hprice, hstock⟩
    exact ⟨r, r0, hr, findProduct_readRows.mpr
      ⟨List.mem_map_of_mem hline, hr0, hlive⟩, hle, hprice, hstock⟩
  have hvalue : orderValue (readRows start basket.items) basket.items =
      lineSum d.items := by
    rw [lineSum_eq_orderValue (lines_of_complete hcomplete hsound)]
    apply orderValue_congr
    intro line hline
    rcases hfound line hline with ⟨r, r0, hr, hr0, _, hprice, _⟩
    rw [hr, hr0, Option.map_some, Option.map_some, hprice]
  unfold admitted
  rw [hvalue, hcomplete.fits, Bool.and_true, Bool.and_eq_true]
  constructor
  · rcases hsound.owner with ⟨c, hc, _⟩
    rw [← hcustomers, hc]
    rfl
  · rw [List.all_eq_true]
    intro line hline
    rcases hfound line hline with ⟨r, r0, _, hr0, hle, _, hstock⟩
    rw [hr0, Option.any_some, decide_eq_true_eq]
    exact hle.trans hstock

/-!
# The invariant
-/

def placing : Protocol service (Basket × Stage) where
  may := fun g c => g.2.may g.1 c
  next := fun g c r g' => g'.1 = g.1 ∧ g.2.next g.1 c r g'.2

def taken (p : Int) (g : Basket × Stage) : Int :=
  match g.2 with
  | .committed _ _ => requested g.1.items p
  | _ => 0

theorem requested_nonneg {items : List ItemRequest}
    (h : forall line, line ∈ items -> 0 < line.quantity) (p : Int) :
    0 <= requested items p := by
  unfold requested
  apply List.sum_nonneg
  intro x hx
  rcases List.mem_map.mp hx with ⟨line, hline, rfl⟩
  split
  · exact (h line hline).le
  · exact le_refl _

theorem stock_passage {ok : Env -> Prop} {basket : Basket}
    {P : List Product -> Prop} {w w' : World} {stage stage' : Stage} {tx : Tx}
    (hat : stage.At basket P w tx) (h : Passage ok w w' stage stage')
    (p : Int) :
    w'.db.stock p + taken p (basket, stage') =
      w.db.stock p + taken p (basket, stage) := by
  have hkeep : forall {db : Database}, w'.db = db ->
      db.products = w.db.products ->
      taken p (basket, stage') = taken p (basket, stage) ->
      w'.db.stock p + taken p (basket, stage') =
        w.db.stock p + taken p (basket, stage) := by
    rintro db rfl hproducts htaken
    rw [stock_congr hproducts, htaken]
  cases h with
  | stay hdb _ => exact hkeep hdb rfl rfl
  | first hdb _ => exact hkeep hdb rfl rfl
  | again hdb _ => exact hkeep hdb rfl rfl
  | newOrder hdb _ _ _ => exact hkeep hdb rfl rfl
  | newItem _ hdb _ _ => exact hkeep hdb rfl rfl
  | quiet hdb _ hstage =>
      refine hkeep rfl hdb.products ?_
      cases hstage with
      | fail hopen _ => cases stage <;> first | rfl | cases hopen
      | start hearly hearly' =>
          cases stage <;> cases hearly <;> cases stage' <;> cases hearly' <;>
            rfl
      | take _ _ _ => rfl
      | total _ _ => rfl
  | @commit d now hfresh hdb _ =>
      rcases hat with ⟨_, hcomplete, hsound, _⟩
      rw [hdb, (placed_of_fresh hfresh).stock p,
        quantityOf_eq_requested (lines_of_complete hcomplete hsound)]
      show _ + requested basket.items p = _ + 0
      omega

theorem offers_passage {ok : Env -> Prop} {w w' : World}
    {stage stage' : Stage} (h : Passage ok w w' stage stage') :
    w'.db.customers = w.db.customers ∧
      forall p, (w'.db.products.find? p).map offer =
        (w.db.products.find? p).map offer := by
  cases h with
  | stay hdb _ | first hdb _ | again hdb _ =>
      rw [hdb]
      exact ⟨rfl, fun _ => rfl⟩
  | newOrder hdb _ _ _ | newItem _ hdb _ _ =>
      rw [hdb]
      exact ⟨rfl, fun _ => rfl⟩
  | quiet hdb _ _ =>
      refine ⟨hdb.customers, fun p => ?_⟩
      rw [hdb.products]
  | commit hfresh hdb _ =>
      rw [hdb]
      exact ⟨(placed_of_fresh hfresh).customers,
        (placed_of_fresh hfresh).product⟩

structure Sold (start : Database) (baskets : List Basket) (w : World)
    (ghosts : List ((Basket × Stage) × Tx)) : Prop where
  customers : w.db.customers = start.customers
  offers : forall p, (w.db.products.find? p).map offer =
    (start.products.find? p).map offer
  baskets : ghosts.map (fun e => e.1.1) = baskets
  stock : forall p, w.db.stock p =
    start.stock p - (ghosts.map (fun e => taken p e.1)).sum

def Placing (start : Database) (w : World) (g : Basket × Stage) (tx : Tx) :
    Prop :=
  g.1.customers = start.customers ∧ g.2.At g.1 (Seen start) w tx

def PlacingApart (g h : Basket × Stage) : Prop :=
  KeysApart (pending? g.2) (pending? h.2)

section Invariant

variable {start : Database} {baskets : List Basket} {w w' : World}
  {ghosts : List ((Basket × Stage) × Tx)}

theorem taken_nonneg
    (hpositive : forall b, b ∈ baskets -> forall line, line ∈ b.items ->
      0 < line.quantity)
    (h : Sold start baskets w ghosts) (p : Int) :
    0 <= (ghosts.map (fun e => taken p e.1)).sum := by
  apply List.sum_nonneg
  intro x hx
  rcases List.mem_map.mp hx with ⟨e, he, rfl⟩
  have hmem : e.1.1 ∈ baskets := by
    rw [← h.baskets]
    exact List.mem_map_of_mem he
  unfold taken
  split
  · exact requested_nonneg (hpositive _ hmem) p
  · exact le_refl _

theorem soldFrom_of_sold
    (hpositive : forall b, b ∈ baskets -> forall line, line ∈ b.items ->
      0 < line.quantity)
    (h : Sold start baskets w ghosts) : SoldFrom start w.db := by
  refine ⟨h.customers, h.offers, fun p => ?_⟩
  have hnonneg := taken_nonneg hpositive h p
  rw [h.stock p]
  omega

theorem sold_passage {ok : Env -> Prop} {i : Nat} {basket : Basket}
    {stage stage' : Stage} {tx tx' : Tx} (h : Sold start baskets w ghosts)
    (hi : ghosts[i]? = some ((basket, stage), tx))
    (hat : stage.At basket (Seen start) w tx)
    (hpassage : Passage ok w w' stage stage') :
    Sold start baskets w' (ghosts.set i ((basket, stage'), tx')) := by
  rcases offers_passage hpassage with ⟨hcustomers, hoffers⟩
  refine ⟨hcustomers.trans h.customers,
    fun p => (hoffers p).trans (h.offers p), ?_, fun p => ?_⟩
  · refine (Pool.map_set_same _ hi ?_).trans h.baskets
    rfl
  · have hstock := stock_passage hat hpassage p
    rw [h.stock p] at hstock
    rw [Pool.sum_map_set _ hi]
    dsimp only
    omega

end Invariant

theorem preserves_sold (ok : Env -> Prop) {start : Database}
    {baskets : List Basket}
    (hpositive : forall b, b ∈ baskets -> forall line, line ∈ b.items ->
      0 < line.quantity) :
    Pool.Preserves (system ok) placing
      (Pool.Jointly (Sold start baskets) (Placing start) PlacingApart) := by
  refine Pool.preserves_jointly KeysApart.symm ?_
  rintro w w' ghosts i ⟨basket, stage⟩ tx tx' c r _ hsold hi
    ⟨hcustomers, hat⟩ hmay _ hnext
  have hfrom := soldFrom_of_sold hpositive hsold
  rcases reached_step (hsold.customers.trans hcustomers.symm)
    (fun _ => seen_readRows hfrom basket.items) hat hmay hnext with
    ⟨stage', hnext', hat', hpassage⟩
  refine ⟨(basket, stage'), ⟨rfl, hnext'⟩,
    sold_passage hsold hi hat hpassage, ⟨hcustomers, hat'⟩, ?_⟩
  rintro ⟨basket2, stage2⟩ there _ ⟨hcustomers2, hother⟩ hapart
  exact ⟨⟨hcustomers2, at_passage hother hapart hpassage⟩,
    keysApart_passage hother hapart hpassage⟩

theorem follows_placing (basket : Basket) :
    (Task.request (.createOrder basket.token basket.items)).code.wp placing
      (fun _ _ => True) (basket, .idle) := by
  refine Prog.wp_embed (fun stage => (basket, stage)) (fun _ _ h => h) ?_
    (fun _ _ _ => trivial) _ (follows_place basket)
  rintro stage c r ⟨basket', stage'⟩ ⟨rfl, hnext⟩
  exact ⟨stage', rfl, hnext⟩

def startGhosts (customers : Table Customer) (reqs : List OrderRequest) :
    List ((Basket × Stage) × Tx) :=
  reqs.map (fun r => ((r.basket customers, .idle), none))

theorem covered_placing (w : World) (reqs : List OrderRequest) :
    Pool.Covered placing (fun _ _ _ => True)
      (startPool w (reqs.map OrderRequest.task))
      (startGhosts w.db.customers reqs) := by
  have hpool : startPool w (reqs.map OrderRequest.task) =
      ⟨w, reqs.map (fun r => ⟨none, r.task.code⟩)⟩ := by
    unfold startPool
    rw [List.map_map]
    rfl
  rw [hpool]
  exact Pool.covered_start
    (fun _ r _ => follows_placing (r.basket w.db.customers))

theorem sold_start (w : World) (reqs : List OrderRequest) :
    Pool.Jointly
      (Sold w.db (reqs.map (OrderRequest.basket w.db.customers)))
      (Placing w.db) PlacingApart w (startGhosts w.db.customers reqs) := by
  have hghost : forall {i : Nat} {g : Basket × Stage} {tx : Tx},
      (startGhosts w.db.customers reqs)[i]? = some (g, tx) ->
        tx = none ∧ exists r : OrderRequest,
          g = (r.basket w.db.customers, .idle) := by
    intro i g tx hi
    unfold startGhosts at hi
    rw [List.getElem?_map] at hi
    rcases Option.map_eq_some_iff.mp hi with ⟨r, _, heq⟩
    cases heq
    exact ⟨rfl, r, rfl⟩
  refine ⟨⟨rfl, fun _ => rfl, ?_, fun p => ?_⟩, ?_, ?_⟩
  · unfold startGhosts
    rw [List.map_map]
    rfl
  · have hzero : ((startGhosts w.db.customers reqs).map
        (fun e => taken p e.1)).sum = 0 := by
      apply List.sum_eq_zero
      intro x hx
      unfold startGhosts at hx
      rw [List.map_map] at hx
      rcases List.mem_map.mp hx with ⟨r, _, rfl⟩
      rfl
    rw [hzero, Int.sub_zero]
  · intro i g tx hi
    rcases hghost hi with ⟨rfl, r, rfl⟩
    exact ⟨rfl, rfl⟩
  · intro i j g h tx tx' _ hi _
    rcases hghost hi with ⟨_, r, rfl⟩
    exact keysApart_none _

theorem taken_le {start : Database} {w : World} {g : Basket × Stage} {tx : Tx}
    (h : Placing start w g tx)
    (hpositive : forall line, line ∈ g.1.items -> 0 < line.quantity)
    (p : Int) :
    taken p g <=
      if admitted start g.1.token g.1.items then requested g.1.items p
      else 0 := by
  rcases g with ⟨basket, stage⟩
  rcases h with ⟨hcustomers, hat⟩
  cases stage with
  | committed d now =>
      rw [if_pos (admitted_of_committed hcustomers hat.right.left
        hat.right.right)]
      exact le_refl _
  | idle | opened | read | created | building | inserted | totalled
  | failed =>
      show (0 : Int) <= _
      split
      · exact requested_nonneg hpositive p
      · exact le_refl _

/-- In every reachable state the stock has lost no more than the demand. -/
theorem stock_ge_of_reaches {ok : Env -> Prop} {w : World}
    {reqs : List OrderRequest}
    (hpositive : forall r, r ∈ reqs -> forall line, line ∈ r.items ->
      0 < line.quantity)
    {pool : Tasks}
    (h : Pool.Reaches (system ok) (startPool w (reqs.map OrderRequest.task))
      pool) (p : Int) :
    w.db.stock p - demand w.db reqs p <= pool.shared.db.stock p := by
  let baskets := reqs.map (OrderRequest.basket w.db.customers)
  have hbaskets : forall b, b ∈ baskets -> forall line, line ∈ b.items ->
      0 < line.quantity := by
    intro b hb
    rcases List.mem_map.mp hb with ⟨r, hr, rfl⟩
    exact hpositive r hr
  rcases Pool.reaches_covered (preserves_sold ok hbaskets) (sold_start w reqs)
    (covered_placing w reqs) h with ⟨ghosts, hinv, _⟩
  have hbound : forall e, e ∈ ghosts -> taken p e.1 <=
      if admitted w.db e.1.1.token e.1.1.items then requested e.1.1.items p
      else 0 := by
    intro e he
    rcases List.mem_iff_getElem?.mp he with ⟨i, hi⟩
    have hmem : e.1.1 ∈ baskets := by
      rw [← hinv.all.baskets]
      exact List.mem_map_of_mem (f := fun e => e.1.1) he
    exact taken_le (hinv.each hi) (hbaskets _ hmem) p
  have hsum : (ghosts.map (fun e => taken p e.1)).sum <=
      demand w.db reqs p := by
    refine le_trans (List.sum_le_sum hbound) (le_of_eq ?_)
    have hmap : ghosts.map (fun e =>
        if admitted w.db e.1.1.token e.1.1.items then requested e.1.1.items p
        else 0) = (ghosts.map (fun e => e.1.1)).map (fun b : Basket =>
          if admitted w.db b.token b.items then requested b.items p else 0) := by
      rw [List.map_map]
      rfl
    rw [hmap, hinv.all.baskets, List.map_map]
    rfl
  rw [hinv.all.stock p]
  omega

end Concurrency
end ExpressEcommerce
