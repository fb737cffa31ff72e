import ExpressEcommerce.Concurrency.Committed
import ExpressEcommerce.Foundation.LockOrder

/-!
# Transactions that wait for each other

A transaction locks the rows of the products it updates, item by item, and keeps
the locks until it ends.  Nothing in the handlers orders the items, so two
transactions can each wait for a row that the other has locked.  They cannot if
there is a ranking of the products by which all of them go upwards.
-/

namespace ExpressEcommerce
namespace Concurrency

open Foundation
open Store
open Service
open Orders
open Runs

def wantedProduct (t : Thread service Tx Outcome) : Option Int :=
  match t.prog with
  | .call (.update _ (.productStock p _)) _ => some p
  | _ => none

def wants (pool : Tasks) (i : Nat) : Option Int :=
  pool.threads[i]?.bind wantedProduct

def holds (pool : Tasks) (i : Nat) (p : Int) : Prop :=
  exists t, pool.threads[i]? = some t ∧ locked t.here (.products, p)

/-- Some threads wait for rows of products in a cycle. -/
def Deadlocked (pool : Tasks) : Prop :=
  WaitCycle (wants pool) (holds pool)

/-- Every product has been taken before or ranks above all that have been. -/
def Climbs (rank : Int -> Int) (products : List Int) : Prop :=
  forall before p rest, products = before ++ p :: rest ->
    p ∈ before ∨ forall q, q ∈ before -> rank q < rank p

def Transaction.orderId? : Transaction -> Option Int
  | create _ _ => none
  | softDelete _ id => pgInteger? id
  | restore _ id => pgInteger? id

/-- The products of a transaction, in the order of its loop. -/
def Transaction.products (db : Database) : Transaction -> List Int
  | create _ items => items.map ItemRequest.productId
  | t => (t.orderId?.map (fun id =>
      (db.itemsOf id true).map OrderItem.productId)).getD []

/-- The transaction takes its products upwards; the order that it deletes or
restores exists. -/
structure Ranked (rank : Int -> Int) (db : Database) (t : Transaction) :
    Prop where
  climbs : Climbs rank (t.products db)
  found : forall id, t.orderId? = some id ->
    (db.orders.find? id).isSome = true

/-!
# No row is locked twice
-/

def insertsProduct : Cmd -> Bool
  | .insert _ (.product _ _ _ _) => true
  | _ => false

theorem locked_next {tx tx' : Tx} {c : Cmd} {p : Int}
    (hc : insertsProduct c = false) (hstep : TxStep tx c tx')
    (h : locked tx' (.products, p)) :
    locked tx (.products, p) ∨
      exists inTx u, c = .update inTx u ∧ u.row = (.products, p) := by
  -- a log with one more write
  have hwrote : forall x : Write,
      locked (tx.map (fun log => log ++ [x])) (.products, p) ->
        locked tx (.products, p) ∨ x.row = (.products, p) := by
    rintro x ⟨log, hlog, hrow⟩
    rcases Option.map_eq_some_iff.mp hlog with ⟨before, rfl, rfl⟩
    rw [List.map_append, List.mem_append] at hrow
    rcases hrow with hold | hnew
    · exact Or.inl ⟨before, rfl, hold⟩
    · exact Or.inr (List.mem_singleton.mp hnew).symm
  cases hstep with
  | same => exact Or.inl h
  | opened =>
      rcases h with ⟨log, hlog, hrow⟩
      cases hlog
      cases hrow
  | closed =>
      rcases h with ⟨log, hlog, _⟩
      cases hlog
  | inserted row id now =>
      rcases hwrote _ h with hold | hrow
      · exact Or.inl hold
      · cases row with
        | product => cases hc
        | customer | order | item => cases hrow
  | updated u now =>
      rcases hwrote _ h with hold | hrow
      · exact Or.inl hold
      · exact Or.inr ⟨true, u, rfl, hrow⟩

def Exclusive (pool : Tasks) : Prop :=
  forall i j p, holds pool i p -> holds pool j p -> i = j

theorem exclusive_step {ok : Env -> Prop} {pool pool' : Tasks}
    (h : Exclusive pool)
    (hinserts : forall {i : Nat} {here : Tx} {c : Cmd}
      {k : service.Reply c -> Prog service Outcome},
      pool.threads[i]? = some ⟨here, .call c k⟩ -> insertsProduct c = false)
    (hstep : Pool.Step (system ok) pool pool') : Exclusive pool' := by
  cases hstep with
  | @mk i here here' c k r s' hthread henabled hnext =>
      have hlt : i < pool.threads.length :=
        (List.getElem?_eq_some_iff.mp hthread).1
      -- the thread that moved against any other
      have hmoved : forall j p, i ≠ j -> locked here' (.products, p) ->
          ¬ holds pool j p := by
        intro j p hij hlocked hother
        rcases locked_next (hinserts hthread) (txStep_of_next hnext) hlocked with
          hold | ⟨inTx, u, rfl, hrow⟩
        · exact hij (h i j p ⟨_, hthread, hold⟩ hother)
        · rcases hother with ⟨t, ht, hlocked'⟩
          refine henabled t.here ?_ ?_
          · exact List.mem_map_of_mem
              (List.mem_eraseIdx_iff_getElem?.mpr ⟨j, hij.symm, ht⟩)
          · rw [hrow]
            exact hlocked'
      have hcases : forall j p,
          holds ⟨s', pool.threads.set i ⟨here', k r⟩⟩ j p ->
            i = j ∧ locked here' (.products, p) ∨
              i ≠ j ∧ holds pool j p := by
        rintro j p ⟨t, ht, hlocked⟩
        by_cases hij : i = j
        · subst hij
          have hself : (pool.threads.set i ⟨here', k r⟩)[i]? = some t := ht
          rw [List.getElem?_set_self hlt] at hself
          cases hself
          exact Or.inl ⟨rfl, hlocked⟩
        · have hother : (pool.threads.set i ⟨here', k r⟩)[j]? = some t := ht
          rw [List.getElem?_set_ne hij] at hother
          exact Or.inr ⟨hij, t, hother, hlocked⟩
      intro a b p ha hb
      rcases hcases a p ha with ⟨rfl, hlocka⟩ | ⟨hia, holda⟩
      · rcases hcases b p hb with ⟨rfl, _⟩ | ⟨hib, holdb⟩
        · rfl
        · exact absurd holdb (hmoved b p hib hlocka)
      · rcases hcases b p hb with ⟨rfl, hlockb⟩ | ⟨hib, holdb⟩
        · exact absurd holda (hmoved a p hia hlockb)
        · exact h a b p holda holdb

theorem insertsProduct_of_may {customers : Table Customer} {w : World}
    {g : Ghost} {tx : Tx} {c : Cmd} (h : Trading customers w g tx)
    (hmay : g.may customers c) : insertsProduct c = false := by
  cases c with
  | insert inTx row =>
      cases row with
      | product name description price stock =>
          cases g with
          | place basket stage => cases stage <;> cases hmay
          | order t phase =>
              rcases phase with _ | _ | ⟨_ | _, _ | _⟩ | _ | _ | _ <;>
                cases hmay
          | product t edit => cases h
      | customer | order | item => rfl
  | _ => rfl

theorem exclusive_of_reaches {w : World} {ts : List Transaction} {pool : Tasks}
    (h : Pool.Reaches (system AnyEnv)
      (startPool w (ts.map (fun t => t.run.task))) pool) :
    Exclusive pool := by
  induction h with
  | refl =>
      rintro i j p ⟨t, ht, log, hlog, _⟩
      have hmap : ((ts.map (fun t => t.run.task)).map (fun task =>
          (⟨none, task.code⟩ : Thread service Tx Outcome)))[i]? = some t := ht
      rw [List.getElem?_map] at hmap
      rcases Option.map_eq_some_iff.mp hmap with ⟨_, _, rfl⟩
      cases hlog
  | tail hreach hstep ih =>
      refine exclusive_step ih (fun {i here c k} hthread => ?_) hstep
      rcases (trading_of_reaches hreach).right hthread with
        ⟨g, _, _, _, htrading, hwp⟩
      exact insertsProduct_of_may htrading hwp.left

/-!
# Climbing
-/

theorem product_mem_logs_iff {log : List Write} {us : List Change} {q : Int}
    (h : Logs log us) (hplanned : forall u, u ∈ us -> isPlanned u = true) :
    (TableName.products, q) ∈ log.map Write.row <->
      q ∈ (stockMoves us).map Prod.fst := by
  induction h with
  | nil => simp [stockMoves]
  | @cons x u log us hx _ ih =>
      rcases hx with ⟨now, rfl⟩
      have hu := hplanned u List.mem_cons_self
      have hrest := ih (fun v hv => hplanned v (List.mem_cons_of_mem _ hv))
      rw [List.map_cons, List.mem_cons, hrest]
      cases u with
      | productStock id amount =>
          show (TableName.products, q) = (.products, id) ∨ _ <->
            q ∈ id :: (stockMoves us).map Prod.fst
          rw [List.mem_cons, Prod.mk.injEq, eq_self, true_and]
      | orderStatus | orderDeleted =>
          exact ⟨fun hrow => hrow.resolve_left (fun heq => by cases heq),
            Or.inr⟩
      | _ => cases hu

theorem product_mem_log_iff {d : Draft} {q : Int} :
    (TableName.products, q) ∈ d.log.map Write.row <->
      q ∈ d.items.map OrderItem.productId := by
  constructor
  · intro hrow
    have hfull : (TableName.products, q) ∈ (d.fullLog 0).map Write.row := by
      unfold Draft.fullLog
      rw [List.map_append]
      exact List.mem_append_left _ hrow
    exact Draft.product_of_log hfull
  · intro hq
    rcases List.mem_map.mp hq with ⟨item, hitem, rfl⟩
    rcases List.mem_map.mp hitem with ⟨entry, hentry, rfl⟩
    refine List.mem_map.mpr ⟨.update (.productStock entry.1.productId
      (-entry.1.quantity)) entry.2, ?_, rfl⟩
    refine List.mem_cons_of_mem _ (List.mem_flatMap.mpr ⟨entry, hentry, ?_⟩)
    exact List.mem_cons_of_mem _ List.mem_cons_self

theorem map_fst_itemMoves (sign : Int) (items : List OrderItem) :
    (itemMoves sign items).map Prod.fst = items.map OrderItem.productId := by
  unfold itemMoves
  rw [List.map_map]
  rfl

theorem products_of_matches {products : List Product}
    {lines : List ItemRequest} {items : List OrderItem}
    (h : List.Forall₂ (Matches products) lines items) :
    lines.map ItemRequest.productId = items.map OrderItem.productId := by
  induction h with
  | nil => rfl
  | cons hmatch _ ih => rw [List.map_cons, List.map_cons, ih, hmatch.left]

theorem products_of_orderId? {db : Database} {t : Transaction} {id : Int}
    (h : t.orderId? = some id) :
    t.products db = (db.itemsOf id true).map OrderItem.productId := by
  cases t with
  | create => cases h
  | softDelete token text | restore token text =>
      have hid : pgInteger? text = some id := h
      show ((pgInteger? text).map _).getD [] = _
      rw [hid]
      rfl

section Climbing

variable {rank : Int -> Int} {w : World} {tx : Tx} {p q : Int}

theorem climbs_place {basket : Basket} {stage : Stage} {amount : Int}
    {inTx : Bool}
    (hclimbs : Climbs rank (basket.items.map ItemRequest.productId))
    (hat : stage.At basket (fun _ => True) w tx)
    (hmay : stage.may basket (.update inTx (.productStock p amount)))
    (hnew : ¬ locked tx (.products, p)) (hlocked : locked tx (.products, q)) :
    rank q < rank p := by
  cases stage with
  | inserted d item =>
      rcases hat with ⟨rfl, hsound, _⟩
      have hp : p = item.productId := by
        injection hmay.right
      have htaken : forall r, locked (some (d.log ++ [.insertItem item]))
          (.products, r) <-> r ∈ d.items.map OrderItem.productId := by
        intro r
        rw [← product_mem_log_iff]
        constructor
        · rintro ⟨log, hlog, hrow⟩
          cases hlog
          rw [List.map_append, List.mem_append] at hrow
          exact hrow.resolve_right
            (fun hitem => by cases List.mem_singleton.mp hitem)
        · intro hrow
          refine ⟨_, rfl, ?_⟩
          rw [List.map_append]
          exact List.mem_append_left _ hrow
      rcases hsound.lines with ⟨before, hitems, hmatches⟩
      rw [Draft.items_with] at hmatches
      have hsplit : basket.items.map ItemRequest.productId =
          d.items.map OrderItem.productId ++ p ::
            d.todo.map ItemRequest.productId := by
        rw [hitems, List.map_append, products_of_matches hmatches,
          List.map_append, hp]
        exact List.append_assoc _ _ _
      rcases hclimbs _ _ _ hsplit with hmem | hbelow
      · exact absurd ((htaken p).mpr hmem) hnew
      · exact hbelow q ((htaken q).mp hlocked)
  | building d => cases hmay.right.right
  | _ => cases hmay

theorem climbs_order {t : OrderTask} {phase : Phase} {amount : Int}
    {inTx : Bool} {customers : Table Customer}
    (hclimbs : forall id, orderParam? t = some id ->
      Climbs rank ((w.db.itemsOf id true).map OrderItem.productId))
    (hhand : InHand w.db t phase tx)
    (hmay : phase.may (t.intent customers)
      (.update inTx (.productStock p amount)))
    (hnew : ¬ locked tx (.products, p)) (hlocked : locked tx (.products, q)) :
    rank q < rank p := by
  rcases phase with _ | _ | ⟨performed, _ | ⟨u, todo⟩⟩ | _ | _ | _
  case acting.cons =>
    have hu : Change.productStock p amount = u := by
      cases performed <;> exact hmay.right
    subst hu
    rcases hhand with ⟨hchosen, hplanned, log, rfl, hlogs⟩
    have htaken : forall r, locked (some log) (.products, r) <->
        r ∈ (stockMoves performed).map Prod.fst := by
      intro r
      rw [← product_mem_logs_iff hlogs
        (fun v hv => hplanned v (List.mem_append_left _ hv))]
      constructor
      · rintro ⟨_, hlog, hrow⟩
        cases hlog
        exact hrow
      · exact fun hrow => ⟨log, rfl, hrow⟩
    rcases hchosen with hnil | ⟨id, o, hid, _, hmoves⟩
    · cases List.append_eq_nil_iff.mp hnil |>.right
    · have hsplit : (w.db.itemsOf id true).map OrderItem.productId =
          (stockMoves performed).map Prod.fst ++ p ::
            (stockMoves todo).map Prod.fst := by
        rw [← map_fst_itemMoves (stockSign t), ← hmoves, stockMoves_append,
          List.map_append]
        rfl
      rcases hclimbs id hid _ _ _ hsplit with hmem | hbelow
      · exact absurd ((htaken p).mpr hmem) hnew
      · exact hbelow q ((htaken q).mp hlocked)
  all_goals
    first
      | cases hmay
      | cases performed <;> cases hmay

theorem climbs_trading {start : Database} {g : Ghost} {tr : Transaction}
    {amount : Int} {inTx : Bool} {customers : Table Customer}
    (hfrozen : Frozen start w.db) (hranked : Ranked rank start tr)
    (htask : g.task = tr.run) (h : Trading customers w g tx)
    (hmay : g.may customers (.update inTx (.productStock p amount)))
    (hnew : ¬ locked tx (.products, p)) (hlocked : locked tx (.products, q)) :
    rank q < rank p := by
  cases g with
  | product t edit => cases h
  | place basket stage =>
      cases tr with
      | softDelete | restore => cases htask
      | create token items =>
          cases htask
          exact climbs_place hranked.climbs h.right hmay hnew hlocked
  | order t phase =>
      have hparam : orderParam? t = tr.orderId? := by
        cases tr <;> cases htask <;> rfl
      refine climbs_order (fun id hid => ?_) h.right hmay hnew hlocked
      rw [hparam] at hid
      rcases Option.isSome_iff_exists.mp (hranked.found id hid) with ⟨o, ho⟩
      rw [itemsOf_frozen hfrozen ho, ← products_of_orderId? hid]
      exact hranked.climbs

end Climbing

/-- If every transaction takes its products upwards in one ranking, no
interleaving reaches a state in which transactions wait for each other's
products in a cycle. -/
theorem no_deadlock_of_ranked {w : World} {ts : List Transaction}
    (rank : Int -> Int) (hranked : forall t, t ∈ ts -> Ranked rank w.db t)
    {pool : Tasks}
    (h : Pool.Reaches (system AnyEnv)
      (startPool w (ts.map (fun t => t.run.task))) pool) :
    ¬ Deadlocked pool := by
  rcases trading_of_reaches h with ⟨hfrozen, htrading⟩
  refine no_waitCycle rank (exclusive_of_reaches h) ?_
  rintro i p q hwants hnew ⟨t, ht, hlocked⟩
  unfold wants at hwants
  rw [ht] at hwants
  rcases htrading ht with ⟨g, tr, htr, htask, hself, hwp⟩
  have hfree : ¬ locked t.here (.products, p) :=
    fun hl => hnew ⟨t, ht, hl⟩
  rcases t with ⟨here, prog⟩
  dsimp only [Option.bind_some, wantedProduct] at hwants
  split at hwants
  · rename_i inTx p' amount k
    cases hwants
    exact climbs_trading hfrozen (hranked tr htr) htask hself hwp.left hfree
      hlocked
  · cases hwants

/-- The test of `holds`, for evaluation. -/
def holdsB (pool : Tasks) (i : Nat) (p : Int) : Bool :=
  pool.threads[i]?.any (fun t =>
    (t.here.getD []).any (fun x => decide (x.row = (.products, p))))

theorem holds_of_holdsB {pool : Tasks} {i : Nat} {p : Int}
    (h : holdsB pool i p = true) : holds pool i p := by
  rcases (Option.any_eq_true_iff_get _ _).mp h with ⟨hsome, hlog⟩
  rcases List.any_eq_true.mp hlog with ⟨x, hx, hrow⟩
  refine ⟨_, (Option.some_get hsome).symm, ?_⟩
  generalize (pool.threads[i]?.get hsome).here = tx at hx
  cases tx with
  | none => cases hx
  | some log =>
      exact ⟨log, rfl, List.mem_map.mpr ⟨x, hx, of_decide_eq_true hrow⟩⟩

def penThenInk : Transaction :=
  .create (.valid 1) [⟨1, 1⟩, ⟨2, 1⟩]

def inkThenPen : Transaction :=
  .create (.valid 1) [⟨2, 1⟩, ⟨1, 1⟩]

/-- Both requests have taken their first product. -/
def crossed : Tasks :=
  afterTurns shop ([penThenInk, inkThenPen].map (fun t => t.run.task))
    ((List.replicate 20 [0, 1]).flatten)

theorem crossed_orders_deadlock :
    Pool.Reaches (system AnyEnv)
      (startPool shop ([penThenInk, inkThenPen].map (fun t => t.run.task)))
      crossed ∧ Deadlocked crossed := by
  have hfirst : WaitsFor (wants crossed) (holds crossed) 0 1 :=
    ⟨by decide, 2, by decide +kernel, holds_of_holdsB (by decide +kernel)⟩
  have hsecond : WaitsFor (wants crossed) (holds crossed) 1 0 :=
    ⟨by decide, 1, by decide +kernel, holds_of_holdsB (by decide +kernel)⟩
  refine ⟨?_, 0, .tail (.single hfirst) hsecond⟩
  unfold crossed
  exact reaches_afterTurns trivial _ _ _

theorem climbs_of_pairwise {rank : Int -> Int} {products : List Int}
    (h : products.Pairwise (fun p q => rank p < rank q)) :
    Climbs rank products := by
  rintro before p rest rfl
  right
  intro q hq
  exact (List.pairwise_append.mp h).right.right q hq p List.mem_cons_self

theorem same_direction_never_deadlocks :
    Climbs id (penThenInk.products shop.db) ∧
      ¬ Deadlocked (afterTurns shop
        ([penThenInk, penThenInk].map (fun t => t.run.task))
        ((List.replicate 20 [0, 1]).flatten)) := by
  have hclimbs : Climbs id (penThenInk.products shop.db) :=
    climbs_of_pairwise (by decide)
  have hranked : forall t, t ∈ [penThenInk, penThenInk] ->
      Ranked id shop.db t := by
    intro t ht
    have heq : t = penThenInk := by
      simpa using ht
    subst heq
    exact ⟨hclimbs, fun id hid => by cases hid⟩
  exact ⟨hclimbs, no_deadlock_of_ranked id hranked
    (reaches_afterTurns trivial _ _ _)⟩

end Concurrency
end ExpressEcommerce
