import ExpressEcommerce.Concurrency.Overlap
import ExpressEcommerce.Jobs.Paths

/-!
# Two tasks on one order

Two tasks on an order are serializable if every interleaving of them leaves the
order and the stocks as one of the two does that comes of running the tasks one
after the other.  The stamps of the rows depend on the clock and are not
compared.  This module reduces the question to four stores that can be computed
from the store at the start.
-/

namespace ExpressEcommerce
namespace Concurrency

open Foundation
open Store
open Service
open Orders
open Jobs

/-!
# Stores that agree up to stamps
-/

structure Alike (db db' : Database) : Prop where
  customers : db'.customers = db.customers
  items : db'.items = db.items
  orders : forall id, (db'.orders.find? id).map stripped =
    (db.orders.find? id).map stripped
  stocks : SameStocks db db'

theorem Alike.refl (db : Database) : Alike db db :=
  ⟨rfl, rfl, fun _ => rfl, fun _ => rfl⟩

theorem map_stripped_map {found found' : Option Order}
    {f f' g : Order -> Order} (hf : forall r, stripped (f r) = g (stripped r))
    (hf' : forall r, stripped (f' r) = g (stripped r))
    (h : found'.map stripped = found.map stripped) :
    (found'.map f').map stripped = (found.map f).map stripped := by
  have hsplit : forall (rows : Option Order) (k : Order -> Order),
      (forall r, stripped (k r) = g (stripped r)) ->
        (rows.map k).map stripped = (rows.map stripped).map g := by
    intro rows k hk
    cases rows with
    | none => rfl
    | some r => exact congrArg some (hk r)
  rw [hsplit _ _ hf, hsplit _ _ hf', h]

theorem alike_update {db db' : Database} {u : Change}
    (hu : isPlanned u = true) (h : Alike db db') (now now' : Nat) :
    Alike (db.update u now) (db'.update u now') := by
  refine ⟨?_, ?_, fun id => ?_, sameStocks_update hu h.stocks now now'⟩
  · rw [(quiet_planned hu now').customers, (quiet_planned hu now).customers]
    exact h.customers
  · cases u with
    | orderStatus | orderDeleted | productStock => exact h.items
    | _ => cases hu
  · have hid := h.orders id
    cases u with
    | productStock => exact hid
    | orderStatus other status =>
        rw [Database.find?_update_orderStatus,
          Database.find?_update_orderStatus]
        split
        · exact map_stripped_map (g := fun r => { r with status := status })
            (fun _ => rfl) (fun _ => rfl) hid
        · exact hid
    | orderDeleted other deleted =>
        rw [Database.find?_update_orderDeleted,
          Database.find?_update_orderDeleted]
        have hstamp : forall now r, stripped
            { r with deletedAt := stamp deleted now, updatedAt := now } =
              { stripped r with deletedAt := stamp deleted 0 } := by
          intro now r
          cases deleted <;> rfl
        split
        · exact map_stripped_map
            (g := fun r => { r with deletedAt := stamp deleted 0 })
            (hstamp now) (hstamp now') hid
        · exact hid
    | _ => cases hu

theorem alike_performs {db db' db1 db1' : Database} {us : List Change}
    (hus : forall u, u ∈ us -> isPlanned u = true) (h : Alike db db')
    (h1 : Performs db us db1) (h1' : Performs db' us db1') :
    Alike db1 db1' := by
  induction h1 generalizing db' with
  | nil db =>
      rw [performs_nil h1']
      exact h
  | cons now _ _ ih =>
      cases h1' with
      | cons now' _ hrest =>
          exact ih (fun u hu => hus u (List.mem_cons_of_mem _ hu))
            (alike_update (hus _ List.mem_cons_self) h now now') hrest

/-!
# What a task decides does not depend on stamps
-/

theorem planOn_stripped {plan : Order -> List Change}
    (h : forall o, plan (stripped o) = plan o) (found : Option Order) :
    planOn (found.map stripped) plan = planOn found plan := by
  cases found with
  | none => rfl
  | some o => exact h o

theorem order?_stripped (db : Database) (id : Int) (paranoid : Bool) :
    (db.order? id paranoid).map stripped =
      ((db.orders.find? id).map stripped).filter
        (fun r => !paranoid || r.deletedAt.isNone) := by
  unfold Database.order?
  cases db.orders.find? id with
  | none => rfl
  | some r =>
      rcases r with ⟨key, customer, total, status, created, updated, deleted⟩
      cases paranoid <;> cases deleted <;> rfl

theorem planOn_alike {db db' : Database} (h : Alike db db') {id : Int}
    {paranoid : Bool} {plan plan' : Order -> List Change}
    (hplan : forall o, plan (stripped o) = plan o)
    (hsame : plan' = plan) :
    planOn (db'.order? id paranoid) plan' =
      planOn (db.order? id paranoid) plan := by
  rw [hsame, ← planOn_stripped hplan (db'.order? id paranoid),
    ← planOn_stripped hplan (db.order? id paranoid), order?_stripped,
    order?_stripped, h.orders]

theorem planOn_param_alike {db db' : Database} (h : Alike db db')
    {text : String} {paranoid : Bool} {plan plan' : Order -> List Change}
    (hplan : forall o, plan (stripped o) = plan o)
    (hsame : plan' = plan) :
    planOn (paramOrder? db' text paranoid) plan' =
      planOn (paramOrder? db text paranoid) plan := by
  unfold paramOrder?
  cases pgInteger? text with
  | none => rfl
  | some id => exact planOn_alike h hplan hsame

theorem plan_alike {db db' : Database} (h : Alike db db') (t : OrderTask) :
    t.plan db' = t.plan db := by
  have hitems : forall id paranoid,
      db'.itemsOf id paranoid = db.itemsOf id paranoid := by
    intro id paranoid
    unfold Database.itemsOf
    rw [h.items]
  have hauth : forall {token : Token} {plan plan' : Customer -> List Change},
      (forall c, plan' c = plan c) ->
        authPlan db' token plan' = authPlan db token plan := by
    intro token plan plan' hplan
    unfold authPlan
    rw [h.customers]
    cases tokenCustomer? db.customers token with
    | none => rfl
    | some c => exact hplan c
  cases t with
  | update token text status =>
      exact hauth (fun c => planOn_param_alike h (fun _ => rfl) rfl)
  | patch token text status =>
      exact hauth (fun c => planOn_param_alike h (fun _ => rfl) rfl)
  | softDelete token text =>
      refine hauth (fun c => planOn_param_alike h (fun _ => rfl) ?_)
      funext o
      rw [hitems]
  | restore token text =>
      refine hauth (fun c => planOn_param_alike h (fun o => ?_) ?_)
      · rcases o with ⟨key, customer, total, status, created, updated, deleted⟩
        cases deleted <;> rfl
      · funext o
        rw [hitems]
  | statusJob job => exact planOn_alike h (fun _ => rfl) rfl
  | cancelJob orderId =>
      refine planOn_alike h (fun _ => rfl) ?_
      funext o
      rw [hitems]

theorem alike_acted {t : OrderTask} {base base' db db' db1 db1' : Database}
    (hbase : Alike base base') (h : Alike db db') (h1 : Acted t base db db1)
    (h1' : Acted t base' db' db1') : Alike db1 db1' := by
  have hplanned := isPlanned_plan t base
  have hplan := plan_alike hbase t
  have haccepts : acceptsAll db' (t.plan base) = acceptsAll db (t.plan base) :=
    acceptsAll_of_sameStocks hplanned h.stocks
  cases h1 with
  | performed hperforms =>
      have hyes := acceptsAll_of_performs hplanned (fun _ => rfl) hperforms
      cases h1' with
      | performed hperforms' =>
          rw [hplan] at hperforms'
          exact alike_performs hplanned h hperforms hperforms'
      | refused hrefused =>
          rw [hplan, haccepts, hyes] at hrefused
          cases hrefused
  | refused hrefused =>
      cases h1' with
      | performed hperforms' =>
          rw [hplan] at hperforms'
          have hyes := acceptsAll_of_performs hplanned (fun _ => rfl) hperforms'
          rw [haccepts, hrefused] at hyes
          cases hyes
      | refused _ => exact h

/-!
# Serial results
-/

/-- The same row of the order, up to stamps, and the same stocks. -/
structure SameResult (id : Int) (db db' : Database) : Prop where
  order : (db'.orders.find? id).map stripped =
    (db.orders.find? id).map stripped
  stock : forall p, db'.stock p = db.stock p

theorem SameResult.trans {id : Int} {db mid db' : Database}
    (h1 : SameResult id db mid) (h2 : SameResult id mid db') :
    SameResult id db db' :=
  ⟨h2.order.trans h1.order, fun p => (h2.stock p).trans (h1.stock p)⟩

theorem SameResult.symm {id : Int} {db db' : Database}
    (h : SameResult id db db') : SameResult id db' db :=
  ⟨h.order.symm, fun p => (h.stock p).symm⟩

theorem sameResult_of_alike {db db' : Database} (h : Alike db db') (id : Int) :
    SameResult id db db' := by
  refine ⟨h.orders id, fun p => ?_⟩
  unfold Database.stock
  rw [h.stocks p]

def SerialRun (w : World) (a b : OrderTask) (id : Int) (db : Database) : Prop :=
  exists w1 w2 out1 out2, Executes Healthy w a.task out1 w1 ∧
    Executes Healthy w1 b.task out2 w2 ∧ SameResult id w2.db db

/-- Every interleaving of the two tasks ends as one of the two serial runs. -/
def Serializable (w : World) (a b : OrderTask) (id : Int) : Prop :=
  forall pool, Pool.Reaches (system Healthy) (startPool w [a.task, b.task])
      pool ->
    Finished pool ->
      SerialRun w a b id pool.shared.db ∨ SerialRun w b a id pool.shared.db

/-- One task after the other, while the clock stands. -/
def serial (a b : OrderTask) (db : Database) : Database :=
  act b (act a db db) (act a db db)

/-- One task after the other, both with what they have read at the start. -/
def stale (a b : OrderTask) (db : Database) : Database :=
  act b db (act a db db)

section Results

variable {w : World} {a b : OrderTask} {id : Int}

theorem alike_serial {db mid db' : Database} (h1 : Acted a db db mid)
    (h2 : Acted b mid mid db') : Alike (serial a b db) db' := by
  have hmid := alike_acted (.refl db) (.refl db) (acted_act a db db) h1
  exact alike_acted hmid hmid (acted_act b _ _) h2

theorem alike_stale {db mid db' : Database} (h1 : Acted a db db mid)
    (h2 : Acted b db mid db') : Alike (stale a b db) db' := by
  have hmid := alike_acted (.refl db) (.refl db) (acted_act a db db) h1
  exact alike_acted (.refl db) hmid (acted_act b _ _) h2

theorem serialRun_iff (ha : isAtomic a = true) (hb : isAtomic b = true)
    {db : Database} :
    SerialRun w a b id db <-> SameResult id (serial a b w.db) db := by
  constructor
  · rintro ⟨w1, w2, out1, out2, h1, h2, hsame⟩
    exact (sameResult_of_alike (alike_serial (acted_of_executes ha h1)
      (acted_of_executes hb h2)) id).trans hsame
  · intro hsame
    have h1 := executes_perform a.task w
    have h2 := executes_perform b.task (a.task.perform w).2
    refine ⟨_, _, _, _, h1, h2, ?_⟩
    exact (sameResult_of_alike (alike_serial (acted_of_executes ha h1)
      (acted_of_executes hb h2)) id).symm.trans hsame

/-- The stale run of two tasks ends as one of their serial runs. -/
def StaleFits (id : Int) (db : Database) (a b : OrderTask) : Prop :=
  SameResult id (serial a b db) (stale a b db) ∨
    SameResult id (serial b a db) (stale a b db)

theorem staleFits_of_idle {db : Database} (hfirst : act a db db = db)
    (hsecond : act a db (act b db db) = act b db db) :
    StaleFits id db a b ∧ StaleFits id db b a := by
  have hserial : serial a b db = act b db db := by
    unfold serial
    rw [hfirst]
  have hstale : stale a b db = act b db db := by
    unfold stale
    rw [hfirst]
  have hlate : stale b a db = act b db db := hsecond
  constructor
  · left
    rw [hserial, hstale]
    exact sameResult_of_alike (.refl _) id
  · right
    rw [hserial, hlate]
    exact sameResult_of_alike (.refl _) id

theorem acted_first {base db db' : Database}
    (h : actsOf [a, b] 0 base db db') : Acted a base db db' := by
  rcases h with ⟨t, ht, hacted⟩
  cases ht
  exact hacted

theorem acted_second {base db db' : Database}
    (h : actsOf [a, b] 1 base db db') : Acted b base db db' := by
  rcases h with ⟨t, ht, hacted⟩
  cases ht
  exact hacted

theorem staleFits_of_reached (ha : isAtomic a = true) (hb : isAtomic b = true)
    {db : Database} (hserial : SerialRun w a b id db ∨ SerialRun w b a id db)
    (hstale : Alike (stale a b w.db) db) : StaleFits id w.db a b := by
  have hresult := (sameResult_of_alike hstale id).symm
  rcases hserial with hserial | hserial
  · exact Or.inl (((serialRun_iff ha hb).mp hserial).trans hresult)
  · exact Or.inr (((serialRun_iff hb ha).mp hserial).trans hresult)

theorem serialRun_of_staleFits (ha : isAtomic a = true)
    (hb : isAtomic b = true) {db : Database} (hfits : StaleFits id w.db a b)
    (hstale : Alike (stale a b w.db) db) :
    SerialRun w a b id db ∨ SerialRun w b a id db := by
  have hresult := sameResult_of_alike hstale id
  rcases hfits with hfits | hfits
  · exact Or.inl ((serialRun_iff ha hb).mpr (hfits.trans hresult))
  · exact Or.inr ((serialRun_iff hb ha).mpr (hfits.trans hresult))

theorem serializable_iff_staleFits (ha : isAtomic a = true)
    (hb : isAtomic b = true) :
    Serializable w a b id <->
      StaleFits id w.db a b ∧ StaleFits id w.db b a := by
  constructor
  · intro hserializable
    by_cases hplanA : a.plan w.db = []
    · exact staleFits_of_idle (act_of_idle hplanA _) (act_of_idle hplanA _)
    by_cases hplanB : b.plan w.db = []
    · exact (staleFits_of_idle (act_of_idle hplanB _)
        (act_of_idle hplanB _)).symm
    constructor
    · rcases stale_reached ha hb hplanA hplanB (i := 0) (j := 1) (by omega)
        with ⟨pool, hreach, hfinished, mid, h1, h2⟩
      exact staleFits_of_reached ha hb (hserializable pool hreach hfinished)
        (alike_stale (acted_first h1) (acted_second h2))
    · rcases stale_reached ha hb hplanA hplanB (i := 1) (j := 0) (by omega)
        with ⟨pool, hreach, hfinished, mid, h1, h2⟩
      exact staleFits_of_reached hb ha
        (hserializable pool hreach hfinished).symm
        (alike_stale (acted_second h1) (acted_first h2))
  · rintro ⟨hfitsA, hfitsB⟩ pool hreach hfinished
    rcases outcome_of_reaches ha hb hreach hfinished with
      ⟨mid, h1, h2⟩ | ⟨mid, h1, h2⟩ | ⟨mid, h1, h2⟩ | ⟨mid, h1, h2⟩
    · have hserial := alike_serial (acted_first h1) (acted_second h2)
      exact Or.inl ((serialRun_iff ha hb).mpr (sameResult_of_alike hserial id))
    · have hserial := alike_serial (acted_second h1) (acted_first h2)
      exact Or.inr ((serialRun_iff hb ha).mpr (sameResult_of_alike hserial id))
    · exact serialRun_of_staleFits ha hb hfitsA
        (alike_stale (acted_first h1) (acted_second h2))
    · exact (serialRun_of_staleFits hb ha hfitsB
        (alike_stale (acted_second h1) (acted_first h2))).symm

end Results

end Concurrency
end ExpressEcommerce
