import ExpressEcommerce.Concurrency.Transactions
import ExpressEcommerce.Foundation.Marking

/-!
# No update of a stock is lost

Stocks are only written by relative updates, inside of transactions.  In every
state that an interleaving of transactions reaches, the stock of a product is
the stock at the start, without the quantities of the committed creations, with
those of the committed deletions, and without those of the committed
restorations.  A transaction that has been rolled back has left nothing behind.
-/

namespace ExpressEcommerce
namespace Concurrency

open Foundation
open Store
open Service
open Orders
open Runs
open Stock

/-- The reply to a `COMMIT` that went through. -/
def commits : (c : Cmd) -> service.Reply c -> Bool
  | .commit, .ok _ => true
  | _, _ => false

/-- Threads are marked once their transaction is committed. -/
def recording (ok : Env -> Prop) : System service World (Tx × Bool) :=
  (system ok).marking commits

abbrev RecordedPool : Type := Pool service World (Tx × Bool) Outcome

def recordedStart (w : World) (ts : List Transaction) : RecordedPool where
  shared := w
  threads := ts.map (fun t => ⟨(none, false), t.run.task.code⟩)

def Transaction.adds (db : Database) (p : Int) : Transaction -> Int
  | create _ items => -requested items p
  | softDelete _ id =>
      ((pgInteger? id).map (fun n => quantityOf (db.itemsOf n true) p)).getD 0
  | restore _ id =>
      -((pgInteger? id).map (fun n => quantityOf (db.itemsOf n true) p)).getD 0

/-- The sum over all transactions that have been committed. -/
def committedSum (p : Int) (ts : List Transaction) (pool : RecordedPool) : Int :=
  ((ts.zip (pool.threads.map Thread.here)).map (fun e =>
    if e.2.2 then e.1.adds pool.shared.db p else 0)).sum

/-!
# Marks and stages
-/

def Ghost.done : Ghost -> Bool
  | place _ stage => stage.isCommitted
  | order _ (.finished (_ :: _)) => true
  | _ => false

theorem stage_done {basket : Basket} {stage stage' : Stage} {c : Cmd}
    {r : service.Reply c} (hmay : stage.may basket c)
    (hnext : stage.next basket c r stage') :
    stage'.isCommitted = (stage.isCommitted || commits c r) := by
  unfold Stage.may at hmay
  split at hmay <;> cases r
  -- a failed command, or one that goes to a fixed stage
  all_goals try
    cases hnext
    first | rfl | exact (Bool.or_false _).symm
  · rcases hnext with ⟨rfl, _⟩
    rfl
  · rcases hnext with ⟨_, _, rfl⟩
    rfl
  · rcases hnext with ⟨_, _, rfl⟩
    rfl
  · rcases hnext with ⟨_, _, rfl⟩ | ⟨_, _, _, rfl⟩ <;> rfl
  · rcases hnext with ⟨_, rfl⟩
    rfl
  · rcases hnext with ⟨_, _, rfl⟩ | ⟨_, _, _, rfl⟩ <;> rfl
  · rcases hnext with ⟨_, _, _, rfl⟩
    rfl
  · cases hmay
  · cases hmay

theorem phase_done {t : OrderTask} {customers : Table Customer}
    {phase phase' : Phase} {c : Cmd} {r : service.Reply c}
    (hmay : phase.may (t.intent customers) c)
    (hnext : phase.next (t.intent customers) c r phase') :
    (Ghost.order t phase').done =
      ((Ghost.order t phase).done || commits c r) := by
  unfold Phase.may at hmay
  split at hmay <;> cases r
  all_goals try
    cases hnext
    first | rfl | exact (Bool.or_false _).symm
  · rcases hnext with ⟨rfl, _⟩
    rfl
  · rcases hnext with ⟨_, _, _, rfl⟩
    rfl
  · rcases hnext with ⟨_, _, _, rfl⟩
    rfl
  · cases hmay
  · cases hmay

def Ghost.task : Ghost -> RunTask
  | place basket _ => .place basket.token basket.items
  | order t _ => .order t
  | product t _ => .product t

theorem task_startGhost (customers : Table Customer) (t : RunTask) :
    (startGhost customers t).task = t := by
  cases t <;> rfl

theorem ghost_next {customers : Table Customer} {w : World} {g g' : Ghost}
    {tx : Tx} {c : Cmd} {r : service.Reply c} (h : Trading customers w g tx)
    (hmay : g.may customers c) (hnext : g.next customers c r g') :
    g'.task = g.task ∧ g'.done = (g.done || commits c r) := by
  cases g with
  | place basket stage =>
      rcases hnext with ⟨stage', rfl, hstage⟩
      exact ⟨rfl, stage_done hmay hstage⟩
  | order t phase =>
      rcases hnext with ⟨phase', rfl, hphase⟩
      exact ⟨rfl, phase_done hmay hphase⟩
  | product t edit => cases h

theorem moved_of_trading {customers : Table Customer} {w : World} {g : Ghost}
    {tx : Tx} {t : Transaction} (htask : g.task = t.run)
    (h : Trading customers w g tx) (p : Int) :
    g.moved p = if g.done then t.adds w.db p else 0 := by
  cases g with
  | product edit => cases h
  | place basket stage =>
      cases t with
      | softDelete | restore => cases htask
      | create token items =>
          cases htask
          cases stage <;> rfl
  | order task phase =>
      rcases h with ⟨_, hhand⟩
      have hadds : forall us, Chosen task w.db us ->
          movedBy us p = t.adds w.db p := by
        intro us hchosen
        rcases hchosen.moved p with ⟨id, hid, hmoved⟩
        rw [hmoved]
        cases t with
        | create => cases htask
        | softDelete token text =>
            cases htask
            have hid : pgInteger? text = some id := hid
            show 1 * _ = ((pgInteger? text).map _).getD 0
            rw [hid, Int.one_mul]
            rfl
        | restore token text =>
            cases htask
            have hid : pgInteger? text = some id := hid
            show -1 * _ = -((pgInteger? text).map _).getD 0
            rw [hid, Int.neg_mul, Int.one_mul]
            rfl
      rcases phase with _ | _ | _ | _ | _ | (_ | ⟨u, us⟩)
      · rfl
      · rfl
      · rfl
      · rfl
      · rfl
      · rfl
      · rcases hhand.right with hnil | hchosen
        · cases hnil
        · exact hadds _ hchosen

/-!
# The invariant
-/

/-- The stock is what it was, with what the threads have added. -/
structure Balanced (start : Database) (ts : List Transaction) (w : World)
    (ghosts : List (Ghost × (Tx × Bool))) : Prop where
  customers : w.db.customers = start.customers
  frozen : Frozen start w.db
  tasks : ghosts.map (fun e => e.1.task) = ts.map Transaction.run
  stock : forall p, w.db.stock p =
    start.stock p + (ghosts.map (fun e => e.1.moved p)).sum

def Marked (customers : Table Customer) (w : World) (g : Ghost)
    (here : Tx × Bool) : Prop :=
  Trading customers w g here.1 ∧ here.2 = g.done

theorem preserves_balanced (ok : Env -> Prop) (start : Database)
    (ts : List Transaction) :
    Pool.Preserves (recording ok) (mixed start.customers)
      (Pool.Jointly (Balanced start ts) (Marked start.customers)
        GhostsApart) := by
  refine Pool.preserves_jointly KeysApart.symm ?_
  rintro w w' ghosts i g ⟨tx, mark⟩ ⟨tx', mark'⟩ c r others hbalanced hi
    ⟨htrading, hmark⟩ hmay _ ⟨hnext, hmark'⟩
  rcases trades_step hbalanced.customers htrading hmay hnext with
    ⟨g', hnext', htrades⟩
  rcases ghost_next htrading hmay hnext' with ⟨htask, hdone⟩
  refine ⟨g', hnext', ⟨htrades.accounts.trans hbalanced.customers,
    hbalanced.frozen.trans htrades.frozen, ?_, fun p => ?_⟩,
    ⟨htrades.self, ?_⟩, ?_⟩
  · refine (Pool.map_set_same _ hi ?_).trans hbalanced.tasks
    exact htask
  · have hstock : w'.db.stock p + _ = w.db.stock p + _ := htrades.stock p
    rw [hbalanced.stock p] at hstock
    rw [Pool.sum_map_set _ hi]
    dsimp only
    omega
  · have hmark : mark = g.done := hmark
    rw [hdone, ← hmark]
    exact hmark'
  · rintro h ⟨there, mark2⟩ _ ⟨hother, hmark2⟩ hapart
    rcases htrades.others h there hother hapart with ⟨hother', hapart'⟩
    exact ⟨⟨hother', hmark2⟩, hapart'⟩

theorem balanced_start (w : World) (ts : List Transaction) :
    Pool.Jointly (Balanced w.db ts) (Marked w.db.customers) GhostsApart w
      (ts.map (fun t => (startGhost w.db.customers t.run, (none, false)))) := by
  have hghost : forall {i : Nat} {g : Ghost} {here : Tx × Bool},
      (ts.map (fun t => (startGhost w.db.customers t.run,
        ((none : Tx), false))))[i]? = some (g, here) ->
        here = (none, false) ∧
          exists t : Transaction, g = startGhost w.db.customers t.run := by
    intro i g here hi
    rw [List.getElem?_map] at hi
    rcases Option.map_eq_some_iff.mp hi with ⟨t, _, heq⟩
    cases heq
    exact ⟨rfl, t, rfl⟩
  refine ⟨⟨rfl, Frozen.refl _, ?_, fun p => ?_⟩, ?_, ?_⟩
  · rw [List.map_map]
    exact List.map_congr_left (fun t _ => task_startGhost _ t.run)
  · rw [List.map_map, List.sum_eq_zero, Int.add_zero]
    intro x hx
    rcases List.mem_map.mp hx with ⟨t, _, rfl⟩
    cases t <;> rfl
  · intro i g here hi
    rcases hghost hi with ⟨rfl, t, rfl⟩
    refine ⟨trading_start w t, ?_⟩
    cases t <;> rfl
  · intro i j g h here there _ hi _
    rcases hghost hi with ⟨_, t, rfl⟩
    unfold GhostsApart
    rw [pending?_startGhost]
    exact keysApart_none _

theorem sum_moved {db : Database} {p : Int} {ts : List Transaction}
    {ghosts : List (Ghost × (Tx × Bool))}
    (htasks : ghosts.map (fun e => e.1.task) = ts.map Transaction.run)
    (heach : forall e t, e ∈ ghosts -> e.1.task = Transaction.run t ->
      e.1.moved p = if e.2.2 then t.adds db p else 0) :
    (ghosts.map (fun e => e.1.moved p)).sum =
      ((ts.zip (ghosts.map Prod.snd)).map (fun e =>
        if e.2.2 then e.1.adds db p else 0)).sum := by
  induction ghosts generalizing ts with
  | nil => simp
  | cons e rest ih =>
      cases ts with
      | nil => cases htasks
      | cons t ts =>
          rw [List.map_cons, List.map_cons] at htasks
          injection htasks with hhead htail
          rw [List.map_cons, List.map_cons, List.zip_cons_cons, List.map_cons,
            List.sum_cons, List.sum_cons,
            ih htail (fun e t he => heach e t (List.mem_cons_of_mem _ he)),
            heach e t List.mem_cons_self hhead]

/-- In every state that an interleaving of transactions reaches, commands
failing or not, the stock of every product is the stock at the start with what
the committed transactions have added. -/
theorem stock_is_start_with_committed {w : World} {ts : List Transaction}
    {pool : RecordedPool}
    (h : Pool.Reaches (recording AnyEnv) (recordedStart w ts) pool)
    (p : Int) :
    pool.shared.db.stock p = w.db.stock p + committedSum p ts pool := by
  rcases Pool.reaches_covered (preserves_balanced AnyEnv w.db ts)
    (balanced_start w ts) (covered_transactions w ts (none, false)) h with
    ⟨ghosts, hinv, hcovered⟩
  rw [hinv.all.stock p]
  unfold committedSum
  rw [← Pool.map_here_of_covered hcovered]
  refine congrArg _ (sum_moved hinv.all.tasks (fun e t he htask => ?_))
  rcases List.mem_iff_getElem?.mp he with ⟨i, hi⟩
  rcases hinv.each hi with ⟨htrading, hmark⟩
  rw [moved_of_trading htask htrading p, hmark]

/-- Nothing is lost by looking at recorded runs. -/
theorem recorded_of_reaches {w : World} {ts : List Transaction} {pool : Tasks}
    (h : Pool.Reaches (system AnyEnv)
      (startPool w (ts.map (fun t => t.run.task))) pool) :
    exists recorded, Pool.Reaches (recording AnyEnv) (recordedStart w ts)
      recorded ∧ recorded.unmark = pool := by
  have hstart : (recordedStart w ts).unmark =
      startPool w (ts.map (fun t => t.run.task)) := by
    unfold recordedStart Pool.unmark startPool
    rw [List.map_map, List.map_map]
    rfl
  rw [← hstart] at h
  exact Pool.reaches_marking commits h

theorem trading_of_reaches {w : World} {ts : List Transaction} {pool : Tasks}
    (h : Pool.Reaches (system AnyEnv)
      (startPool w (ts.map (fun t => t.run.task))) pool) :
    Frozen w.db pool.shared.db ∧
      forall {i : Nat} {t : Thread service Tx Outcome},
        pool.threads[i]? = some t ->
        exists g tr, tr ∈ ts ∧ g.task = Transaction.run tr ∧
          Trading w.db.customers pool.shared g t.here ∧
          t.prog.wp (mixed w.db.customers) (fun _ _ => True) g := by
  rcases recorded_of_reaches h with ⟨recorded, hrecorded, rfl⟩
  rcases Pool.reaches_covered (preserves_balanced AnyEnv w.db ts)
    (balanced_start w ts) (covered_transactions w ts (none, false)) hrecorded
    with ⟨ghosts, hinv, hcovered⟩
  refine ⟨hinv.all.frozen, fun {i t} ht => ?_⟩
  have hmap : (recorded.threads.map (fun t =>
      (⟨t.here.1, t.prog⟩ : Thread service Tx Outcome)))[i]? = some t := ht
  rw [List.getElem?_map] at hmap
  rcases Option.map_eq_some_iff.mp hmap with ⟨marked, hmarked, rfl⟩
  rcases hcovered.follows hmarked with ⟨g, hg, hwp⟩
  have htask : g.task ∈ ts.map Transaction.run := by
    rw [← hinv.all.tasks]
    exact List.mem_map_of_mem (List.mem_of_getElem? hg)
  rcases List.mem_map.mp htask with ⟨tr, htr, heq⟩
  exact ⟨g, tr, htr, heq.symm, (hinv.each hg).left, hwp⟩

def recordedTurns (w : World) (ts : List Transaction) (turns : List Nat) :
    RecordedPool :=
  (recordedStart w ts).schedule (markingExec (exec {}) commits)
    (fun others => free (others.map Prod.fst)) turns

theorem reaches_recordedTurns (w : World) (ts : List Transaction)
    (turns : List Nat) :
    Pool.Reaches (recording AnyEnv) (recordedStart w ts)
      (recordedTurns w ts turns) :=
  Pool.reaches_schedule (S := recording AnyEnv)
    (next_markingExec (fun _ _ => ⟨{}, trivial, rfl⟩))
    (fun _ _ h => enabled_of_free h) _ turns

def orderAndDelete : List Transaction :=
  [.create (.valid 1) [⟨1, 3⟩], .softDelete (.valid 1) "1"]

def orderedAndDeleted : RecordedPool :=
  recordedTurns shopWithOrder orderAndDelete
    ((List.replicate 20 [0, 1]).flatten)

theorem pens_after_order_and_deletion :
    orderedAndDeleted.shared.db.stock 1 = 8 + -1 := by
  have hsum : committedSum 1 orderAndDelete orderedAndDeleted = -1 := by
    decide +kernel
  have hstart : shopWithOrder.db.stock 1 = 8 := by decide +kernel
  have hreach : Pool.Reaches (recording AnyEnv)
      (recordedStart shopWithOrder orderAndDelete) orderedAndDeleted := by
    unfold orderedAndDeleted
    exact reaches_recordedTurns _ _ _
  have hstock := stock_is_start_with_committed hreach 1
  rw [hsum, hstart] at hstock
  exact hstock

end Concurrency
end ExpressEcommerce
