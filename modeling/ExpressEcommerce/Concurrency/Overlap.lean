import ExpressEcommerce.Concurrency.CheckThenAct

/-!
# Tasks on orders side by side

Every interleaving of tasks is a run of the abstract model: two tasks that have
ended went one after the other, or both of them read the order before one of
them acted.  The second of these does happen: when both tasks find something to
do at the start, they can be run until they have read, and then act in either
order.
-/

namespace ExpressEcommerce
namespace Concurrency

open Foundation
open Store
open Service
open Orders

/-!
# Pools of tasks
-/

/-- The threads together are somewhere in a run of the abstract model. -/
structure Progressing (customers : Table Customer) (tasks : List OrderTask)
    (start : Snapshot.Config Database) (w : World)
    (ghosts : List (Standing × Tx)) : Prop where
  accounts : w.db.customers = customers
  named : ghosts.map (fun g => g.1.task) = tasks
  reached : Snapshot.Reaches (actsOf tasks) start
    ⟨w.db, ghosts.map (fun g => g.1.progress)⟩

abbrev InStep (customers : Table Customer) (tasks : List OrderTask)
    (start : Snapshot.Config Database) :
    World -> List (Standing × Tx) -> Prop :=
  Pool.Jointly (Progressing customers tasks start) Stands Apart

theorem preserves_inStep {customers : Table Customer} {tasks : List OrderTask}
    (hatomic : forall t, t ∈ tasks -> isAtomic t = true)
    (start : Snapshot.Config Database) :
    Pool.Preserves (system Healthy) (checking customers)
      (InStep customers tasks start) := by
  refine Pool.preserves_jointly Apart.symm ?_
  intro w w' ghosts i g here here' c r others hall hi hself hmay henabled hnext
  rcases g with ⟨t, phase, progress⟩
  have ht : tasks[i]? = some t := by
    rw [← hall.named, List.getElem?_map, hi]
    rfl
  have hprogress : (ghosts.map (fun g => g.1.progress))[i]? =
      some progress := by
    rw [List.getElem?_map, hi]
    rfl
  have hchecked : Checked customers (actsOf tasks) i w ⟨t, phase, progress⟩ c
      r (w', here') :=
    checked_step (fun hacted => ⟨t, ht, hacted⟩)
      (hatomic t (List.mem_of_getElem? ht)) hall.accounts hself hmay hnext
  rcases hchecked with ⟨g', hnext', hchecks⟩
  refine ⟨g', hnext', ?_, hchecks.self, ?_⟩
  · refine ⟨hchecks.accounts.trans hall.accounts, ?_, ?_⟩
    · have htask : g'.task = t := hnext'.left
      rw [Pool.map_set_same _ hi htask]
      exact hall.named
    · rw [List.map_set]
      exact hall.reached.trans (hchecks.advances _ hprogress)
  · intro h there hthere hother hapart
    have hkept : forall row, row ∈ h.held ->
        SameRow w.db w'.db row ∧ row ∉ g'.held := by
      intro row hrow
      refine hchecks.rows row (hapart.symm row hrow) ?_
      -- a row that another transaction has written is locked
      intro hwrites
      have hlocked := locked_of_held hother hrow
      cases c with
      | update inTx u =>
          cases hwrites
          exact henabled there hthere hlocked
      | _ => cases hwrites
    exact ⟨hother.frame (fun row hrow => (hkept row hrow).left),
      fun row hrow hheld => (hkept row hheld).right hrow⟩

theorem apart_start {g h : Standing} (hg : g.held = []) : Apart g h := by
  intro row hrow
  rw [hg] at hrow
  cases hrow

theorem inStep_start (w : World) (tasks : List OrderTask) :
    InStep w.db.customers tasks ⟨w.db, tasks.map (fun _ => .waiting)⟩ w
      (tasks.map (fun t => (⟨t, .idle, .waiting⟩, none))) := by
  have hghost : forall {i : Nat} {g : Standing} {here : Tx},
      (tasks.map (fun t => ((⟨t, .idle, .waiting⟩ : Standing),
        (none : Tx))))[i]? = some (g, here) ->
      exists t, g = ⟨t, .idle, .waiting⟩ ∧ here = none := by
    intro i g here hi
    rw [List.getElem?_map] at hi
    rcases Option.map_eq_some_iff.mp hi with ⟨t, _, heq⟩
    cases heq
    exact ⟨t, rfl, rfl⟩
  refine ⟨⟨rfl, ?_, ?_⟩, ?_, ?_⟩
  · rw [List.map_map]
    exact List.map_id _
  · rw [List.map_map]
    exact Relation.ReflTransGen.refl
  · intro i g here hi
    rcases hghost hi with ⟨t, rfl, rfl⟩
    exact .idle
  · intro i j g h here there _ hi _
    rcases hghost hi with ⟨t, rfl, rfl⟩
    exact apart_start rfl

theorem covered_tasks (w : World) (tasks : List OrderTask) :
    Pool.Covered (checking w.db.customers)
      (fun _ out g => g.Ended w.db.customers out)
      (startPool w (tasks.map OrderTask.task))
      (tasks.map (fun t => (⟨t, .idle, .waiting⟩, none))) := by
  have hpool : startPool w (tasks.map OrderTask.task) =
      ⟨w, tasks.map (fun t => ⟨none, t.task.code⟩)⟩ := by
    unfold startPool
    rw [List.map_map]
    rfl
  rw [hpool]
  exact Pool.covered_start
    (fun _ t _ => wp_checking .waiting (follows_plan t w.db.customers))

def isEnded (t : Thread service Tx Outcome) : Bool :=
  match t.prog with
  | .ret _ => true
  | .call _ _ => false

/-- All tasks have come to their ends. -/
def Finished (pool : Tasks) : Prop :=
  pool.threads.all isEnded = true

instance (pool : Tasks) : Decidable (Finished pool) :=
  inferInstanceAs (Decidable (_ = true))

theorem progress_of_ended {w : World} {g : Standing} {tx : Tx} {out : Outcome}
    {customers : Table Customer} (hcustomers : w.db.customers = customers)
    (h : Stands w g tx) (hended : g.Ended customers out) :
    tx = none ∧ (g.progress = .done ∨
      g.progress = .waiting ∧ g.task.plan w.db = []) := by
  cases h with
  | idle => exact ⟨rfl, Or.inr ⟨rfl, hended w.db hcustomers⟩⟩
  | opened => cases hended
  | ready htx hplan => cases hended.right.left
  | holding htx hplan hsome hlogs haccepts => cases htx.symm.trans hended.left
  | declined htx => cases htx.symm.trans hended.left
  | written htx | scheduled | finished => exact ⟨rfl, Or.inl rfl⟩
  | stopped hclosed => exact ⟨hclosed hended.left, Or.inl rfl⟩

theorem inStep_of_reaches {w : World} {tasks : List OrderTask} {pool : Tasks}
    (hatomic : forall t, t ∈ tasks -> isAtomic t = true)
    (h : Pool.Reaches (system Healthy)
      (startPool w (tasks.map OrderTask.task)) pool) :
    exists ghosts, InStep w.db.customers tasks
        ⟨w.db, tasks.map (fun _ => .waiting)⟩ pool.shared ghosts ∧
      Pool.Covered (checking w.db.customers)
        (fun _ out g => g.Ended w.db.customers out) pool ghosts :=
  Pool.reaches_covered (preserves_inStep hatomic _) (inStep_start w tasks)
    (covered_tasks w tasks) h

theorem ended_of_covered {customers : Table Customer} {tasks : List OrderTask}
    {start : Snapshot.Config Database} {pool : Tasks}
    {ghosts : List (Standing × Tx)}
    (hinv : InStep customers tasks start pool.shared ghosts)
    (hcov : Pool.Covered (checking customers)
      (fun _ out g => g.Ended customers out) pool ghosts) {i : Nat} {here : Tx}
    {out : Outcome} (hthread : pool.threads[i]? = some ⟨here, .ret out⟩) :
    exists g, ghosts[i]? = some (g, here) ∧ here = none ∧
      (g.progress = .done ∨
        g.progress = .waiting ∧ g.task.plan pool.shared.db = []) := by
  rcases hcov.follows hthread with ⟨g, hg, hended⟩
  exact ⟨g, hg, progress_of_ended hinv.all.accounts (hinv.each hg) hended⟩

theorem advances_of_finished {customers : Table Customer}
    {tasks : List OrderTask} {start : Snapshot.Config Database} {pool : Tasks}
    {ghosts : List (Standing × Tx)}
    (hinv : InStep customers tasks start pool.shared ghosts)
    (hcov : Pool.Covered (checking customers)
      (fun _ out g => g.Ended customers out) pool ghosts)
    (hfinished : Finished pool) {i : Nat} {e : Standing × Tx}
    (hi : ghosts[i]? = some e) :
    Snapshot.Advances (actsOf tasks) i pool.shared.db e.1.progress
      pool.shared.db .done := by
  have hlt : i < pool.threads.length := by
    rw [← hcov.length]
    exact (List.getElem?_eq_some_iff.mp hi).1
  have ht := List.getElem?_eq_getElem hlt
  have hend := List.all_eq_true.mp hfinished _ (List.getElem_mem hlt)
  generalize pool.threads[i] = t at ht hend
  rcases t with ⟨here, out | _⟩
  · rcases ended_of_covered hinv hcov ht with ⟨g, hg, _, hprogress⟩
    rw [hg] at hi
    cases hi
    rcases hprogress with hdone | ⟨hwaiting, hplan⟩
    · rw [hdone]
      exact Snapshot.advances_refl i _ _
    · rw [hwaiting]
      refine advances_idle (fun hacted => ⟨g.task, ?_, hacted⟩) hplan
      rw [← hinv.all.named, List.getElem?_map, hg]
      rfl
  · cases hend

theorem atomic_pair {a b : OrderTask} (ha : isAtomic a = true)
    (hb : isAtomic b = true) : forall t, t ∈ [a, b] -> isAtomic t = true := by
  intro t ht
  rcases List.mem_pair.mp ht with rfl | rfl
  · exact ha
  · exact hb

/-- Two tasks that have both ended went one after the other, or both of them
had read the order before one of them acted. -/
theorem outcome_of_reaches {w : World} {a b : OrderTask} {pool : Tasks}
    (ha : isAtomic a = true) (hb : isAtomic b = true)
    (h : Pool.Reaches (system Healthy) (startPool w [a.task, b.task]) pool)
    (hfinished : Finished pool) :
    Snapshot.Outcome (actsOf [a, b]) w.db pool.shared.db := by
  rcases inStep_of_reaches (atomic_pair ha hb) h with ⟨ghosts, hinv, hcov⟩
  have hlength : ghosts.length = 2 := by
    have hnamed := congrArg List.length hinv.all.named
    rw [List.length_map] at hnamed
    exact hnamed
  rcases List.length_eq_two.mp hlength with ⟨e, e', rfl⟩
  have hfirst := advances_of_finished hinv hcov hfinished (i := 0) rfl
  have hsecond := advances_of_finished hinv hcov hfinished (i := 1) rfl
  exact Snapshot.outcome_of_reaches
    (hinv.all.reached.trans (Snapshot.reaches_ends hfirst hsecond))

/-!
# Both tasks read first
-/

def ReadingOrder (t : OrderTask) (start : Database) (s : World × Tx) :
    Phase -> Prop
  | .idle => s.1.db = start ∧ s.2 = none
  | .opened => s.1.db = start ∧ s.2 = some []
  | .acting performed todo => performed = [] ∧ todo = t.plan start ∧
      s.1.db = start ∧ s.2 = if t.inTx then some [] else none
  | _ => False

def hasRead : Phase -> Prop
  | .acting _ _ => True
  | _ => False

theorem readingOrder_query {t : OrderTask} {w : World} {s' : World × Tx} {tx : Tx}
    {phase : Phase} {inTx : Bool} {id : Int} {paranoid : Bool} {incl : Include}
    {r : service.Reply (.query inTx (.orderByPk id paranoid incl))}
    (htx : tx = if inTx then some [] else none) (hinTx : t.inTx = inTx)
    (hnext : Next Healthy (w, tx) (.query inTx (.orderByPk id paranoid incl)) r
      s') :
    exists phase', phase.next (t.intent w.db.customers)
        (.query inTx (.orderByPk id paranoid incl)) r phase' ∧
      ReadingOrder t w.db s' phase' := by
  have hview : w.view tx inTx = w.db := by
    rw [htx]
    cases inTx <;> rfl
  rcases next_query hnext with ⟨rfl, rfl | ⟨_, hfail | hrefused⟩⟩
  · refine ⟨.acting [] (t.plan w.db), ?_, rfl, rfl, rfl, ?_⟩
    · rw [hview]
      exact ⟨w.db, rfl, rfl, rfl⟩
    · rw [hinTx]
      exact htx
  · exact absurd hfail not_mayFail_healthy
  · cases hrefused

theorem readingOrder_step {t : OrderTask} {start : Database} {s s' : World × Tx}
    {phase : Phase} {c : Cmd} {r : service.Reply c}
    (hplan : t.plan start ≠ []) (h : ReadingOrder t start s phase)
    (hearly : ¬ hasRead phase) (hmay : phase.may (t.intent start.customers) c)
    (hnext : Next Healthy s c r s') :
    exists phase', phase.next (t.intent start.customers) c r phase' ∧
      ReadingOrder t start s' phase' := by
  rcases s with ⟨w, tx⟩
  unfold Phase.may at hmay
  split at hmay
  · rcases h with ⟨hdb, htx⟩
    rcases next_begin hnext with ⟨rfl, rfl⟩ | ⟨_, _, hfail⟩
    · exact ⟨.opened, rfl, hdb, rfl⟩
    · exact absurd hfail not_mayFail_healthy
  · rcases h with ⟨hdb, htx⟩
    have hdb : w.db = start := hdb
    subst hmay hdb
    rcases next_query hnext with ⟨rfl, rfl | ⟨_, hfail | hrefused⟩⟩
    · exact ⟨.idle, ⟨rfl, w.db, rfl, rfl⟩, rfl, htx⟩
    · exact absurd hfail not_mayFail_healthy
    · cases hrefused
  · rcases h with ⟨hdb, htx⟩
    have hdb : w.db = start := hdb
    subst hdb
    rcases hmay with ⟨rfl, hinTx⟩
    exact readingOrder_query htx hinTx hnext
  · rcases h with ⟨hdb, htx⟩
    have hdb : w.db = start := hdb
    subst hdb
    rcases hmay with ⟨rfl, hinTx⟩
    exact readingOrder_query htx hinTx hnext
  · exact absurd (hmay.right start rfl) hplan
  · exact absurd trivial hearly
  · exact absurd trivial hearly
  · exact absurd trivial hearly
  · exact absurd trivial hearly
  · cases h
  · rcases next_aside rfl hnext with ⟨hdb, _, htx⟩
    refine ⟨phase, rfl, ?_⟩
    cases phase with
    | idle | opened => exact ⟨hdb.trans h.left, htx.trans h.right⟩
    | acting => exact absurd trivial hearly
    | scheduled | stopped | finished => cases h
  · cases hmay

theorem read_reached {w : World} {t : OrderTask}
    {threads : List (Thread service Tx Outcome)} {i : Nat}
    (hatomic : isAtomic t = true) (hplan : t.plan w.db ≠ [])
    (hunlocked : forall t, t ∈ threads -> Unlocked t)
    (hthread : threads[i]? = some ⟨none, t.task.code⟩) :
    exists w' here p,
      Pool.Reaches (system Healthy) ⟨w, threads⟩
        ⟨w', threads.set i ⟨here, p⟩⟩ ∧ w'.db = w.db ∧
      Unlocked ⟨here, p⟩ ∧
      (forall v : World,
        Stands v ⟨t, .acting [] (t.plan w.db), .read w.db⟩ here) ∧
      p.wp (follow (t.intent w.db.customers))
        (fun out phase => phase.Ended (t.intent w.db.customers) out)
        (.acting [] (t.plan w.db)) := by
  have hstart : ReadingOrder t w.db (w, none) .idle := ⟨rfl, rfl⟩
  rcases Pool.reaches_until (S := system Healthy) (J := ReadingOrder t w.db) hasRead
    healthy_total
    (fun hJ hearly hmay hnext => readingOrder_step hplan hJ hearly hmay hnext)
    (follows_plan t w.db.customers) hstart hthread
    (enabled_of_unlocked hunlocked i) with
    ⟨w', here, p, phase, hreach, hreading, hwp, hend⟩
  have hread : hasRead phase := by
    rcases hend with hread | ⟨out, rfl⟩
    · exact hread
    · cases phase with
      | idle => exact absurd (hwp w.db rfl) hplan
      | opened => cases hwp
      | acting => exact trivial
      | scheduled | stopped | finished => cases hreading
  cases phase with
  | idle | opened | scheduled | stopped | finished => cases hread
  | acting performed todo =>
      rcases hreading with ⟨rfl, rfl, hdb, hhere⟩
      refine ⟨w', here, p, hreach, hdb, ?_, fun v => ?_, hwp⟩
      · show here.getD [] = []
        rw [show here = _ from hhere]
        cases t.inTx <;> rfl
      · rw [show here = _ from hhere]
        cases htx : t.inTx with
        | false =>
            have hsmall := plan_small hatomic htx w.db
            rcases hlist : t.plan w.db with _ | ⟨u, _ | ⟨v, rest⟩⟩
            · exact absurd hlist hplan
            · exact .ready htx hlist
            · rw [hlist, List.length_cons, List.length_cons] at hsmall
              omega
        | true => exact .holding htx rfl hplan .nil rfl

theorem act_reached {customers : Table Customer} {tasks : List OrderTask}
    (hatomic : forall t, t ∈ tasks -> isAtomic t = true)
    {start : Snapshot.Config Database} {w : World}
    {threads : List (Thread service Tx Outcome)}
    {ghosts : List (Standing × Tx)}
    (hinv : InStep customers tasks start w ghosts)
    (hcov : Pool.Covered (checking customers)
      (fun _ out g => g.Ended customers out) ⟨w, threads⟩ ghosts)
    (hready : forall k : Nat,
      (ghosts.map (fun g => g.1.progress))[k]? ≠ some .waiting)
    {i : Nat} {g : Standing} {t : Thread service Tx Outcome} {base : Database}
    (hthread : threads[i]? = some t) (hg : ghosts[i]? = some (g, t.here))
    (hread : g.progress = .read base)
    (hfree : forall c, Enabled ((threads.eraseIdx i).map Thread.here) c) :
    exists w' out ghosts',
      Pool.Reaches (system Healthy) ⟨w, threads⟩
        ⟨w', threads.set i ⟨none, .ret out⟩⟩ ∧
      InStep customers tasks ⟨w.db, ghosts.map (fun g => g.1.progress)⟩ w'
        ghosts' ∧
      Pool.Covered (checking customers)
        (fun _ out g => g.Ended customers out)
        ⟨w', threads.set i ⟨none, .ret out⟩⟩ ghosts' ∧
      (forall j, i ≠ j -> ghosts'[j]? = ghosts[j]?) ∧
      actsOf tasks i base w.db w'.db := by
  -- the run starts again from where the threads are now
  have hagain : InStep customers tasks
      ⟨w.db, ghosts.map (fun g => g.1.progress)⟩ w ghosts :=
    ⟨⟨hinv.all.accounts, hinv.all.named, Relation.ReflTransGen.refl⟩,
      hinv.each, hinv.two⟩
  rcases Pool.reaches_end (preserves_inStep hatomic _) healthy_total hagain
    hcov hthread hfree with
    ⟨w', tx, out, ghosts', hreach, hinv', hcov', hsame⟩
  have hlt : i < threads.length := (List.getElem?_eq_some_iff.mp hthread).1
  rcases ended_of_covered hinv' hcov' (List.getElem?_set_self hlt) with
    ⟨g', hg', rfl, hprogress⟩
  refine ⟨w', out, ghosts', hreach, hinv', hcov', hsame, ?_⟩
  have hi' : (ghosts'.map (fun g => g.1.progress))[i]? = some g'.progress := by
    rw [List.getElem?_map, hg']
    rfl
  have hdone : g'.progress = .done := by
    rcases hprogress with hdone | ⟨hwaiting, _⟩
    · exact hdone
    · rw [hwaiting] at hi'
      exact absurd hi' (Snapshot.not_waiting_of_reaches hinv'.all.reached
        (hready i))
  have hset : ghosts'.map (fun g => g.1.progress) =
      (ghosts.map (fun g => g.1.progress)).set i .done := by
    apply List.ext_getElem?
    intro k
    by_cases hik : i = k
    · subst hik
      rw [hi', hdone, List.getElem?_set_self]
      rw [List.length_map]
      exact (List.getElem?_eq_some_iff.mp hg).1
    · rw [List.getElem?_set_ne hik, List.getElem?_map, List.getElem?_map,
        hsame k hik]
  refine Snapshot.acts_of_reaches hinv'.all.reached hready ?_ hset
  rw [List.getElem?_map, hg, ← hread]
  rfl

section Pairs

variable {w : World} {a b : OrderTask}

def readStanding (db : Database) (t : OrderTask) : Standing :=
  ⟨t, .acting [] (t.plan db), .read db⟩

theorem held_readStanding (db : Database) (t : OrderTask) :
    (readStanding db t).held = [] := by
  unfold readStanding
  cases htx : t.inTx with
  | false => exact held_outside htx _ _
  | true => exact held_inside htx [] _ _

theorem both_read (ha : isAtomic a = true) (hb : isAtomic b = true)
    (hplanA : a.plan w.db ≠ []) (hplanB : b.plan w.db ≠ []) :
    exists w' ta tb,
      Pool.Reaches (system Healthy) (startPool w [a.task, b.task])
        ⟨w', [ta, tb]⟩ ∧ w'.db = w.db ∧ Unlocked ta ∧ Unlocked tb ∧
      InStep w.db.customers [a, b] ⟨w.db, [.read w.db, .read w.db]⟩ w'
        [(readStanding w.db a, ta.here), (readStanding w.db b, tb.here)] ∧
      Pool.Covered (checking w.db.customers)
        (fun _ out g => g.Ended w.db.customers out) ⟨w', [ta, tb]⟩
        [(readStanding w.db a, ta.here), (readStanding w.db b, tb.here)] := by
  have hstart : forall t, t ∈ (startPool w [a.task, b.task]).threads ->
      Unlocked t := by
    intro t ht
    rcases List.mem_map.mp ht with ⟨task, _, rfl⟩
    rfl
  rcases read_reached (i := 0) ha hplanA hstart rfl with
    ⟨w1, hereA, pA, hreachA, hdbA, hfreeA, hstandsA, hwpA⟩
  have hplanB1 : b.plan w1.db ≠ [] := by
    rw [hdbA]
    exact hplanB
  rcases read_reached (w := w1) (i := 1) hb hplanB1
    (unlocked_set (i := 0) hstart hfreeA) rfl with
    ⟨w2, hereB, pB, hreachB, hdbB, hfreeB, hstandsB, hwpB⟩
  rw [hdbA] at hstandsB hwpB hdbB
  refine ⟨w2, ⟨hereA, pA⟩, ⟨hereB, pB⟩, hreachA.trans hreachB, hdbB, hfreeA,
    hfreeB, ⟨⟨?_, rfl, ?_⟩, ?_, ?_⟩, rfl, ?_⟩
  · rw [hdbB]
  · rw [hdbB]
    exact Relation.ReflTransGen.refl
  · intro i g here hi
    rcases i with _ | _ | i
    · cases hi
      exact hstandsA w2
    · cases hi
      exact hstandsB w2
    · cases hi
  · intro i j g h here there _ hi _
    rcases i with _ | _ | i
    · cases hi
      exact apart_start (held_readStanding w.db a)
    · cases hi
      exact apart_start (held_readStanding w.db b)
    · cases hi
  · intro i t ht
    rcases i with _ | _ | i
    · cases ht
      exact ⟨_, rfl, wp_checking _ hwpA⟩
    · cases ht
      exact ⟨_, rfl, wp_checking _ hwpB⟩
    · cases ht

/-- Both tasks act on what they have read at the start, in either order. -/
theorem stale_reached (ha : isAtomic a = true) (hb : isAtomic b = true)
    (hplanA : a.plan w.db ≠ []) (hplanB : b.plan w.db ≠ []) {i j : Nat}
    (hij : i = 0 ∧ j = 1 ∨ i = 1 ∧ j = 0) :
    exists pool, Pool.Reaches (system Healthy)
        (startPool w [a.task, b.task]) pool ∧ Finished pool ∧
      Snapshot.Stale (actsOf [a, b]) i j w.db pool.shared.db := by
  have hatomic := atomic_pair ha hb
  rcases both_read ha hb hplanA hplanB with
    ⟨w1, ta, tb, hreach, hdb, hfreeA, hfreeB, hinv, hcov⟩
  have hunlocked : forall t, t ∈ [ta, tb] -> Unlocked t := by
    intro t ht
    rcases List.mem_pair.mp ht with rfl | rfl
    · exact hfreeA
    · exact hfreeB
  have hat : forall {k : Nat}, k = 0 ∨ k = 1 -> exists t g,
      [ta, tb][k]? = some t ∧
        [(readStanding w.db a, ta.here), (readStanding w.db b, tb.here)][k]? =
          some (g, t.here) ∧ g.progress = .read w.db := by
    rintro k (rfl | rfl)
    · exact ⟨ta, _, rfl, rfl, rfl⟩
    · exact ⟨tb, _, rfl, rfl, rfl⟩
  have hready : forall k : Nat,
      ([(readStanding w.db a, ta.here), (readStanding w.db b, tb.here)].map
        (fun g => g.1.progress))[k]? ≠ some .waiting := by
    intro k hk
    rcases k with _ | _ | k
    · cases hk
    · cases hk
    · cases hk
  have hne : i ≠ j := by omega
  rcases hat (k := i) (by omega) with ⟨ti, gi, hti, hgi, hreadi⟩
  rcases hat (k := j) (by omega) with ⟨tj, gj, htj, hgj, hreadj⟩
  rcases act_reached hatomic hinv hcov hready hti hgi hreadi
    (enabled_of_unlocked hunlocked i) with
    ⟨w2, out, ghosts, hreach2, hinv2, hcov2, hsame, hacts⟩
  have hunlocked2 := unlocked_set (i := i) (t := ⟨none, .ret out⟩) hunlocked rfl
  have hready2 : forall k : Nat,
      (ghosts.map (fun g => g.1.progress))[k]? ≠ some .waiting :=
    fun k => Snapshot.not_waiting_of_reaches hinv2.all.reached (hready k)
  rw [← List.getElem?_set_ne hne] at htj
  rw [← hsame j hne] at hgj
  rcases act_reached hatomic hinv2 hcov2 hready2 htj hgj hreadj
    (enabled_of_unlocked hunlocked2 j) with
    ⟨w3, out', ghosts', hreach3, _, _, _, hacts'⟩
  rw [hdb] at hacts
  refine ⟨_, hreach.trans (hreach2.trans hreach3), ?_, w2.db, hacts, hacts'⟩
  rcases hij with ⟨rfl, rfl⟩ | ⟨rfl, rfl⟩
  · rfl
  · rfl

end Pairs

end Concurrency
end ExpressEcommerce
