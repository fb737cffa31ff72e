import ExpressEcommerce.Concurrency.Transactions
import ExpressEcommerce.Foundation.Snapshot
import ExpressEcommerce.Orders.Atomic

/-!
# Tasks on orders as check and act

A task on an order reads the order once.  What it writes later is decided by
what it has read, and becomes visible in one step: a single statement, or the
commit of its transaction.  An interleaving of such tasks is therefore a run of
the abstract model in which each task reads and then acts.
-/

namespace ExpressEcommerce
namespace Concurrency

open Foundation
open Store
open Service
open Orders

def actsOf (tasks : List OrderTask) : Snapshot.Acts Database :=
  fun i base db db' => exists t, tasks[i]? = some t ∧ Acted t base db db'

/-- Where the thread of a task stands, in the code and in the abstract model. -/
structure Standing where
  task : OrderTask
  phase : Phase
  progress : Snapshot.Progress Database

def checking (customers : Table Customer) : Protocol service Standing where
  may := fun g c => g.phase.may (g.task.intent customers) c
  next := fun g c r g' => g'.task = g.task ∧
    g.phase.next (g.task.intent customers) c r g'.phase

def Standing.Ended (customers : Table Customer) (out : Outcome)
    (g : Standing) : Prop :=
  g.phase.Ended (g.task.intent customers) out

theorem wp_checking {customers : Table Customer} {t : OrderTask}
    {phase : Phase} {p : Prog service Outcome}
    (progress : Snapshot.Progress Database)
    (h : p.wp (follow (t.intent customers))
      (fun out phase => phase.Ended (t.intent customers) out) phase) :
    p.wp (checking customers) (fun out g => g.Ended customers out)
      ⟨t, phase, progress⟩ := by
  refine Prog.wp_simulate (R := fun phase g => g.task = t ∧ g.phase = phase)
    ?_ ?_ ?_ p ⟨rfl, rfl⟩ h
  · rintro phase ⟨_, _, progress⟩ c ⟨rfl, rfl⟩ hmay
    exact hmay
  · rintro phase ⟨_, _, progress⟩ c r g' ⟨rfl, rfl⟩ ⟨htask, hnext⟩
    exact ⟨g'.phase, hnext, htask, rfl⟩
  · rintro out phase ⟨_, _, progress⟩ ⟨rfl, rfl⟩ hended
    exact hended

/-!
# The threads
-/

/-- What is known of the thread of a task. -/
inductive Stands (w : World) : Standing -> Tx -> Prop where
  | idle {t : OrderTask} : Stands w ⟨t, .idle, .waiting⟩ none
  | opened {t : OrderTask} : Stands w ⟨t, .opened, .waiting⟩ (some [])
  | ready {t : OrderTask} {base : Database} {u : Change}
      (htx : t.inTx = false) (hplan : t.plan base = [u]) :
      Stands w ⟨t, .acting [] [u], .read base⟩ none
  | holding {t : OrderTask} {base : Database} {performed todo : List Change}
      {log : List Write} (htx : t.inTx = true)
      (hplan : t.plan base = performed ++ todo)
      (hsome : performed ++ todo ≠ []) (hlogs : Logs log performed)
      (haccepts : acceptsAll w.db performed = true) :
      Stands w ⟨t, .acting performed todo, .read base⟩ (some log)
  | declined {t : OrderTask} (htx : t.inTx = true) :
      Stands w ⟨t, .acting [] [], .done⟩ (some [])
  | written {t : OrderTask} {performed : List Change} (htx : t.inTx = false) :
      Stands w ⟨t, .acting performed [], .done⟩ none
  | scheduled {t : OrderTask} {performed : List Change} :
      Stands w ⟨t, .scheduled performed, .done⟩ none
  | stopped {t : OrderTask} {isOpen : Bool} {performed : List Change} {tx : Tx}
      (hclosed : isOpen = false -> tx = none) :
      Stands w ⟨t, .stopped isOpen performed, .done⟩ tx
  | finished {t : OrderTask} {performed : List Change} :
      Stands w ⟨t, .finished performed, .done⟩ none

def Standing.held (g : Standing) : List (TableName × Int) :=
  match g.phase with
  | .acting performed _ => if g.task.inTx then performed.map Change.row else []
  | _ => []

theorem held_outside {t : OrderTask} (htx : t.inTx = false) (phase : Phase)
    (progress : Snapshot.Progress Database) :
    (Standing.mk t phase progress).held = [] := by
  unfold Standing.held
  rw [htx]
  cases phase <;> rfl

theorem held_inside {t : OrderTask} (htx : t.inTx = true)
    (performed todo : List Change) (progress : Snapshot.Progress Database) :
    (Standing.mk t (.acting performed todo) progress).held =
      performed.map Change.row := by
  unfold Standing.held
  rw [htx]
  rfl

def Apart (g h : Standing) : Prop :=
  forall row, row ∈ g.held -> row ∉ h.held

theorem Apart.symm {g h : Standing} (hapart : Apart g h) : Apart h g :=
  fun row hrow hother => hapart row hother hrow

theorem Logs.rows {log : List Write} {us : List Change} (h : Logs log us) :
    log.map Write.row = us.map Change.row := by
  induction h with
  | nil => rfl
  | cons hx _ ih =>
      rcases hx with ⟨now, rfl⟩
      rw [List.map_cons, List.map_cons, ih]
      rfl

theorem performs_of_logs {db : Database} {us : List Change} {log : List Write}
    (hplanned : forall u, u ∈ us -> isPlanned u = true)
    (haccepts : acceptsAll db us = true) (h : Logs log us) :
    Performs db us (db.writeAll log) := by
  induction h generalizing db with
  | nil => exact .nil db
  | @cons x u log rest hx _ ih =>
      rcases hx with ⟨now, rfl⟩
      unfold acceptsAll at haccepts
      rcases Bool.and_eq_true_iff.mp haccepts with ⟨hu, hrest⟩
      have hfirst := hplanned u List.mem_cons_self
      have hlater : forall v, v ∈ rest -> isPlanned v = true :=
        fun v hv => hplanned v (List.mem_cons_of_mem _ hv)
      refine .cons now hu (ih hlater ?_)
      rw [← hrest]
      exact acceptsAll_of_sameStocks hlater
        (sameStocks_update hfirst (fun _ => rfl) 0 now)

theorem locked_of_held {w : World} {g : Standing} {tx : Tx}
    {row : TableName × Int} (h : Stands w g tx) (hrow : row ∈ g.held) :
    locked tx row := by
  cases h with
  | idle | opened | scheduled | stopped | finished => cases hrow
  | ready htx _ | written htx =>
      rw [held_outside htx] at hrow
      cases hrow
  | declined htx =>
      rw [held_inside htx] at hrow
      cases hrow
  | holding htx hplan hsome hlogs haccepts =>
      rw [held_inside htx, ← hlogs.rows] at hrow
      exact ⟨_, rfl, hrow⟩

theorem Stands.frame {w w' : World} {g : Standing} {tx : Tx}
    (h : Stands w g tx)
    (hsame : forall row, row ∈ g.held -> SameRow w.db w'.db row) :
    Stands w' g tx := by
  cases h with
  | idle => exact .idle
  | opened => exact .opened
  | ready htx hplan => exact .ready htx hplan
  | declined htx => exact .declined htx
  | written htx => exact .written htx
  | scheduled => exact .scheduled
  | stopped hclosed => exact .stopped hclosed
  | finished => exact .finished
  | @holding t base performed todo log htx hplan hsome hlogs haccepts =>
      refine .holding htx hplan hsome hlogs ?_
      rw [held_inside htx] at hsame
      have hplanned : forall u, u ∈ performed -> isPlanned u = true := by
        intro u hu
        apply isPlanned_plan t base
        rw [hplan]
        exact List.mem_append_left _ hu
      rw [acceptsAll_of_sameRow hplanned hsame]
      exact haccepts

/-!
# The commands
-/

def rowOf : Cmd -> Option (TableName × Int)
  | .update _ u => some u.row
  | _ => none

section Steps

variable {customers : Table Customer} {acts : Snapshot.Acts Database}
  {i : Nat} {w : World} {tx : Tx} {s' : World × Tx} {t : OrderTask}

/-- What a command of one task does: to the task itself, in the abstract model,
and to the rows that are written by others. -/
structure Checks (acts : Snapshot.Acts Database) (i : Nat) (w : World)
    (g : Standing) (c : Cmd) (s' : World × Tx) (g' : Standing) : Prop where
  self : Stands s'.1 g' s'.2
  accounts : s'.1.db.customers = w.db.customers
  advances : Snapshot.Advances acts i w.db g.progress s'.1.db g'.progress
  rows : forall row, row ∉ g.held -> rowOf c ≠ some row ->
    SameRow w.db s'.1.db row ∧ row ∉ g'.held

def Checked (customers : Table Customer) (acts : Snapshot.Acts Database)
    (i : Nat) (w : World) (g : Standing) (c : Cmd) (r : service.Reply c)
    (s' : World × Tx) : Prop :=
  exists g', (checking customers).next g c r g' ∧ Checks acts i w g c s' g'

theorem checked_same {phase : Phase} (phase' : Phase)
    {progress progress' : Snapshot.Progress Database} {c : Cmd}
    {r : service.Reply c} (hnext : phase.next (t.intent customers) c r phase')
    (hdb : s'.1.db = w.db) (hself : Stands s'.1 ⟨t, phase', progress'⟩ s'.2)
    (hadvances : Snapshot.Advances acts i w.db progress w.db progress')
    (hheld : forall row, row ∈ (Standing.mk t phase' progress').held ->
      row ∈ (Standing.mk t phase progress).held ∨ rowOf c = some row) :
    Checked customers acts i w ⟨t, phase, progress⟩ c r s' := by
  refine ⟨⟨t, phase', progress'⟩, ⟨rfl, hnext⟩, hself, ?_, ?_, ?_⟩
  · rw [hdb]
  · rw [hdb]
    exact hadvances
  · intro row hfree hother
    rw [hdb]
    refine ⟨SameRow.refl _ _, fun hrow => ?_⟩
    rcases hheld row hrow with hold | hnew
    · exact hfree hold
    · exact hother hnew

theorem checked_free {phase : Phase} (phase' : Phase)
    {progress progress' : Snapshot.Progress Database} {c : Cmd}
    {r : service.Reply c} (hnext : phase.next (t.intent customers) c r phase')
    (hdb : s'.1.db = w.db) (hself : Stands s'.1 ⟨t, phase', progress'⟩ s'.2)
    (hadvances : Snapshot.Advances acts i w.db progress w.db progress')
    (hheld : (Standing.mk t phase' progress').held = []) :
    Checked customers acts i w ⟨t, phase, progress⟩ c r s' := by
  refine checked_same phase' hnext hdb hself hadvances (fun row hrow => ?_)
  rw [hheld] at hrow
  cases hrow

variable (hacts : forall {base db db' : Database}, Acted t base db db' ->
  acts i base db db')

include hacts

theorem advances_idle {db : Database} (hplan : t.plan db = []) :
    Snapshot.Advances acts i db .waiting db .done :=
  (Snapshot.advances_read i db).trans
    (Snapshot.advances_act (hacts (acted_of_idle hplan db)))

theorem checked_read {id : Int} {paranoid : Bool} {incl : Include}
    {r : service.Reply (.query false (.orderByPk id paranoid incl))}
    (hatomic : isAtomic t = true) (htx : t.inTx = false)
    (hcustomers : w.db.customers = customers)
    (hnext : Next Healthy (w, none) (.query false (.orderByPk id paranoid incl))
      r s') :
    Checked customers acts i w ⟨t, .idle, .waiting⟩
      (.query false (.orderByPk id paranoid incl)) r s' := by
  rcases next_query hnext with ⟨rfl, rfl | ⟨_, hfail | hrefused⟩⟩
  · have hsmall := plan_small hatomic htx w.db
    have hread : Phase.idle.next (t.intent customers)
        (.query false (.orderByPk id paranoid incl))
        (.ok (Query.eval (w.view none false) (.orderByPk id paranoid incl)))
        (.acting [] (t.plan w.db)) := ⟨w.db, hcustomers, rfl, rfl⟩
    cases hplan : t.plan w.db with
    | nil =>
        rw [hplan] at hread
        exact checked_free _ hread rfl (.written htx)
          (advances_idle hacts hplan) (held_outside htx _ _)
    | cons u rest =>
        rw [hplan, List.length_cons] at hsmall
        have hrest : rest = [] := List.length_eq_zero_iff.mp (by omega)
        subst hrest
        rw [hplan] at hread
        exact checked_free _ hread rfl (.ready htx hplan)
          (Snapshot.advances_read i w.db) (held_outside htx _ _)
  · exact absurd hfail not_mayFail_healthy
  · cases hrefused

theorem checked_read_opened {id : Int} {paranoid : Bool} {incl : Include}
    {r : service.Reply (.query true (.orderByPk id paranoid incl))}
    (htx : t.inTx = true) (hcustomers : w.db.customers = customers)
    (hnext : Next Healthy (w, some []) (.query true (.orderByPk id paranoid incl))
      r s') :
    Checked customers acts i w ⟨t, .opened, .waiting⟩
      (.query true (.orderByPk id paranoid incl)) r s' := by
  rcases next_query hnext with ⟨rfl, rfl | ⟨_, hfail | hrefused⟩⟩
  · have hread : Phase.opened.next (t.intent customers)
        (.query true (.orderByPk id paranoid incl))
        (.ok (Query.eval (w.view (some []) true)
          (.orderByPk id paranoid incl)))
        (.acting [] (t.plan w.db)) := ⟨w.db, hcustomers, rfl, rfl⟩
    by_cases hplan : t.plan w.db = []
    · rw [hplan] at hread
      exact checked_free _ hread rfl (.declined htx)
        (advances_idle hacts hplan) (held_inside htx [] _ _)
    · exact checked_free _ hread rfl (.holding htx rfl hplan .nil rfl)
        (Snapshot.advances_read i w.db) (held_inside htx [] _ _)
  · exact absurd hfail not_mayFail_healthy
  · cases hrefused

theorem checked_ready {base : Database} {u : Change}
    {r : service.Reply (.update false u)} (htx : t.inTx = false)
    (hplan : t.plan base = [u])
    (hnext : Next Healthy (w, none) (.update false u) r s') :
    Checked customers acts i w ⟨t, .acting [] [u], .read base⟩
      (.update false u) r s' := by
  rcases next_update hnext with
    ⟨now, rfl, haccepts, rfl⟩ | ⟨⟨e, rfl⟩, rfl, hfail | hrefused⟩
  · have haccepts : w.db.acceptsChange u = true := haccepts
    have hacted : Acted t base w.db (w.db.update u now) := by
      refine .performed ?_
      rw [hplan]
      exact .cons now haccepts (.nil _)
    refine ⟨⟨t, .acting [u] [], .done⟩, ⟨rfl, rfl⟩, .written htx, ?_,
      Snapshot.advances_act (hacts hacted), ?_⟩
    · exact (quiet_planned (isPlanned_plan t base u (by simp [hplan]))
        now).customers
    · intro row _ hother
      rw [held_outside htx]
      refine ⟨Database.sameRow_update w.db u now ?_, List.not_mem_nil⟩
      rintro rfl
      exact hother rfl
  · exact absurd hfail not_mayFail_healthy
  · have hrefused : w.db.acceptsChange u = false := hrefused
    have hacted : Acted t base w.db w.db := by
      refine .refused ?_
      rw [hplan]
      unfold acceptsAll
      rw [hrefused]
      rfl
    exact checked_free (.stopped false []) rfl rfl
      (.stopped (fun _ => rfl)) (Snapshot.advances_act (hacts hacted)) rfl

theorem checked_holding {base : Database} {performed todo : List Change}
    {u : Change} {log : List Write} {r : service.Reply (.update true u)}
    (htx : t.inTx = true) (hplan : t.plan base = performed ++ u :: todo)
    (hlogs : Logs log performed)
    (haccepts : acceptsAll w.db performed = true)
    (hnext : Next Healthy (w, some log) (.update true u) r s') :
    Checked customers acts i w ⟨t, .acting performed (u :: todo), .read base⟩
      (.update true u) r s' := by
  have hplanned : forall v, v ∈ performed ++ u :: todo ->
      isPlanned v = true := by
    rw [← hplan]
    exact isPlanned_plan t base
  have hperforms := performs_of_logs
    (fun v hv => hplanned v (List.mem_append_left _ hv)) haccepts hlogs
  rcases next_update hnext with
    ⟨now, rfl, hu, rfl⟩ | ⟨⟨e, rfl⟩, rfl, hfail | hrefused⟩
  · have hsplit : performed ++ u :: todo = (performed ++ [u]) ++ todo := by
      simp
    refine checked_same (.acting (performed ++ [u]) todo) rfl rfl
      (.holding htx (hplan.trans hsplit) (by simp) (hlogs.snoc now) ?_)
      (Snapshot.advances_refl i w.db _) ?_
    · refine acceptsAll_of_performs (fun v hv => hplanned v ?_) (fun _ => rfl)
        (hperforms.snoc hu now)
      rw [hsplit]
      exact List.mem_append_left _ hv
    · intro row hrow
      rw [held_inside htx, List.map_append, List.mem_append] at hrow
      rw [held_inside htx]
      rcases hrow with hold | hnew
      · exact Or.inl hold
      · rw [List.mem_singleton.mp hnew]
        exact Or.inr rfl
  · exact absurd hfail not_mayFail_healthy
  · have hacted : Acted t base w.db w.db := by
      refine .refused (not_acceptsAll_of_refused (isPlanned_plan t base) ?_)
      exact ⟨_, _, _, _, hplan, hperforms, hrefused⟩
    exact checked_free (.stopped true performed) rfl rfl
      (.stopped (fun h => by cases h)) (Snapshot.advances_act (hacts hacted))
      rfl

theorem checked_commit {base : Database} {performed : List Change}
    {log : List Write} {r : service.Reply Cmd.commit} (htx : t.inTx = true)
    (hplan : t.plan base = performed) (hlogs : Logs log performed)
    (haccepts : acceptsAll w.db performed = true)
    (hnext : Next Healthy (w, some log) .commit r s') :
    Checked customers acts i w ⟨t, .acting performed [], .read base⟩ .commit r
      s' := by
  have hplanned : forall u, u ∈ performed -> isPlanned u = true := by
    rw [← hplan]
    exact isPlanned_plan t base
  rcases next_commit hnext with ⟨rfl, rfl⟩ | ⟨_, _, hfail⟩
  · have hacted : Acted t base w.db (w.db.writeAll log) := by
      refine .performed ?_
      rw [hplan]
      exact performs_of_logs hplanned haccepts hlogs
    refine ⟨⟨t, .finished performed, .done⟩, ⟨rfl, rfl⟩, .finished, ?_,
      Snapshot.advances_act (hacts hacted), ?_⟩
    · exact (quiet_writeAll (hlogs.planned hplanned)).customers
    · intro row hfree _
      refine ⟨Database.sameRow_writeAll w.db log ?_, fun hrow => by cases hrow⟩
      rw [held_inside htx] at hfree
      rw [hlogs.rows]
      exact hfree
  · exact absurd hfail not_mayFail_healthy

theorem checked_step {phase : Phase} {progress : Snapshot.Progress Database}
    {c : Cmd} {r : service.Reply c} (hatomic : isAtomic t = true)
    (hcustomers : w.db.customers = customers)
    (h : Stands w ⟨t, phase, progress⟩ tx)
    (hmay : phase.may (t.intent customers) c)
    (hnext : Next Healthy (w, tx) c r s') :
    Checked customers acts i w ⟨t, phase, progress⟩ c r s' := by
  have hnothing : forall {phase : Phase}
      {progress progress' : Snapshot.Progress Database} {c : Cmd},
      forall row, row ∈ (Standing.mk t phase progress).held ->
        row ∈ (Standing.mk t phase progress').held ∨ rowOf c = some row :=
    fun _ hrow => Or.inl hrow
  unfold Phase.may at hmay
  split at hmay
  · cases h
    rcases next_begin hnext with ⟨rfl, rfl⟩ | ⟨_, _, hfail⟩
    · exact checked_free .opened rfl rfl .opened
        (Snapshot.advances_refl i w.db _) rfl
    · exact absurd hfail not_mayFail_healthy
  · cases h
    subst hmay
    rcases next_query hnext with ⟨rfl, rfl | ⟨_, hfail | hrefused⟩⟩
    · exact checked_same .idle ⟨rfl, w.db, hcustomers, rfl⟩ rfl
        .idle (Snapshot.advances_refl i w.db _) hnothing
    · exact absurd hfail not_mayFail_healthy
    · cases hrefused
  · cases h
    rcases hmay with ⟨rfl, htx⟩
    exact checked_read hacts hatomic htx hcustomers hnext
  · cases h
    rcases hmay with ⟨rfl, htx⟩
    exact checked_read_opened hacts htx hcustomers hnext
  · cases h
    have hrolled := next_rollback hnext
    subst hrolled
    refine checked_free (.stopped false []) ?_ rfl
      (.stopped (fun _ => rfl))
      (advances_idle hacts (hmay.right w.db hcustomers)) rfl
    cases r <;> rfl
  · rcases hmay with ⟨hinTx, rfl⟩
    have hinTx : _ = t.inTx := hinTx
    cases h with
    | ready htx hplan =>
        rw [htx] at hinTx
        subst hinTx
        exact checked_ready hacts htx hplan hnext
    | holding htx hplan _ hlogs haccepts =>
        rw [htx] at hinTx
        subst hinTx
        exact checked_holding hacts htx hplan hlogs haccepts hnext
  · have hinTx : t.inTx = true := hmay
    cases h with
    | holding htx hplan _ hlogs haccepts =>
        rw [List.append_nil] at hplan
        exact checked_commit hacts htx hplan hlogs haccepts hnext
    | written htx =>
        rw [htx] at hinTx
        cases hinTx
  · have hinTx : t.inTx = true := hmay
    have hrolled := next_rollback hnext
    subst hrolled
    cases h with
    | holding _ _ hsome _ _ => exact absurd rfl hsome
    | written htx =>
        rw [htx] at hinTx
        cases hinTx
    | declined htx =>
        cases r with
        | ok u =>
            exact checked_free (.finished []) rfl rfl .finished
              (Snapshot.advances_refl i w.db _) rfl
        | error e =>
            exact checked_free (.stopped false []) rfl rfl
              (.stopped (fun _ => rfl)) (Snapshot.advances_refl i w.db _) rfl
  · have hinTx : t.inTx = false := hmay.left
    cases h with
    | holding htx _ _ _ _ =>
        rw [htx] at hinTx
        cases hinTx
    | declined htx =>
        rw [htx] at hinTx
        cases hinTx
    | written htx =>
        rcases next_addJob hnext with ⟨rfl, rfl⟩ | ⟨_, _, hfail⟩
        · exact checked_free _ rfl rfl .scheduled
            (Snapshot.advances_refl i w.db _) rfl
        · exact absurd hfail not_mayFail_healthy
  · cases h
    have hrolled := next_rollback hnext
    subst hrolled
    refine checked_free (.stopped false []) ?_ rfl
      (.stopped (fun _ => rfl)) (Snapshot.advances_refl i w.db _) rfl
    cases r <;> rfl
  · rcases next_aside rfl hnext with ⟨hdb, _, htx⟩
    refine checked_same phase rfl hdb ?_
      (Snapshot.advances_refl i w.db _) hnothing
    rw [htx]
    refine h.frame (fun row _ => ?_)
    rw [hdb]
    exact SameRow.refl _ _
  · cases hmay

end Steps

end Concurrency
end ExpressEcommerce
