import ExpressEcommerce.Orders.Conformance

/-!
# The effect of a task that runs alone

A task that is not interleaved with others performs its plan on the store it
started in: all of it, or nothing of it, or, for a processor that throws, a
first part of it.
-/

namespace ExpressEcommerce
namespace Orders

open Foundation
open Store
open Service

/-- A list of statements, each accepted by the store it reaches. -/
inductive Performs : Database -> List Change -> Database -> Prop where
  | nil (db : Database) : Performs db [] db
  | cons {db db' : Database} {u : Change} {us : List Change} (now : Nat) :
      db.acceptsChange u = true -> Performs (db.update u now) us db' ->
      Performs db (u :: us) db'

theorem Performs.snoc {db mid : Database} {us : List Change} {u : Change}
    (h : Performs db us mid) (hu : mid.acceptsChange u = true) (now : Nat) :
    Performs db (us ++ [u]) (mid.update u now) := by
  induction h with
  | nil db => exact .cons now hu (.nil _)
  | cons stamp hfirst _ ih => exact .cons stamp hfirst (ih hu)

theorem Performs.trans {db mid db' : Database} {us more : List Change}
    (h : Performs db us mid) (hmore : Performs mid more db') :
    Performs db (us ++ more) db' := by
  induction h with
  | nil db => exact hmore
  | cons now hu _ ih => exact .cons now hu (ih hmore)

def Refused (db : Database) (us : List Change) : Prop :=
  exists (before : List Change) (u : Change) (after : List Change)
    (mid : Database), us = before ++ u :: after ∧ Performs db before mid ∧
      mid.acceptsChange u = false

/-- Why a task may stop before it has performed its plan. -/
def Blocked (ok : Env -> Prop) (db : Database) (plan : List Change) : Prop :=
  plan = [] ∨ MayFail ok ∨ Refused db plan

/-!
# The simulation
-/

/-- The statements performed so far, as the task itself sees them. -/
structure Held (intent : Intent) (start : Database) (w : World) (tx : Tx)
    (performed : List Change) : Prop where
  performs : Performs start performed (w.view tx intent.inTx)
  isSome : tx.isSome = intent.inTx
  apart : intent.inTx = true -> w.db = start

/-- The state of a task in the world, for each phase. -/
def Tracks (ok : Env -> Prop) (intent : Intent) (start : World) :
    World × Tx -> Phase -> Prop
  | (w, tx), .idle => w.db = start.db ∧ w.queue = start.queue ∧ tx = none
  | (w, tx), .opened => w.db = start.db ∧ w.queue = start.queue ∧ tx = some []
  | (w, tx), .acting performed todo =>
      w.queue = start.queue ∧ intent.plan start.db = performed ++ todo ∧
        Held intent start.db w tx performed
  | (w, tx), .scheduled performed =>
      tx = none ∧ intent.plan start.db = performed ∧
        Performs start.db performed w.db ∧
        exists job, intent.job performed = some job ∧
          w.queue = start.queue.add job
  | (w, tx), .stopped isOpen performed =>
      w.queue = start.queue ∧
        Blocked ok start.db (intent.plan start.db) ∧
        (exists todo, intent.plan start.db = performed ++ todo) ∧
        tx.isSome = isOpen ∧
        (isOpen = false -> Performs start.db performed w.db) ∧
        (intent.inTx = true -> w.db = start.db)
  | (w, tx), .finished performed =>
      w.queue = start.queue ∧ tx = none ∧ intent.inTx = true ∧
        intent.plan start.db = performed ∧
        Performs start.db performed w.db

theorem record_spec {w w' : World} {tx tx' : Tx} {inTx : Bool} {x : Write}
    (hsome : tx.isSome = inTx) (h : w.record tx inTx x = (w', tx')) :
    w'.view tx' inTx = (w.view tx inTx).write x ∧ w'.queue = w.queue ∧
      tx'.isSome = inTx ∧ (inTx = true -> w'.db = w.db) := by
  cases inTx with
  | false =>
      cases h
      exact ⟨rfl, rfl, hsome, fun hfalse => by cases hfalse⟩
  | true =>
      rcases Option.isSome_iff_exists.mp hsome with ⟨log, rfl⟩
      cases h
      exact ⟨Database.writeAll_snoc _ _ _, rfl, rfl, fun _ => rfl⟩

section Steps

variable {ok : Env -> Prop} {intent : Intent} {start : World}
  {s' : World × Tx} {w : World} {tx : Tx}

theorem tracks_order {phase : Phase} {inTx : Bool} {id : Int}
    {paranoid : Bool} {incl : Include}
    {r : service.Reply (.query inTx (.orderByPk id paranoid incl))}
    (hcustomers : start.db.customers = intent.customers)
    (hdb : w.db = start.db) (hqueue : w.queue = start.queue)
    (htx : tx = if inTx then some [] else none) (hinTx : inTx = intent.inTx)
    (hnext : Next ok (w, tx) (.query inTx (.orderByPk id paranoid incl)) r
      s') :
    exists phase',
      phase.next intent (.query inTx (.orderByPk id paranoid incl)) r
        phase' ∧ Tracks ok intent start s' phase' := by
  have hview : w.view tx inTx = start.db := by
    rw [htx, ← hdb]
    cases inTx <;> rfl
  have hsome : tx.isSome = inTx := by
    rw [htx]
    cases inTx <;> rfl
  rcases next_query hnext with ⟨rfl, rfl | ⟨⟨e, rfl⟩, hfail⟩⟩
  · refine ⟨.acting [] (intent.plan start.db), ?_, hqueue, rfl, ?_, ?_, ?_⟩
    · rw [hview]
      exact ⟨start.db, hcustomers, rfl, rfl⟩
    · rw [← hinTx, hview]
      exact .nil _
    · rw [← hinTx]
      exact hsome
    · exact fun _ => hdb
  · refine ⟨.stopped inTx [], rfl, hqueue, ?_, ⟨_, rfl⟩, hsome, ?_,
      fun _ => hdb⟩
    · rcases hfail with hfail | hfail
      · exact Or.inr (Or.inl hfail)
      · cases hfail
    · intro _
      rw [hdb]
      exact .nil _

theorem tracks_update {performed todo : List Change} {u : Change}
    {inTx : Bool} {r : service.Reply (.update inTx u)}
    (hinTx : inTx = intent.inTx)
    (h : Tracks ok intent start (w, tx) (.acting performed (u :: todo)))
    (hnext : Next ok (w, tx) (.update inTx u) r s') :
    exists phase',
      (Phase.acting performed (u :: todo)).next intent (.update inTx u) r
        phase' ∧ Tracks ok intent start s' phase' := by
  subst hinTx
  rcases h with ⟨hqueue, hplan, hheld⟩
  rcases s' with ⟨w', tx'⟩
  rcases next_update hnext with ⟨now, rfl, hacc, hrec⟩ | ⟨⟨e, rfl⟩, hsame, hfail⟩
  · rcases record_spec hheld.isSome hrec.symm with
      ⟨hview, hqueue', hsome, hapart⟩
    refine ⟨.acting (performed ++ [u]) todo, rfl, hqueue'.trans hqueue, ?_,
      ?_, hsome, fun htx => (hapart htx).trans (hheld.apart htx)⟩
    · rw [hplan, List.append_assoc]
      rfl
    · rw [hview]
      exact hheld.performs.snoc hacc now
  · cases hsame
    refine ⟨.stopped intent.inTx performed, rfl, hqueue, ?_, ⟨_, hplan⟩,
      hheld.isSome, ?_, hheld.apart⟩
    · rcases hfail with hfail | hfail
      · exact Or.inr (Or.inl hfail)
      · exact Or.inr (Or.inr ⟨_, _, _, _, hplan, hheld.performs, hfail⟩)
    · intro hclosed
      have := hheld.performs
      rw [hclosed] at this
      exact this

theorem tracks_commit {performed : List Change}
    {r : service.Reply Cmd.commit} (hinTx : intent.inTx = true)
    (h : Tracks ok intent start (w, tx) (.acting performed []))
    (hnext : Next ok (w, tx) .commit r s') :
    exists phase', (Phase.acting performed []).next intent .commit r phase' ∧
      Tracks ok intent start s' phase' := by
  rcases h with ⟨hqueue, hplan, hheld⟩
  have hsome := hheld.isSome
  rw [hinTx] at hsome
  rcases Option.isSome_iff_exists.mp hsome with ⟨log, rfl⟩
  have hperforms := hheld.performs
  rw [hinTx] at hperforms
  rcases next_commit hnext with ⟨rfl, rfl⟩ | ⟨⟨e, rfl⟩, rfl, hfail⟩
  · exact ⟨.finished performed, rfl, hqueue, rfl, hinTx,
      by rw [hplan, List.append_nil], hperforms⟩
  · refine ⟨.stopped false [], rfl, hqueue, Or.inr (Or.inl hfail),
      ⟨_, rfl⟩, rfl, ?_, hheld.apart⟩
    intro _
    rw [hheld.apart hinTx]
    exact .nil _

theorem tracks_addJob {performed : List Change} {job : Job}
    {r : service.Reply (.addJob job)} (hinTx : intent.inTx = false)
    (hjob : intent.job performed = some job)
    (h : Tracks ok intent start (w, tx) (.acting performed []))
    (hnext : Next ok (w, tx) (.addJob job) r s') :
    exists phase',
      (Phase.acting performed []).next intent (.addJob job) r phase' ∧
        Tracks ok intent start s' phase' := by
  rcases h with ⟨hqueue, hplan, hheld⟩
  have hnone : tx = none := by
    have hsome := hheld.isSome
    rw [hinTx] at hsome
    exact Option.isSome_eq_false_iff.mp hsome |> Option.isNone_iff_eq_none.mp
  have hperforms := hheld.performs
  rw [hinTx] at hperforms
  rcases next_addJob hnext with ⟨rfl, rfl⟩ | ⟨⟨e, rfl⟩, rfl, hfail⟩
  · refine ⟨.scheduled performed, rfl, hnone, ?_, hperforms, job, hjob, ?_⟩
    · rw [hplan, List.append_nil]
    · rw [← hqueue]
  · refine ⟨.stopped false performed, rfl, hqueue, Or.inr (Or.inl hfail),
      ⟨_, hplan⟩, ?_, fun _ => hperforms, hheld.apart⟩
    rw [hnone]
    rfl

theorem tracks_rollback {r : service.Reply Cmd.rollback}
    (hdb : w.db = start.db) (hqueue : w.queue = start.queue)
    (hblocked : Blocked ok start.db (intent.plan start.db))
    (hnext : Next ok (w, tx) .rollback r s') :
    Tracks ok intent start s' (.stopped false []) := by
  rw [next_rollback hnext]
  refine ⟨hqueue, hblocked, ⟨_, rfl⟩, rfl, ?_, fun _ => hdb⟩
  intro _
  rw [hdb]
  exact .nil _

theorem tracks_congr {phase : Phase} {w' : World}
    (h : Tracks ok intent start (w, tx) phase) (hdb : w'.db = w.db)
    (hqueue : w'.queue = w.queue) :
    Tracks ok intent start (w', tx) phase := by
  have hview : w'.view tx intent.inTx = w.view tx intent.inTx := by
    unfold World.view
    rw [hdb]
  cases phase with
  | acting performed todo =>
      rcases h with ⟨h1, h2, h3⟩
      refine ⟨hqueue.trans h1, h2, ?_, h3.isSome, fun htx => ?_⟩
      · rw [hview]
        exact h3.performs
      · exact hdb.trans (h3.apart htx)
  | idle | opened | scheduled | stopped | finished =>
      dsimp only [Tracks] at h ⊢
      rw [hdb, hqueue]
      exact h

end Steps

theorem tracks_step {ok : Env -> Prop} {intent : Intent} {start : World}
    (hcustomers : start.db.customers = intent.customers)
    {s s' : World × Tx} {phase : Phase} {c : Cmd} {r : service.Reply c}
    (h : Tracks ok intent start s phase) (hmay : phase.may intent c)
    (hnext : Next ok s c r s') :
    exists phase', phase.next intent c r phase' ∧
      Tracks ok intent start s' phase' := by
  rcases s with ⟨w, tx⟩
  unfold Phase.may at hmay
  split at hmay
  · -- a transaction is opened
    rcases h with ⟨hdb, hqueue, rfl⟩
    rcases next_begin hnext with ⟨rfl, rfl⟩ | ⟨⟨e, rfl⟩, rfl, hfail⟩
    · exact ⟨.opened, rfl, hdb, hqueue, rfl⟩
    · refine ⟨.stopped false [], rfl, hqueue, Or.inr (Or.inl hfail),
        ⟨_, rfl⟩, rfl, ?_, fun _ => hdb⟩
      intro _
      rw [hdb]
      exact .nil _
  · -- the customer of the token is read
    subst hmay
    rcases h with ⟨hdb, hqueue, rfl⟩
    rcases next_query hnext with ⟨rfl, rfl | ⟨⟨e, rfl⟩, hfail⟩⟩
    · refine ⟨.idle, ⟨rfl, start.db, hcustomers, ?_⟩, hdb, hqueue, rfl⟩
      rw [← hdb]
      rfl
    · refine ⟨.stopped false [], rfl, hqueue, ?_, ⟨_, rfl⟩, rfl, ?_,
        fun _ => hdb⟩
      · rcases hfail with hfail | hfail
        · exact Or.inr (Or.inl hfail)
        · cases hfail
      · intro _
        rw [hdb]
        exact .nil _
  · -- the order is read
    rcases h with ⟨hdb, hqueue, rfl⟩
    rcases hmay with ⟨rfl, hinTx⟩
    exact tracks_order hcustomers hdb hqueue rfl hinTx.symm hnext
  · rcases h with ⟨hdb, hqueue, rfl⟩
    rcases hmay with ⟨rfl, hinTx⟩
    exact tracks_order hcustomers hdb hqueue rfl hinTx.symm hnext
  · -- the parameter was no key
    rcases h with ⟨hdb, hqueue, rfl⟩
    refine ⟨.stopped false [], ?_, tracks_rollback hdb hqueue ?_ hnext⟩
    · cases r <;> rfl
    · exact Or.inl (hmay.right start.db hcustomers)
  · rcases hmay with ⟨hinTx, rfl⟩
    exact tracks_update hinTx h hnext
  · exact tracks_commit hmay h hnext
  · -- the order was read and nothing is to be done
    rcases h with ⟨hqueue, hplan, hheld⟩
    have hdb := hheld.apart hmay
    cases r with
    | ok u =>
        refine ⟨.finished [], rfl, ?_⟩
        rw [next_rollback hnext]
        refine ⟨hqueue, rfl, hmay, hplan, ?_⟩
        rw [hdb]
        exact .nil _
    | error e =>
        exact ⟨.stopped false [], rfl,
          tracks_rollback hdb hqueue (Or.inl hplan) hnext⟩
  · exact tracks_addJob hmay.left hmay.right h hnext
  · rcases h with ⟨hqueue, hblocked, _, _, _, hdb⟩
    refine ⟨.stopped false [], ?_,
      tracks_rollback (hdb hmay) hqueue hblocked hnext⟩
    cases r <;> rfl
  · rcases next_aside rfl hnext with ⟨hdb, hqueue, htx⟩
    rcases s' with ⟨w', tx'⟩
    subst htx
    exact ⟨phase, rfl, tracks_congr h hdb hqueue⟩
  · cases hmay

/-- What a task that ran alone has done. -/
structure Effect (ok : Env -> Prop) (t : OrderTask) (w : World)
    (out : Outcome) (w' : World) (performed todo : List Change) : Prop where
  plan : t.plan w.db = performed ++ todo
  performs : Performs w.db performed w'.db
  whole : todo = [] ∨ performed = [] ∨ exists e, out = .threw e
  blocked : todo = [] ∨ MayFail ok ∨ Refused w.db (t.plan w.db)
  queue : (exists job, t.job performed = some job ∧
      w'.queue = w.queue.add job) ∨
    (w'.queue = w.queue ∧ (t.job performed = none ∨
      Blocked ok w.db (t.plan w.db)))

theorem executes_effect {ok : Env -> Prop} {t : OrderTask} {w w' : World}
    {out : Outcome} (h : Executes ok w t.task out w') :
    exists performed todo, Effect ok t w out w' performed todo := by
  rcases h with ⟨tx, hrun⟩
  have hstart : Tracks ok (t.intent w.db.customers) w (w, none) .idle :=
    ⟨rfl, rfl, rfl⟩
  have hfollows := follows_plan t w.db.customers
  rcases Prog.wp_sound (J := Tracks ok (t.intent w.db.customers) w)
    (fun hJ hmay hnext => tracks_step rfl hJ hmay hnext) hfollows hstart hrun
    with ⟨phase, htracks, hended⟩
  cases phase with
  | idle =>
      rcases htracks with ⟨hdb, hqueue, _⟩
      refine ⟨[], [], hended w.db rfl, ?_, Or.inl rfl, Or.inl rfl, ?_⟩
      · rw [hdb]
        exact .nil _
      · exact Or.inr ⟨hqueue, Or.inl t.job_nil⟩
  | opened => cases hended
  | acting performed todo =>
      rcases htracks with ⟨hqueue, hplan, hheld⟩
      rcases hended with ⟨hinTx, rfl, hjob⟩
      have hperforms := hheld.performs
      rw [hinTx] at hperforms
      exact ⟨performed, [], hplan, hperforms, Or.inl rfl, Or.inl rfl,
        Or.inr ⟨hqueue, Or.inl hjob⟩⟩
  | scheduled performed =>
      rcases htracks with ⟨_, hplan, hperforms, job, hjob, hqueue⟩
      exact ⟨performed, [], by rw [List.append_nil]; exact hplan, hperforms,
        Or.inl rfl, Or.inl rfl, Or.inl ⟨job, hjob, hqueue⟩⟩
  | stopped isOpen performed =>
      rcases htracks with ⟨hqueue, hblocked, ⟨todo, hplan⟩, _, hperforms, _⟩
      rcases hended with ⟨hclosed, hwhole⟩
      refine ⟨performed, todo, hplan, hperforms hclosed, Or.inr hwhole, ?_,
        Or.inr ⟨hqueue, Or.inr hblocked⟩⟩
      rcases hblocked with hnil | hblocked
      · have hsplit : performed ++ todo = [] := hplan.symm.trans hnil
        exact Or.inl (List.append_eq_nil_iff.mp hsplit).right
      · exact Or.inr hblocked
  | finished performed =>
      rcases htracks with ⟨hqueue, _, hinTx, hplan, hperforms⟩
      exact ⟨performed, [], by rw [List.append_nil]; exact hplan, hperforms,
        Or.inl rfl, Or.inl rfl,
        Or.inr ⟨hqueue, Or.inl (t.job_of_inTx hinTx performed)⟩⟩

end Orders
end ExpressEcommerce
