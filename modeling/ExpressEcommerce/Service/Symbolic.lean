import ExpressEcommerce.Service.Execution

/-!
# Symbolic execution

A program that runs alone can be followed command by command on the real
states.  The protocol of this module allows every command and expects what the
semantics lets it do; its rules say for each kind of command which states have
to be considered next.  A failure from outside has to be considered only when
the environments of that command allow one.
-/

namespace ExpressEcommerce
namespace Service

open Foundation
open Store
open Foundation.Action

/-- The protocol whose states are the real ones. -/
def direct (ok : Cmd -> Env -> Prop) : Protocol service (World × Tx) where
  may _ _ := True
  next := NextIn ok

/-- What was found by symbolic execution holds at the end of every run. -/
theorem holds_of_wp {ok : Cmd -> Env -> Prop} {p : Prog service alpha}
    {Q : alpha -> World × Tx -> Prop} {s t : World × Tx} {a : alpha}
    (hwp : p.wp (direct ok) Q s) (hrun : Prog.Runs (NextIn ok) p s a t) :
    Q a t := by
  have hend : exists g, t = g ∧ Q a g := by
    refine Prog.wp_sound (J := fun s g => s = g) ?_ hwp rfl hrun
    intro s g c r s' hsame _ hnext
    subst hsame
    exact ⟨s', hnext, rfl⟩
  rcases hend with ⟨_, rfl, hQ⟩
  exact hQ

theorem executes_of_wp {ok : Cmd -> Env -> Prop} {w w' : World} {task : Task}
    {out : Outcome} {Q : Outcome -> World × Tx -> Prop}
    (hwp : task.code.wp (direct ok) Q (w, none))
    (h : ExecutesIn ok w task out w') : exists tx, Q out (w', tx) := by
  rcases h with ⟨tx, hrun⟩
  exact ⟨tx, holds_of_wp hwp hrun⟩

abbrev allHealthy : Cmd -> Env -> Prop :=
  fun _ => Healthy

/-- Some environment lets the call through. -/
def Works (ok : Env -> Prop) : Prop :=
  exists env, ok env ∧ env.fault = false

/-- Only the named calls may fail, each time or not. -/
def failsOnly (F : Cmd -> Prop) : Cmd -> Env -> Prop :=
  fun c env => env.fault = true -> F c

theorem mayFail_failsOnly {F : Cmd -> Prop} {c : Cmd}
    (h : MayFail (failsOnly F c)) : F c := by
  rcases h with ⟨env, honly, hfault⟩
  exact honly hfault

/-- Exactly the named calls fail, each time. -/
def failsAt (G : Cmd -> Prop) : Cmd -> Env -> Prop :=
  fun c env => env.fault = true <-> G c

theorem mayFail_failsAt {G : Cmd -> Prop} {c : Cmd}
    (h : MayFail (failsAt G c)) : G c := by
  rcases h with ⟨env, hat, hfault⟩
  exact hat.mp hfault

theorem works_failsAt {G : Cmd -> Prop} {c : Cmd}
    (h : Works (failsAt G c)) : ¬ G c := by
  rcases h with ⟨env, hat, hfault⟩
  intro hG
  rw [hat.mpr hG] at hfault
  cases hfault

theorem failsAt_exists (G : Cmd -> Prop) (c : Cmd) :
    exists env, failsAt G c env := by
  by_cases hG : G c
  · exact ⟨{ fault := true }, fun _ => hG, fun _ => rfl⟩
  · refine ⟨{}, ?_, fun h => absurd h hG⟩
    intro hfault
    cases hfault

theorem executesIn_exists {ok : Cmd -> Env -> Prop}
    (henv : forall c, exists env, ok c env) (task : Task) (w : World) :
    exists out w', ExecutesIn ok w task out w' := by
  choose env hok using henv
  have hexec : forall c s, NextIn ok s c (exec (env c) c s).1
      (exec (env c) c s).2 := fun c s => ⟨env c, hok c, rfl⟩
  exact ⟨_, _, _, Prog.runs_eval hexec task.code (w, none)⟩

theorem ExecutesIn.mono {ok ok' : Cmd -> Env -> Prop} {w w' : World}
    {task : Task} {out : Outcome}
    (hok : forall c env, ok c env -> ok' c env)
    (h : ExecutesIn ok w task out w') : ExecutesIn ok' w task out w' := by
  rcases h with ⟨tx, hrun⟩
  refine ⟨tx, Prog.runs_mono ?_ hrun⟩
  intro s c r s' hnext
  rcases hnext with ⟨env, henv, hexec⟩
  exact ⟨env, hok c env henv, hexec⟩

theorem executesIn_failsAt {F G : Cmd -> Prop} (hFG : forall c, G c -> F c)
    (task : Task) (w : World) :
    exists out w', ExecutesIn (failsAt G) w task out w' ∧
      ExecutesIn (failsOnly F) w task out w' := by
  rcases executesIn_exists (failsAt_exists G) task w with ⟨out, w', h⟩
  exact ⟨out, w', h, h.mono (fun c _ hat hfault => hFG c (hat.mp hfault))⟩

/-- Execution with the named calls failing, for evaluation. -/
def attempt (fails : Cmd -> Bool) (task : Task) (w : World) :
    Outcome × World :=
  let final := task.code.eval (fun c => exec { fault := fails c } c) (w, none)
  (final.1, final.2.1)

theorem executesIn_attempt {F : Cmd -> Prop} {fails : Cmd -> Bool}
    (hfails : forall c, fails c = true -> F c) (task : Task) (w : World) :
    ExecutesIn (failsOnly F) w task (attempt fails task w).1
      (attempt fails task w).2 := by
  have hexec : forall c s, NextIn (failsOnly F) s c
      (exec { fault := fails c } c s).1 (exec { fault := fails c } c s).2 :=
    fun c s => ⟨{ fault := fails c }, hfails c, rfl⟩
  exact ⟨_, Prog.runs_eval hexec task.code (w, none)⟩

theorem exists_run_of_wp {F : Cmd -> Prop} {x : Act alpha}
    {Q : alpha -> World × Tx -> Prop} {s : World × Tx}
    (hwp : Action.wp (direct allHealthy) x Q (fun _ _ => False) s) :
    exists a t, Action.Runs (NextIn (failsOnly F)) x s (.ok a) t ∧ Q a t := by
  have hmild : forall {s c r s'}, NextIn allHealthy s c r s' ->
      NextIn (failsOnly F) s c r s' := by
    intro s c r s' hnext
    rcases hnext with ⟨env, hhealthy, hstep⟩
    refine ⟨env, ?_, hstep⟩
    intro hfault
    rw [hhealthy] at hfault
    cases hfault
  have hexec : forall c s, NextIn allHealthy s c (exec {} c s).1
      (exec {} c s).2 := fun c s => ⟨{}, rfl, rfl⟩
  have hrun := Prog.runs_eval hexec x s
  have hend := holds_of_wp hwp hrun
  have honly := Prog.runs_mono (fun _ _ _ _ h => hmild h) hrun
  cases hvalue : (Prog.eval (exec {}) x s).1 with
  | ok a =>
      rw [hvalue] at hend honly
      exact ⟨a, _, honly, hend⟩
  | error e =>
      rw [hvalue] at hend
      cases hend

theorem runs_update_error {F : Cmd -> Prop} {u : Change} {w : World}
    (h : F (.update false u) ∨ w.db.acceptsChange u = false) :
    exists e, Action.Runs (NextIn (failsOnly F)) (update false u) (w, none)
      (.error e) (w, none) := by
  rcases h with hF | hrefused
  · exact ⟨_, .call ⟨{ fault := true }, fun _ => hF, rfl⟩ (.ret _ _)⟩
  · refine ⟨"constraint violated", .call ⟨{}, ?_, ?_⟩ (.ret _ _)⟩
    · intro hfault
      cases hfault
    · have hview : (w.view none false).acceptsChange u = false := hrefused
      dsimp only [exec]
      rw [hview]
      rfl

section Rules

variable {ok : Cmd -> Env -> Prop} {w : World} {tx : Tx}
  {E : String -> World × Tx -> Prop}

theorem direct_perform {c : Cmd} {Q : service.Answer c -> World × Tx -> Prop}
    {answer : Env -> service.Answer c} {lost : String} {failed : World × Tx}
    {done : Env -> World × Tx}
    (hexec : forall env, exec env c (w, tx) =
      if env.fault then (.error lost, failed)
      else (.ok (answer env), done env))
    (hok : forall env, ok c env -> env.fault = false ->
      Q (answer env) (done env))
    (hfail : MayFail (ok c) -> forall e, E e failed) :
    Action.wp (direct ok) (perform (I := service) c) Q E (w, tx) := by
  refine wp_command trivial ?_ ?_
  · rintro a s' ⟨env, henv, heq⟩
    rw [hexec env] at heq
    split at heq
    · cases heq
    · rename_i hfault
      cases heq
      exact hok env henv (Bool.eq_false_iff.mpr hfault)
  · rintro e s' ⟨env, henv, heq⟩
    rw [hexec env] at heq
    split at heq
    · rename_i hfault
      cases heq
      exact hfail ⟨env, henv, hfault⟩ _
    · cases heq

theorem direct_begin {Q : Unit -> World × Tx -> Prop}
    (hok : Works (ok .begin) -> Q () (w, some []))
    (hfail : MayFail (ok .begin) -> forall e, E e (w, tx)) :
    Action.wp (direct ok) begin Q E (w, tx) :=
  direct_perform (fun _ => rfl) (fun env henv hfault => hok ⟨env, henv, hfault⟩)
    hfail

theorem direct_commit {log : List Write} {Q : Unit -> World × Tx -> Prop}
    (hok : Works (ok .commit) ->
      Q () ({ w with db := w.db.writeAll log }, none))
    (hfail : MayFail (ok .commit) -> forall e, E e (w, none)) :
    Action.wp (direct ok) commit Q E (w, some log) :=
  direct_perform (fun _ => rfl) (fun env henv hfault => hok ⟨env, henv, hfault⟩)
    hfail

theorem direct_rollback {log : List Write} {Q : Unit -> World × Tx -> Prop}
    (hok : Q () (w, none))
    (hfail : MayFail (ok .rollback) -> forall e, E e (w, none)) :
    Action.wp (direct ok) rollback Q E (w, some log) :=
  direct_perform (fun _ => rfl) (fun _ _ _ => hok) hfail

theorem direct_query {inTx : Bool} {q : Query}
    {Q : q.Answer -> World × Tx -> Prop} (haccepted : q.accepted = true)
    (hok : Works (ok (.query inTx q)) ->
      Q (q.eval (w.view tx inTx)) (w, tx))
    (hfail : MayFail (ok (.query inTx q)) -> forall e, E e (w, tx)) :
    Action.wp (direct ok) (query inTx q) Q E (w, tx) := by
  have hexec : forall env, exec env (.query inTx q) (w, tx) =
      if env.fault then (.error "connection lost", (w, tx))
      else (.ok (q.eval (w.view tx inTx)), (w, tx)) := by
    intro env
    dsimp only [exec]
    rw [if_pos haccepted]
  exact direct_perform hexec (fun env henv hfault => hok ⟨env, henv, hfault⟩)
    hfail

theorem direct_query_refused {inTx : Bool} {q : Query}
    {Q : q.Answer -> World × Tx -> Prop} (hrefused : q.accepted = false)
    (hfail : forall e, E e (w, tx)) :
    Action.wp (direct ok) (query inTx q) Q E (w, tx) := by
  refine wp_command trivial ?_ ?_
  · intro a s' hnext
    rcases hnext with ⟨env, _, hexec⟩
    dsimp only [exec] at hexec
    rw [hrefused] at hexec
    split at hexec <;> cases hexec
  · intro e s' hnext
    rcases next_query hnext with ⟨rfl, _⟩
    exact hfail e

theorem direct_update_at {inTx : Bool} {u : Change}
    {Q : Nat -> World × Tx -> Prop}
    (hok : forall env, ok (.update inTx u) env -> env.fault = false ->
      (w.view tx inTx).acceptsChange u = true ->
      Q env.now (w.record tx inTx (.update u env.now)))
    (hrefused : (w.view tx inTx).acceptsChange u = false ->
      forall e, E e (w, tx))
    (hfail : MayFail (ok (.update inTx u)) -> forall e, E e (w, tx)) :
    Action.wp (direct ok) (update inTx u) Q E (w, tx) := by
  refine wp_command trivial ?_ ?_
  · intro a s' hnext
    rcases hnext with ⟨env, henv, hexec⟩
    dsimp only [exec] at hexec
    split at hexec
    · cases hexec
    · rename_i hfault
      split at hexec
      · cases hexec
        exact hok env henv (Bool.eq_false_iff.mpr hfault) (by assumption)
      · cases hexec
  · intro e s' hnext
    rcases next_update hnext with ⟨now, he, _⟩ | ⟨_, rfl, hmay | hno⟩
    · cases he
    · exact hfail hmay e
    · exact hrefused hno e

theorem direct_update {inTx : Bool} {u : Change}
    {Q : Nat -> World × Tx -> Prop}
    (hok : forall now, Works (ok (.update inTx u)) ->
      (w.view tx inTx).acceptsChange u = true ->
      Q now (w.record tx inTx (.update u now)))
    (hrefused : (w.view tx inTx).acceptsChange u = false ->
      forall e, E e (w, tx))
    (hfail : MayFail (ok (.update inTx u)) -> forall e, E e (w, tx)) :
    Action.wp (direct ok) (update inTx u) Q E (w, tx) := by
  refine direct_update_at ?_ hrefused hfail
  intro env henv hfault haccepts
  exact hok env.now ⟨env, henv, hfault⟩ haccepts

def reserved (w : World) (row : NewRow) : World :=
  { w with db := w.db.reserve row.table }

theorem direct_insert_at {inTx : Bool} {row : NewRow}
    {Q : Int × Nat -> World × Tx -> Prop}
    (hok : forall env, ok (.insert inTx row) env -> env.fault = false ->
      ((reserved w row).view tx inTx).accepts
        (row.write (w.db.nextId row.table) env.now) = true ->
      Q (w.db.nextId row.table, env.now) ((reserved w row).record tx inTx
        (row.write (w.db.nextId row.table) env.now)))
    (hrefused : forall now, ((reserved w row).view tx inTx).accepts
        (row.write (w.db.nextId row.table) now) = false ->
      forall e, E e (reserved w row, tx))
    (hfail : MayFail (ok (.insert inTx row)) -> forall e, E e (w, tx)) :
    Action.wp (direct ok) (insert inTx row) Q E (w, tx) := by
  refine wp_command trivial ?_ ?_
  · intro a s' hnext
    rcases hnext with ⟨env, henv, hexec⟩
    dsimp only [exec] at hexec
    split at hexec
    · cases hexec
    · rename_i hfault
      split at hexec
      · cases hexec
        exact hok env henv (Bool.eq_false_iff.mpr hfault) (by assumption)
      · cases hexec
  · intro e s' hnext
    rcases hnext with ⟨env, henv, hexec⟩
    dsimp only [exec] at hexec
    split at hexec
    · cases hexec
      exact hfail ⟨env, henv, by assumption⟩ _
    · split at hexec
      · cases hexec
      · rename_i hno
        cases hexec
        exact hrefused env.now (Bool.eq_false_iff.mpr hno) _

theorem direct_insert {inTx : Bool} {row : NewRow}
    {Q : Int × Nat -> World × Tx -> Prop}
    (hok : forall now, Works (ok (.insert inTx row)) ->
      ((reserved w row).view tx inTx).accepts
        (row.write (w.db.nextId row.table) now) = true ->
      Q (w.db.nextId row.table, now) ((reserved w row).record tx inTx
        (row.write (w.db.nextId row.table) now)))
    (hrefused : forall now, ((reserved w row).view tx inTx).accepts
        (row.write (w.db.nextId row.table) now) = false ->
      forall e, E e (reserved w row, tx))
    (hfail : MayFail (ok (.insert inTx row)) -> forall e, E e (w, tx)) :
    Action.wp (direct ok) (insert inTx row) Q E (w, tx) := by
  refine direct_insert_at ?_ hrefused hfail
  intro env henv hfault haccepts
  exact hok env.now ⟨env, henv, hfault⟩ haccepts

theorem direct_addJob {job : Job} {Q : Unit -> World × Tx -> Prop}
    (hok : Works (ok (.addJob job)) ->
      Q () ({ w with queue := w.queue.add job }, tx))
    (hfail : MayFail (ok (.addJob job)) -> forall e, E e (w, tx)) :
    Action.wp (direct ok) (perform (I := service) (.addJob job)) Q E
      (w, tx) :=
  direct_perform (fun _ => rfl) (fun env henv hfault => hok ⟨env, henv, hfault⟩)
    hfail

theorem direct_redisDel {key : String} {Q : Unit -> World × Tx -> Prop}
    (hok : Q () ({ w with cache := w.cache.del key }, tx))
    (hfail : MayFail (ok (.redisDel key)) -> forall e, E e (w, tx)) :
    Action.wp (direct ok) (perform (I := service) (.redisDel key)) Q E
      (w, tx) :=
  direct_perform (fun _ => rfl) (fun _ _ _ => hok) hfail

theorem direct_indexDoc {id : Int} {doc : ProductDoc}
    {Q : Unit -> World × Tx -> Prop}
    (hok : Works (ok (.indexDoc id doc)) ->
      Q () ({ w with index := w.index.put id doc }, tx))
    (hfail : MayFail (ok (.indexDoc id doc)) -> forall e, E e (w, tx)) :
    Action.wp (direct ok) (perform (I := service) (.indexDoc id doc)) Q E
      (w, tx) :=
  direct_perform (fun _ => rfl) (fun env henv hfault => hok ⟨env, henv, hfault⟩)
    hfail

theorem direct_bcryptHash {password : String}
    {Q : String -> World × Tx -> Prop}
    (hok : forall env, ok (.bcryptHash password) env ->
      Q (env.hash password) (w, tx))
    (hfail : MayFail (ok (.bcryptHash password)) -> forall e, E e (w, tx)) :
    Action.wp (direct ok) (perform (I := service) (.bcryptHash password)) Q E
      (w, tx) :=
  direct_perform (fun _ => rfl) (fun env henv _ => hok env henv) hfail

theorem direct_bcryptCompare {password digest : String}
    {Q : Bool -> World × Tx -> Prop}
    (hok : forall env, ok (.bcryptCompare password digest) env ->
      Q (env.compare password digest) (w, tx))
    (hfail : MayFail (ok (.bcryptCompare password digest)) ->
      forall e, E e (w, tx)) :
    Action.wp (direct ok)
      (perform (I := service) (.bcryptCompare password digest)) Q E
      (w, tx) :=
  direct_perform (fun _ => rfl) (fun env henv _ => hok env henv) hfail

theorem direct_isEmail {text : String} {Q : Bool -> World × Tx -> Prop}
    (hok : forall env, ok (.isEmail text) env ->
      Q (env.isEmail text) (w, tx)) :
    Action.wp (direct ok) (perform (I := service) (.isEmail text)) Q E
      (w, tx) := by
  refine wp_command trivial ?_ ?_
  · intro a s' hnext
    rcases hnext with ⟨env, henv, hexec⟩
    cases hexec
    exact hok env henv
  · intro e s' hnext
    rcases hnext with ⟨env, henv, hexec⟩
    cases hexec

theorem direct_healthy {c : Cmd} {Q : service.Answer c -> World × Tx -> Prop}
    {s : World × Tx}
    (h : forall env, env.fault = false -> exists a s',
      exec env c s = (.ok a, s') ∧ Q a s') :
    Action.wp (direct allHealthy) (perform (I := service) c) Q E s := by
  refine wp_command trivial ?_ ?_
  · intro a s' hnext
    rcases hnext with ⟨env, hhealthy, hexec⟩
    rcases h env hhealthy with ⟨b, t, hb, hQ⟩
    rw [hb] at hexec
    cases hexec
    exact hQ
  · intro e s' hnext
    rcases hnext with ⟨env, hhealthy, hexec⟩
    rcases h env hhealthy with ⟨b, t, hb, _⟩
    rw [hb] at hexec
    cases hexec

def Dropped (ok : Cmd -> Env -> Prop) (key : String) (cache cache' : Cache) :
    Prop :=
  cache' = cache.del key ∨ MayFail (ok (.redisDel key)) ∧ cache' = cache

theorem direct_invalidateOrderCache {id : Int}
    {Q : Unit -> World × Tx -> Prop}
    (h : forall cache, Dropped ok (orderKey id) w.cache cache ->
      Q () ({ w with cache := cache }, tx)) :
    Action.wp (direct ok) (invalidateOrderCache id) Q E (w, tx) := by
  refine (wp_tryCatch _ _ _).mpr (direct_redisDel ?_ ?_)
  · exact h _ (Or.inl rfl)
  · intro hmay e
    exact h _ (Or.inr ⟨hmay, rfl⟩)

end Rules

end Service
end ExpressEcommerce
