import ExpressEcommerce.Foundation.Interleaving
import ExpressEcommerce.Service.Routes

/-!
# Executing requests and jobs

A task is a request or one execution of a queue processor.  It is executed
alone, from the first command to the last, or as a thread of a pool whose
commands interleave with those of other tasks.
-/

namespace ExpressEcommerce
namespace Service

open Foundation
open Store

inductive Task where
  | request (req : Request)
  | statusJob (job : Job)
  | cancelJob (orderId : Int)
  deriving DecidableEq, Repr

inductive Outcome where
  | response (response : Response)
  | returned
  | threw (text : String)
  deriving DecidableEq, Repr

def settle (x : Act alpha) (done : alpha -> beta) (failed : String -> beta) :
    Prog service beta :=
  Prog.bind x (fun
    | .ok a => .ret (done a)
    | .error e => .ret (failed e))

/-- Express answers 500 when a handler rejects; a processor that throws is
reported to Bull. -/
def Task.code : Task -> Prog service Outcome
  | request req =>
      settle (handle req) Outcome.response
        (fun e => Outcome.response ⟨500, .error e⟩)
  | statusJob job =>
      settle (statusProcessor job) (fun _ => Outcome.returned) Outcome.threw
  | cancelJob orderId =>
      settle (cancelProcessor orderId) (fun _ => Outcome.returned)
        Outcome.threw

theorem wp_settle {P : Protocol service sigma} {x : Act alpha}
    {done : alpha -> beta} {failed : String -> beta}
    {Q : beta -> sigma -> Prop} {s : sigma} :
    (settle x done failed).wp P Q s <->
      Action.wp P x (fun a t => Q (done a) t) (fun e t => Q (failed e) t) s := by
  refine (Prog.wp_bind P x _ _ s).trans ?_
  constructor <;> refine Prog.wp_mono (fun r t h => ?_) x <;> cases r <;>
    exact h

/-!
# Alone
-/

/-- The environments in which no call fails. -/
def Healthy (env : Env) : Prop :=
  env.fault = false

def AnyEnv (_ : Env) : Prop :=
  True

def MayFail (ok : Env -> Prop) : Prop :=
  exists env, ok env ∧ env.fault = true

theorem not_mayFail_healthy : ¬ MayFail Healthy := by
  rintro ⟨env, hok, hfault⟩
  rw [hok] at hfault
  cases hfault

def Next (ok : Env -> Prop) : service.Transitions (World × Tx) :=
  fun s c r s' => exists env, ok env ∧ exec env c s = (r, s')

/-!
What each kind of command may do, without the environment.
-/

section Inversion

variable {ok : Env -> Prop} {w : World} {tx : Tx} {s' : World × Tx}

/-- A command that either gives one answer or loses the connection. -/
theorem next_cases {c : Cmd} {r : service.Reply c} {a : service.Answer c}
    {lost : String} {failed done : World × Tx}
    (hexec : forall env, exec env c (w, tx) =
      if env.fault then (.error lost, failed) else (.ok a, done))
    (h : Next ok (w, tx) c r s') :
    (r = .ok a ∧ s' = done) ∨
      (exists e, r = .error e) ∧ s' = failed ∧ MayFail ok := by
  rcases h with ⟨env, hok, heq⟩
  rw [hexec env] at heq
  split at heq <;> cases heq
  · exact Or.inr ⟨⟨_, rfl⟩, rfl, env, hok, by assumption⟩
  · exact Or.inl ⟨rfl, rfl⟩

theorem next_begin {r : service.Reply Cmd.begin}
    (h : Next ok (w, tx) .begin r s') :
    (r = .ok () ∧ s' = (w, some [])) ∨
      (exists e, r = .error e) ∧ s' = (w, tx) ∧ MayFail ok :=
  next_cases (fun _ => rfl) h

theorem next_commit {log : List Write} {r : service.Reply Cmd.commit}
    (h : Next ok (w, some log) .commit r s') :
    (r = .ok () ∧ s' = ({ w with db := w.db.writeAll log }, none)) ∨
      (exists e, r = .error e) ∧ s' = (w, none) ∧ MayFail ok :=
  next_cases (fun _ => rfl) h

theorem next_rollback {r : service.Reply Cmd.rollback}
    (h : Next ok (w, tx) .rollback r s') : s' = (w, none) := by
  rcases h with ⟨env, hok, hexec⟩
  dsimp only [exec] at hexec
  split at hexec
  · cases hexec
    rfl
  · split at hexec <;> cases hexec <;> rfl

theorem next_query {inTx : Bool} {q : Query}
    {r : service.Reply (Cmd.query inTx q)}
    (h : Next ok (w, tx) (.query inTx q) r s') :
    s' = (w, tx) ∧
      (r = .ok (q.eval (w.view tx inTx)) ∨
        (exists e, r = .error e) ∧ (MayFail ok ∨ q.accepted = false)) := by
  rcases h with ⟨env, hok, hexec⟩
  dsimp only [exec] at hexec
  split at hexec
  · cases hexec
    exact ⟨rfl, Or.inr ⟨⟨_, rfl⟩, Or.inl ⟨env, hok, by assumption⟩⟩⟩
  · split at hexec <;> cases hexec
    · exact ⟨rfl, Or.inl rfl⟩
    · rename_i hrefused
      exact ⟨rfl, Or.inr ⟨⟨_, rfl⟩, Or.inr (by simpa using hrefused)⟩⟩

theorem next_update {inTx : Bool} {u : Change}
    {r : service.Reply (Cmd.update inTx u)}
    (h : Next ok (w, tx) (.update inTx u) r s') :
    (exists now, r = .ok now ∧ (w.view tx inTx).acceptsChange u = true ∧
        s' = w.record tx inTx (.update u now)) ∨
      (exists e, r = .error e) ∧ s' = (w, tx) ∧
        (MayFail ok ∨ (w.view tx inTx).acceptsChange u = false) := by
  rcases h with ⟨env, hok, hexec⟩
  dsimp only [exec] at hexec
  split at hexec
  · cases hexec
    exact Or.inr ⟨⟨_, rfl⟩, rfl, Or.inl ⟨env, hok, by assumption⟩⟩
  · split at hexec <;> cases hexec
    · exact Or.inl ⟨_, rfl, by assumption, rfl⟩
    · rename_i hrefused
      exact Or.inr ⟨⟨_, rfl⟩, rfl, Or.inr (by simpa using hrefused)⟩

theorem next_insert {inTx : Bool} {row : NewRow}
    {r : service.Reply (Cmd.insert inTx row)}
    (h : Next ok (w, tx) (.insert inTx row) r s') :
    (exists now, r = .ok (w.db.nextId row.table, now) ∧
        (({ w with db := w.db.reserve row.table } : World).view tx
          inTx).accepts (row.write (w.db.nextId row.table) now) = true ∧
        s' = ({ w with db := w.db.reserve row.table } : World).record tx inTx
          (row.write (w.db.nextId row.table) now)) ∨
      (exists e, r = .error e) ∧
        (s' = (w, tx) ∨
          s' = ({ w with db := w.db.reserve row.table }, tx)) := by
  rcases h with ⟨env, hok, hexec⟩
  dsimp only [exec] at hexec
  split at hexec
  · cases hexec
    exact Or.inr ⟨⟨_, rfl⟩, Or.inl rfl⟩
  · split at hexec <;> cases hexec
    · exact Or.inl ⟨_, rfl, by assumption, rfl⟩
    · exact Or.inr ⟨⟨_, rfl⟩, Or.inr rfl⟩

theorem next_insert_error {inTx : Bool} {row : NewRow} {e : String}
    (h : Next ok (w, tx) (.insert inTx row) (.error e) s') :
    MayFail ok ∨ exists now,
      (({ w with db := w.db.reserve row.table } : World).view tx
        inTx).accepts (row.write (w.db.nextId row.table) now) = false := by
  rcases h with ⟨env, hok, hexec⟩
  dsimp only [exec] at hexec
  split at hexec
  · exact Or.inl ⟨env, hok, by assumption⟩
  · split at hexec
    · cases hexec
    · rename_i hrefused
      exact Or.inr ⟨env.now, by simpa using hrefused⟩

theorem next_addJob {job : Job} {r : service.Reply (Cmd.addJob job)}
    (h : Next ok (w, tx) (.addJob job) r s') :
    (r = .ok () ∧ s' = ({ w with queue := w.queue.add job }, tx)) ∨
      (exists e, r = .error e) ∧ s' = (w, tx) ∧ MayFail ok :=
  next_cases (fun _ => rfl) h

def Cmd.aside : Cmd -> Bool
  | .redisGet _ => true
  | .redisSet _ _ => true
  | .redisDel _ => true
  | .indexDoc _ _ => true
  | .deleteDoc _ => true
  | .bulkIndex _ => true
  | .indexExists => true
  | .createIndex => true
  | .search _ => true
  | .bcryptHash _ => true
  | .bcryptCompare _ _ => true
  | .isEmail _ => true
  | _ => false

theorem next_aside {c : Cmd} {r : service.Reply c} (hc : Cmd.aside c = true)
    (h : Next ok (w, tx) c r s') :
    s'.1.db = w.db ∧ s'.1.queue = w.queue ∧ s'.2 = tx := by
  rcases h with ⟨env, hok, hexec⟩
  cases c <;> cases hc <;> dsimp only [exec] at hexec <;>
    repeat' split at hexec
  all_goals
    cases hexec
    exact ⟨rfl, rfl, rfl⟩

theorem next_redisGet {key : String} {r : service.Reply (.redisGet key)}
    (h : Next ok (w, tx) (.redisGet key) r s') :
    s' = (w, tx) ∧ (r = .ok (w.cache.get key) ∨
      (exists e, r = .error e) ∧ MayFail ok) := by
  rcases next_cases (fun _ => rfl) h with ⟨hr, hs⟩ | ⟨hr, hs, hmay⟩
  · exact ⟨hs, Or.inl hr⟩
  · exact ⟨hs, Or.inr ⟨hr, hmay⟩⟩

theorem next_redisSet {key : String} {value : CacheValue}
    {r : service.Reply (.redisSet key value)}
    (h : Next ok (w, tx) (.redisSet key value) r s') :
    (r = .ok () ∧ s' = ({ w with cache := w.cache.set key value }, tx)) ∨
      (exists e, r = .error e) ∧ s' = (w, tx) ∧ MayFail ok :=
  next_cases (fun _ => rfl) h

theorem next_redisDel {key : String} {r : service.Reply (.redisDel key)}
    (h : Next ok (w, tx) (.redisDel key) r s') :
    (r = .ok () ∧ s' = ({ w with cache := w.cache.del key }, tx)) ∨
      (exists e, r = .error e) ∧ s' = (w, tx) ∧ MayFail ok :=
  next_cases (fun _ => rfl) h

def Cmd.isCaching : Cmd -> Bool
  | .redisSet _ _ => true
  | .redisDel _ => true
  | _ => false

theorem next_cache {c : Cmd} {r : service.Reply c}
    (hc : Cmd.isCaching c = false) (h : Next ok (w, tx) c r s') :
    s'.1.cache = w.cache := by
  rcases h with ⟨env, hok, hexec⟩
  cases c <;> cases hc <;> dsimp only [exec] at hexec <;>
    repeat' split at hexec
  all_goals
    cases hexec
    first | rfl | (unfold World.record; split <;> rfl)

end Inversion

/-- What a command may do to the transaction of its thread. -/
inductive TxStep (tx : Tx) : Cmd -> Tx -> Prop where
  | same (c : Cmd) : TxStep tx c tx
  | opened : TxStep tx .begin (some [])
  | closed (c : Cmd) : TxStep tx c none
  | inserted (row : NewRow) (id : Int) (now : Nat) :
      TxStep tx (.insert true row)
        (tx.map (fun log => log ++ [row.write id now]))
  | updated (u : Change) (now : Nat) :
      TxStep tx (.update true u)
        (tx.map (fun log => log ++ [.update u now]))

theorem txStep_of_next {ok : Env -> Prop} {w w' : World} {tx tx' : Tx}
    {c : Cmd} {r : service.Reply c} (h : Next ok (w, tx) c r (w', tx')) :
    TxStep tx c tx' := by
  cases c with
  | begin =>
      rcases next_begin h with ⟨_, heq⟩ | ⟨_, heq, _⟩ <;> cases heq
      · exact .opened
      · exact .same _
  | commit =>
      cases tx with
      | none =>
          rcases h with ⟨env, _, hexec⟩
          cases hexec
          exact .same _
      | some log =>
          rcases next_commit h with ⟨_, heq⟩ | ⟨_, heq, _⟩ <;> cases heq <;>
            exact .closed _
  | rollback =>
      cases next_rollback h
      exact .closed _
  | query inTx q =>
      cases (next_query h).left
      exact .same _
  | insert inTx row =>
      rcases next_insert h with ⟨now, _, _, heq⟩ | ⟨_, heq | heq⟩
      · cases inTx <;> cases heq
        · exact .same _
        · exact .inserted _ _ _
      · cases heq
        exact .same _
      · cases heq
        exact .same _
  | update inTx u =>
      rcases next_update h with ⟨now, _, _, heq⟩ | ⟨_, heq, _⟩
      · cases inTx <;> cases heq
        · exact .same _
        · exact .updated _ _
      · cases heq
        exact .same _
  | addJob job =>
      rcases next_addJob h with ⟨_, heq⟩ | ⟨_, heq, _⟩ <;> cases heq <;>
        exact .same _
  | redisGet | redisSet | redisDel | indexDoc | deleteDoc | bulkIndex
  | indexExists | createIndex | search | bcryptHash | bcryptCompare | isEmail =>
      have htx : tx' = tx := (next_aside rfl h).right.right
      rw [htx]
      exact .same _

/-- What a command may do to the committed rows. -/
inductive StoreStep (w : World) (tx : Tx) : Cmd -> Database -> Prop where
  | same (c : Cmd) : StoreStep w tx c w.db
  | reserved (inTx : Bool) (row : NewRow) :
      StoreStep w tx (.insert inTx row) (w.db.reserve row.table)
  | inserted (row : NewRow) (now : Nat) :
      StoreStep w tx (.insert false row) ((w.db.reserve row.table).write
        (row.write (w.db.nextId row.table) now))
  | updated (u : Change) (now : Nat) :
      StoreStep w tx (.update false u) (w.db.update u now)
  | committed (log : List Write) (htx : tx = some log) :
      StoreStep w tx .commit (w.db.writeAll log)

theorem storeStep_of_next {ok : Env -> Prop} {w w' : World} {tx tx' : Tx}
    {c : Cmd} {r : service.Reply c} (h : Next ok (w, tx) c r (w', tx')) :
    StoreStep w tx c w'.db := by
  cases c with
  | begin =>
      rcases next_begin h with ⟨_, heq⟩ | ⟨_, heq, _⟩ <;> cases heq <;>
        exact .same _
  | commit =>
      cases tx with
      | none =>
          rcases h with ⟨env, _, hexec⟩
          cases hexec
          exact .same _
      | some log =>
          rcases next_commit h with ⟨_, heq⟩ | ⟨_, heq, _⟩ <;> cases heq
          · exact .committed _ rfl
          · exact .same _
  | rollback =>
      cases next_rollback h
      exact .same _
  | query inTx q =>
      cases (next_query h).left
      exact .same _
  | insert inTx row =>
      rcases next_insert h with ⟨now, _, _, heq⟩ | ⟨_, heq | heq⟩
      · cases inTx <;> cases heq
        · exact .inserted _ _
        · exact .reserved _ _
      · cases heq
        exact .same _
      · cases heq
        exact .reserved _ _
  | update inTx u =>
      rcases next_update h with ⟨now, _, _, heq⟩ | ⟨_, heq, _⟩
      · cases inTx <;> cases heq
        · exact .updated _ _
        · exact .same _
      · cases heq
        exact .same _
  | addJob job =>
      rcases next_addJob h with ⟨_, heq⟩ | ⟨_, heq, _⟩ <;> cases heq <;>
        exact .same _
  | redisGet | redisSet | redisDel | indexDoc | deleteDoc | bulkIndex
  | indexExists | createIndex | search | bcryptHash | bcryptCompare | isEmail =>
      rw [(next_aside rfl h).left]
      exact .same _

def Executes (ok : Env -> Prop) (w : World) (task : Task) (out : Outcome)
    (w' : World) : Prop :=
  exists tx, Prog.Runs (Next ok) task.code (w, none) out (w', tx)

theorem Executes.response {ok : Env -> Prop} {w w' : World} {req : Request}
    {out : Outcome} (h : Executes ok w (.request req) out w') :
    exists r, out = .response r := by
  rcases h with ⟨tx, hrun⟩
  rcases Prog.runs_bind_inv hrun with ⟨r, mid, _, hend⟩
  cases r <;> cases hend <;> exact ⟨_, rfl⟩

theorem executes_eval {ok : Env -> Prop} {env : Env} (hok : ok env)
    (task : Task) (w : World) :
    Executes ok w task (task.code.eval (exec env) (w, none)).1
      (task.code.eval (exec env) (w, none)).2.1 := by
  have hexec : forall c s, Next ok s c (exec env c s).1 (exec env c s).2 :=
    fun c s => ⟨env, hok, rfl⟩
  exact ⟨_, Prog.runs_eval hexec task.code (w, none)⟩

/-- Execution in the environment where nothing fails and all clocks stand. -/
def Task.perform (task : Task) (w : World) : Outcome × World :=
  let final := task.code.eval (exec {}) (w, none)
  (final.1, final.2.1)

theorem executes_perform (task : Task) (w : World) :
    Executes Healthy w task (task.perform w).1 (task.perform w).2 := by
  have hhealthy : Healthy {} := rfl
  exact executes_eval hhealthy task w

theorem Executes.anyEnv {ok : Env -> Prop} {w w' : World} {task : Task}
    {out : Outcome} (h : Executes ok w task out w') :
    Executes AnyEnv w task out w' := by
  rcases h with ⟨tx, hrun⟩
  refine ⟨tx, Prog.runs_mono ?_ hrun⟩
  rintro s c r s' ⟨env, _, hexec⟩
  exact ⟨env, trivial, hexec⟩

/-!
Which calls may fail can depend on the command: a cache that is up answers
every command, whatever happens to the database.
-/

def NextIn (ok : Cmd -> Env -> Prop) : service.Transitions (World × Tx) :=
  fun s c r s' => Next (ok c) s c r s'

def ExecutesIn (ok : Cmd -> Env -> Prop) (w : World) (task : Task)
    (out : Outcome) (w' : World) : Prop :=
  exists tx, Prog.Runs (NextIn ok) task.code (w, none) out (w', tx)

theorem ExecutesIn.anyEnv {ok : Cmd -> Env -> Prop} {w w' : World}
    {task : Task} {out : Outcome} (h : ExecutesIn ok w task out w') :
    Executes AnyEnv w task out w' := by
  rcases h with ⟨tx, hrun⟩
  refine ⟨tx, Prog.runs_mono ?_ hrun⟩
  rintro s c r s' ⟨env, _, hexec⟩
  exact ⟨env, trivial, hexec⟩

theorem executesIn_perform {ok : Cmd -> Env -> Prop} (hok : forall c, ok c {})
    (task : Task) (w : World) :
    ExecutesIn ok w task (task.perform w).1 (task.perform w).2 := by
  have hexec : forall c s,
      NextIn ok s c (exec {} c s).1 (exec {} c s).2 :=
    fun c s => ⟨{}, hok c, rfl⟩
  exact ⟨_, Prog.runs_eval hexec task.code (w, none)⟩

/-- No call to Redis fails. -/
def RedisUp : Cmd -> Env -> Prop
  | .redisGet _, env => Healthy env
  | .redisSet _ _, env => Healthy env
  | .redisDel _, env => Healthy env
  | _, _ => True

theorem redisUp_default (c : Cmd) : RedisUp c {} := by
  cases c <;> trivial

/-!
# Interleaved

An `UPDATE` waits while another open transaction holds a lock on its row; a
transaction locks the rows it has written until it ends.
-/

def locked (tx : Tx) (row : TableName × Int) : Prop :=
  exists log, tx = some log ∧ row ∈ log.map Write.row

def Enabled (others : List Tx) : Cmd -> Prop
  | .update _ change => forall tx, tx ∈ others -> ¬ locked tx change.row
  | _ => True

def system (ok : Env -> Prop) : System service World Tx where
  next := Next ok
  enabled := Enabled

/-- The same with environments that depend on the command. -/
def systemIn (ok : Cmd -> Env -> Prop) : System service World Tx where
  next := NextIn ok
  enabled := Enabled

abbrev Tasks : Type := Pool service World Tx Outcome

def Unlocked (t : Thread service Tx Outcome) : Prop :=
  t.here.getD [] = []

theorem enabled_of_unlocked {threads : List (Thread service Tx Outcome)}
    (h : forall t, t ∈ threads -> Unlocked t) (i : Nat) (c : Cmd) :
    Enabled ((threads.eraseIdx i).map Thread.here) c := by
  cases c with
  | update inTx change =>
      rintro tx htx ⟨log, rfl, hrow⟩
      rcases List.mem_map.mp htx with ⟨t, ht, hhere⟩
      have hnil : t.here.getD [] = [] := h t (List.mem_of_mem_eraseIdx ht)
      rw [hhere] at hnil
      rw [show log = [] from hnil] at hrow
      cases hrow
  | _ => trivial

theorem unlocked_set {threads : List (Thread service Tx Outcome)} {i : Nat}
    {t : Thread service Tx Outcome}
    (h : forall t, t ∈ threads -> Unlocked t) (ht : Unlocked t) :
    forall t', t' ∈ threads.set i t -> Unlocked t' := by
  intro t' ht'
  rcases List.mem_or_eq_of_mem_set ht' with hold | rfl
  · exact h t' hold
  · exact ht

theorem healthy_total (s : World × Tx) (c : Cmd) :
    exists r s', (system Healthy).next s c r s' :=
  ⟨(exec {} c s).1, (exec {} c s).2, {}, rfl, rfl⟩

theorem reaches_anyEnv {pool pool' : Tasks}
    (h : Pool.Reaches (system Healthy) pool pool') :
    Pool.Reaches (system AnyEnv) pool pool' := by
  have hnext : forall {s c r s'}, (system Healthy).next s c r s' ->
      (system AnyEnv).next s c r s' := by
    rintro s c r s' ⟨env, _, hexec⟩
    exact ⟨env, trivial, hexec⟩
  exact Pool.reaches_mono hnext (fun hgo => hgo) h

/-- The test of `Enabled`, for evaluation. -/
def free (others : List Tx) : Cmd -> Bool
  | .update _ change => others.all (fun tx =>
      !(tx.getD []).any (fun x => decide (x.row = change.row)))
  | _ => true

theorem enabled_of_free {others : List Tx} {c : Cmd}
    (h : free others c = true) : Enabled others c := by
  cases c with
  | update inTx change =>
      rintro tx htx ⟨log, rfl, hrow⟩
      have hnone := List.all_eq_true.mp h _ htx
      rcases List.mem_map.mp hrow with ⟨x, hx, heq⟩
      rw [Bool.not_eq_true', List.any_eq_false] at hnone
      exact hnone x hx (decide_eq_true heq)
  | _ => trivial

/-- The pool in which every task is about to start. -/
def startPool (w : World) (tasks : List Task) : Tasks where
  shared := w
  threads := tasks.map (fun task => ⟨none, task.code⟩)

/-- The pool after the threads have taken turns and nothing failed. -/
def afterTurns (w : World) (tasks : List Task) (turns : List Nat) : Tasks :=
  (startPool w tasks).schedule (exec {}) free turns

theorem reaches_afterTurns {ok : Env -> Prop} (hok : ok {}) (w : World)
    (tasks : List Task) (turns : List Nat) :
    Pool.Reaches (system ok) (startPool w tasks)
      (afterTurns w tasks turns) := by
  have hexec : forall c s, Next ok s c (exec {} c s).1 (exec {} c s).2 :=
    fun c s => ⟨{}, hok, rfl⟩
  exact Pool.reaches_schedule (S := system ok) hexec
    (fun _ _ h => enabled_of_free h) _ turns

end Service
end ExpressEcommerce
