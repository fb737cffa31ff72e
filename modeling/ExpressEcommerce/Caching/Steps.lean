import ExpressEcommerce.Caching.Readers

/-!
# What a command of a dutiful task does

One command of a task that keeps to its duty changes the store, the cache and
the duty in one of a few ways.  Every property of the cache is a case analysis
over them.
-/

namespace ExpressEcommerce
namespace Caching

open Foundation
open Store
open Service

/-- The joined order that `getOrderById` asks for. -/
def orderGraph? (db : Database) (id : Int) : Option OrderGraph :=
  (db.order? id true).map (db.graph everything)

def Fetched.From (db : Database) : Fetched -> Prop
  | .order id graph => orderGraph? db id = some graph
  | .product id row => db.products.find? id = some row

/-- One command with the duty before and after it. -/
inductive Turned (w : World) (tx : Tx) :
    Duty -> Cmd -> World -> Tx -> Duty -> Prop where
  | still {duty : Duty} {c : Cmd} {w' : World} {tx' : Tx} (hdb : w'.db = w.db)
      (hcache : w'.cache = w.cache)
      (hindex : w'.index = w.index ∨
        exists rights keys, duty = .owing rights keys ∧ rights.index = true)
      (htx : tx' = tx ∨ tx' = none ∨ tx' = some []) :
      Turned w tx duty c w' tx' duty
  | reserved {rights : Rights} {keys : List String} {c : Cmd}
      (name : TableName) :
      Turned w tx (.owing rights keys) c
        { w with db := w.db.reserve name } tx (.owing rights keys)
  | inserted {rights : Rights} {keys : List String} {w' : World} {tx' : Tx}
      (inTx : Bool) (row : NewRow) (now : Nat)
      (hrecord : (w', tx') = ({ w with db := w.db.reserve row.table } :
        World).record tx inTx (row.write (w.db.nextId row.table) now)) :
      Turned w tx (.owing rights keys) (.insert inTx row) w' tx'
        (.owing rights keys)
  | updated {rights : Rights} {keys : List String} {w' : World} {tx' : Tx}
      (inTx : Bool) (u : Change) (now : Nat)
      (hstock : forall id amount, u = .productStock id amount ->
        rights.stock = true)
      (hrecord : (w', tx') = w.record tx inTx (.update u now)) :
      Turned w tx (.owing rights keys) (.update inTx u) w' tx'
        (.owing rights (clears u ++ keys))
  | committed {rights : Rights} {keys : List String} (log : List Write)
      (hlog : tx = some log) :
      Turned w tx (.owing rights keys) .commit
        { w with db := w.db.writeAll log } none (.owing rights keys)
  | cleared {rights : Rights} {keys : List String} (key : String) :
      Turned w tx (.owing rights keys) (.redisDel key)
        { w with cache := w.cache.del key } tx
        (.owing rights (keys.filter (fun k => decide (k ≠ key))))
  | hit (key : String) (value : CacheValue)
      (hget : w.cache.get key = some value) :
      Turned w tx .asking (.redisGet key) w tx (.seen value)
  | fetched (found : Fetched) (hfrom : found.From w.db) :
      Turned w tx .asking found.select w tx (.holding found)
  | filled (found : Fetched) (text : String)
      (hid : pgInteger? text = some found.id) :
      Turned w tx (.holding found) (.redisSet (found.key text) found.value)
        { w with cache := w.cache.set (found.key text) found.value } tx
        (.filled found)

section Turns

variable {up : Prop} {ok : Env -> Prop} {w w' : World} {tx tx' : Tx}

def Cmd.isIndexing : Cmd -> Bool
  | .indexDoc _ _ => true
  | .deleteDoc _ => true
  | .bulkIndex _ => true
  | _ => false

theorem next_index {c : Cmd} {r : service.Reply c} {s' : World × Tx}
    (hc : Cmd.isIndexing c = false) (h : Next ok (w, tx) c r s') :
    s'.1.index = w.index := by
  rcases h with ⟨env, hok, hexec⟩
  cases c <;> cases hc <;> dsimp only [exec] at hexec <;>
    repeat' split at hexec
  all_goals
    cases hexec
    first | rfl | (unfold World.record; split <;> rfl)

theorem turned_query {inTx : Bool} {q : Query} {rights : Rights}
    {keys : List String} {r : service.Reply (Cmd.query inTx q)}
    (h : Next ok (w, tx) (.query inTx q) r (w', tx')) :
    exists duty', (Duty.owing rights keys).next up (.query inTx q) r duty' ∧
      Turned w tx (.owing rights keys) (.query inTx q) w' tx' duty' := by
  have hstill : Turned w tx (.owing rights keys) (.query inTx q) w tx
      (.owing rights keys) := .still rfl rfl (Or.inl rfl) (Or.inl rfl)
  rcases next_query h with ⟨hs, rfl | ⟨⟨e, rfl⟩, _⟩⟩
  · cases hs
    refine ⟨_, ?_, hstill⟩
    cases q with
    | customerByPk id paranoid =>
        exact ⟨rfl, fun c hc => Database.customer?_key hc⟩
    | _ => rfl
  · cases hs
    refine ⟨_, ?_, hstill⟩
    cases q <;> rfl

theorem turned_aside {c : Cmd} {rights : Rights} {keys : List String}
    {r : service.Reply c} (hc : Cmd.aside c = true)
    (hcache : Cmd.isCaching c = false)
    (hindex : Cmd.isIndexing c = true -> rights.index = true)
    (h : Next ok (w, tx) c r (w', tx')) :
    Turned w tx (.owing rights keys) c w' tx' (.owing rights keys) := by
  rcases next_aside hc h with ⟨hdb, _, htx⟩
  refine .still hdb (next_cache hcache h) ?_ (Or.inl htx)
  cases hkind : Cmd.isIndexing c with
  | true => exact Or.inr ⟨rights, keys, rfl, hindex hkind⟩
  | false => exact Or.inl (next_index hkind h)

theorem turned_owing {c : Cmd} {r : service.Reply c} {rights : Rights}
    {keys : List String}
    (hup : up -> forall key, c = .redisDel key -> ¬ MayFail ok)
    (hmay : (Duty.owing rights keys).may c)
    (h : Next ok (w, tx) c r (w', tx')) :
    exists duty', (Duty.owing rights keys).next up c r duty' ∧
      Turned w tx (.owing rights keys) c w' tx' duty' := by
  have hstill : Turned w tx (.owing rights keys) c w tx
      (.owing rights keys) := .still rfl rfl (Or.inl rfl) (Or.inl rfl)
  cases c with
  | begin =>
      rcases next_begin h with ⟨rfl, hs⟩ | ⟨⟨e, rfl⟩, hs, _⟩
      · cases hs
        exact ⟨_, rfl, .still rfl rfl (Or.inl rfl) (Or.inr (Or.inr rfl))⟩
      · cases hs
        exact ⟨_, rfl, hstill⟩
  | commit =>
      have hdropped : Turned w tx (.owing rights keys) .commit w none
          (.owing rights keys) :=
        .still rfl rfl (Or.inl rfl) (Or.inr (Or.inl rfl))
      cases tx with
      | none =>
          rcases h with ⟨env, _, hexec⟩
          cases hexec
          exact ⟨_, rfl, hdropped⟩
      | some log =>
          rcases next_commit h with ⟨rfl, hs⟩ | ⟨⟨e, rfl⟩, hs, _⟩
          · cases hs
            exact ⟨_, rfl, .committed log rfl⟩
          · cases hs
            exact ⟨_, rfl, hdropped⟩
  | rollback =>
      cases next_rollback h
      refine ⟨.owing rights keys, ?_,
        .still rfl rfl (Or.inl rfl) (Or.inr (Or.inl rfl))⟩
      cases r <;> rfl
  | query inTx q => exact turned_query h
  | insert inTx row =>
      rcases next_insert h with ⟨now, rfl, _, hs⟩ | ⟨⟨e, rfl⟩, hs⟩
      · exact ⟨_, rfl, .inserted inTx row now hs⟩
      · rcases hs with hs | hs
        · cases hs
          exact ⟨_, rfl, hstill⟩
        · cases hs
          exact ⟨_, rfl, .reserved row.table⟩
  | update inTx u =>
      rcases next_update h with ⟨now, rfl, _, hs⟩ | ⟨⟨e, rfl⟩, hs, _⟩
      · refine ⟨_, rfl, .updated inTx u now ?_ hs⟩
        rintro id amount rfl
        exact hmay
      · cases hs
        exact ⟨_, rfl, hstill⟩
  | addJob job =>
      rcases next_addJob h with ⟨rfl, hs⟩ | ⟨⟨e, rfl⟩, hs, _⟩
      · cases hs
        exact ⟨_, rfl, .still rfl rfl (Or.inl rfl) (Or.inl rfl)⟩
      · cases hs
        exact ⟨_, rfl, hstill⟩
  | redisGet key => cases hmay
  | redisSet key value => cases hmay
  | redisDel key =>
      rcases next_redisDel h with ⟨rfl, hs⟩ | ⟨⟨e, rfl⟩, hs, hfail⟩
      · cases hs
        exact ⟨_, rfl, .cleared key⟩
      · cases hs
        exact ⟨_, ⟨fun hyes => hup hyes key rfl hfail, rfl⟩, hstill⟩
  | indexDoc | deleteDoc | bulkIndex =>
      refine ⟨.owing rights keys, ?_,
        turned_aside rfl rfl (fun _ => hmay) h⟩
      cases r <;> rfl
  | indexExists | createIndex | search | bcryptHash | bcryptCompare
  | isEmail =>
      refine ⟨.owing rights keys, ?_,
        turned_aside rfl rfl (fun hno => by cases hno) h⟩
      cases r <;> rfl

theorem turned_asking {c : Cmd} {r : service.Reply c}
    (hmay : Duty.asking.may c) (h : Next ok (w, tx) c r (w', tx')) :
    exists duty', Duty.asking.next up c r duty' ∧
      Turned w tx .asking c w' tx' duty' := by
  have hstill : Turned w tx .asking c w tx .asking :=
    .still rfl rfl (Or.inl rfl) (Or.inl rfl)
  cases c with
  | query inTx q =>
      rcases next_query h with ⟨hs, rfl | ⟨⟨e, rfl⟩, _⟩⟩
      · cases hs
        cases q with
        | customerByPk id paranoid =>
            exact ⟨.asking, ⟨rfl, fun c hc => Database.customer?_key hc⟩,
              hstill⟩
        | orderByPk id paranoid incl =>
            rcases hmay with ⟨rfl, rfl, rfl⟩
            generalize hfound : Query.eval (w.view tx false)
              (.orderByPk id true everything) = found
            cases found with
            | none => exact ⟨.asking, rfl, hstill⟩
            | some graph =>
                exact ⟨.holding (.order id graph), rfl,
                  .fetched (.order id graph) hfound⟩
        | productByPk id paranoid =>
            rcases hmay with ⟨rfl, rfl⟩
            have hsame := Database.product?_false w.db id
            generalize hfound : Query.eval (w.view tx false)
              (.productByPk id false) = found
            cases found with
            | none => exact ⟨.asking, rfl, hstill⟩
            | some row =>
                exact ⟨.holding (.product id row), rfl,
                  .fetched (.product id row) (hsame.symm.trans hfound)⟩
        | _ => cases hmay
      · cases hs
        refine ⟨.asking, ?_, hstill⟩
        cases q <;> rfl
  | redisGet key =>
      rcases next_redisGet h with ⟨hs, rfl | ⟨⟨e, rfl⟩, _⟩⟩
      · cases hs
        cases hget : w.cache.get key with
        | none => exact ⟨.asking, rfl, hstill⟩
        | some value => exact ⟨.seen value, rfl, .hit key value hget⟩
      · cases hs
        exact ⟨.asking, rfl, hstill⟩
  | _ => cases hmay

/-- Whatever a dutiful task does next is one of the turns. -/
theorem turned_step {c : Cmd} {r : service.Reply c} {duty : Duty}
    (hup : up -> forall key, c = .redisDel key -> ¬ MayFail ok)
    (hmay : duty.may c) (h : Next ok (w, tx) c r (w', tx')) :
    exists duty', duty.next up c r duty' ∧
      Turned w tx duty c w' tx' duty' := by
  cases duty with
  | owing rights keys => exact turned_owing hup hmay h
  | asking => exact turned_asking hmay h
  | holding found =>
      cases c with
      | redisSet key value =>
          rcases hmay with ⟨rfl, text, rfl, hid⟩
          rcases next_redisSet h with ⟨rfl, hs⟩ | ⟨⟨e, rfl⟩, hs, _⟩
          · cases hs
            exact ⟨.filled found, rfl, .filled found text hid⟩
          · cases hs
            exact ⟨.holding found, rfl,
              .still rfl rfl (Or.inl rfl) (Or.inl rfl)⟩
      | _ => cases hmay
  | seen value => cases c <;> cases hmay
  | filled found => cases c <;> cases hmay

end Turns

/-!
# Activities

What goes on at the same time: requests, jobs, and keys that expire.
-/

inductive Activity where
  | task (t : Task)
  | expiry (key : String)

namespace Activity

def code : Activity -> Prog service Outcome
  | task t => t.code
  | expiry key =>
      settle (Action.perform (I := service) (Cmd.redisDel key))
        (fun _ => Outcome.returned) Outcome.threw

def duty : Activity -> Duty
  | task t => dutyOf t
  | expiry _ => .owing {} []

def Ended (up : Prop) : Activity -> Outcome -> Duty -> Prop
  | task t => Discharged up t
  | expiry _ => fun _ => Cleared up {}

end Activity

theorem follows_activity (up : Prop) (a : Activity) :
    a.code.wp (duties up) (a.Ended up) a.duty := by
  cases a with
  | task t => exact follows_duty up t
  | expiry key =>
      refine wp_settle.mpr ?_
      exact neat_perform rfl _ ⟨[], rfl, fun _ => rfl⟩

/-- The pool in which all activities are about to start. -/
def busyPool (w : World) (activities : List Activity) : Tasks where
  shared := w
  threads := activities.map (fun a => ⟨none, a.code⟩)

theorem covered_busyPool (up : Prop) (w : World)
    (activities : List Activity) :
    Pool.Covered (duties up)
      (fun i out duty => exists a, activities[i]? = some a ∧
        a.Ended up out duty)
      (busyPool w activities)
      (activities.map (fun a => (a.duty, (none : Tx)))) := by
  refine Pool.covered_start (fun i a ha => ?_)
  exact Prog.wp_mono (fun out duty hended => ⟨a, ha, hended⟩) _
    (follows_activity up a)

end Caching
end ExpressEcommerce
