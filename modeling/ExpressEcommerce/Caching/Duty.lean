import ExpressEcommerce.Service.Execution

/-!
# Who fills the cache and who clears it

Two handlers fill the cache, each with what it has just read from the store.
All others only clear keys: the hooks of the models do it after every `UPDATE`
of an order and after every `UPDATE` of a product that is not a relative one.
The duty of a task is what it still has to clear, or what it may fill the cache
with; this module states it as a protocol with the rules for single commands.
-/

namespace ExpressEcommerce
namespace Caching

open Foundation
open Store
open Service

/-- The keys that the hooks clear after a statement.  Increments and decrements
run no hooks, and customers and items have none that clear a key. -/
def clears : Change -> List String
  | .orderStatus id _ => [orderKey id]
  | .orderTotal id _ => [orderKey id]
  | .orderDeleted id _ => [orderKey id]
  | .productFields id _ => [productKey id]
  | .productDeleted id _ => [productKey id]
  | _ => []

/-- What a reader has found in the store. -/
inductive Fetched where
  | order (id : Int) (graph : OrderGraph)
  | product (id : Int) (row : Product)

namespace Fetched

def id : Fetched -> Int
  | order id _ => id
  | product id _ => id

def value : Fetched -> CacheValue
  | order _ graph => .order (fullOrder graph)
  | product _ row => .product row.toJSON

def select : Fetched -> Cmd
  | order id _ => .query false (.orderByPk id true everything)
  | product id _ => .query false (.productByPk id false)

def key (text : String) : Fetched -> String
  | order _ _ => "order:" ++ text
  | product _ _ => "product:" ++ text

end Fetched

/-- What a writer may do besides clearing keys. -/
structure Rights where
  stock : Bool := false
  index : Bool := false
  deriving DecidableEq, Repr

inductive Duty where
  | owing (rights : Rights) (keys : List String)
  | asking
  | seen (value : CacheValue)
  | holding (found : Fetched)
  | filled (found : Fetched)

namespace Duty

def may : Duty -> Cmd -> Prop
  | owing _ _, .redisGet _ => False
  | owing _ _, .redisSet _ _ => False
  | owing rights _, .update _ (.productStock _ _) => rights.stock = true
  | owing rights _, .indexDoc _ _ => rights.index = true
  | owing rights _, .deleteDoc _ => rights.index = true
  | owing rights _, .bulkIndex _ => rights.index = true
  | owing _ _, _ => True
  | asking, .query inTx (.orderByPk _ paranoid incl) =>
      inTx = false ∧ paranoid = true ∧ incl = everything
  | asking, .query inTx (.productByPk _ paranoid) =>
      inTx = false ∧ paranoid = false
  | asking, .query inTx (.customerByPk _ _) => inTx = false
  | asking, .redisGet _ => True
  | holding found, .redisSet key value =>
      value = found.value ∧ exists text, key = found.key text ∧
        pgInteger? text = some found.id
  | _, _ => False

/-- The flag says that no call to Redis fails. -/
def next (up : Prop) (duty : Duty) :
    (c : Cmd) -> service.Reply c -> Duty -> Prop
  | .query _ (.customerByPk id _), .ok found, duty' =>
      duty' = duty ∧ forall c, found = some c -> c.id = id
  | .query _ (.orderByPk id _ _), .ok found, duty' =>
      match duty, found with
      | asking, some graph => duty' = holding (.order id graph)
      | _, _ => duty' = duty
  | .query _ (.productByPk id _), .ok found, duty' =>
      match duty, found with
      | asking, some row => duty' = holding (.product id row)
      | _, _ => duty' = duty
  | .redisGet _, .ok found, duty' =>
      match found with
      | some value => duty' = seen value
      | none => duty' = duty
  | .redisSet _ _, .ok _, duty' =>
      match duty with
      | holding found => duty' = filled found
      | _ => duty' = duty
  | .redisDel key, .ok _, duty' =>
      match duty with
      | owing rights keys =>
          duty' = owing rights (keys.filter (fun k => decide (k ≠ key)))
      | _ => duty' = duty
  | .redisDel _, .error _, duty' => ¬ up ∧ duty' = duty
  | .update _ u, .ok _, duty' =>
      match duty with
      | owing rights keys => duty' = owing rights (clears u ++ keys)
      | _ => duty' = duty
  | _, _, duty' => duty' = duty

def isReading : Duty -> Bool
  | owing _ _ => false
  | _ => true

end Duty

def duties (up : Prop) : Protocol service Duty where
  may := Duty.may
  next := Duty.next up

/-!
# Actions that leave nothing to clear
-/

section Rules

variable {up : Prop} {rights : Rights} {alpha beta : Type}

def Cleared (up : Prop) (rights : Rights) (duty : Duty) : Prop :=
  exists keys, duty = .owing rights keys ∧ (up -> keys = [])

/-- An action that clears the keys of whatever it writes. -/
abbrev Neat (up : Prop) (rights : Rights) (x : Act alpha) : Prop :=
  Action.Keeps (duties up) (Cleared up rights) x

def harmless (rights : Rights) : Cmd -> Bool
  | .redisGet _ => false
  | .redisSet _ _ => false
  | .update _ (.productStock _ _) => rights.stock
  | .update _ u => (clears u).isEmpty
  | .indexDoc _ _ => rights.index
  | .deleteDoc _ => rights.index
  | .bulkIndex _ => rights.index
  | _ => true

theorem may_of_harmless {keys : List String} {c : Cmd}
    (hc : harmless rights c = true) : (Duty.owing rights keys).may c := by
  cases c with
  | update inTx u =>
      cases u with
      | productStock id amount => exact hc
      | _ => trivial
  | redisGet | redisSet => cases hc
  | indexDoc | deleteDoc | bulkIndex => exact hc
  | _ => trivial

theorem cleared_filter {keys : List String} {key : String}
    (h : up -> keys = []) :
    Cleared up rights
      (.owing rights (keys.filter (fun k => decide (k ≠ key)))) := by
  refine ⟨_, rfl, fun hup => ?_⟩
  rw [h hup]
  rfl

theorem neat_perform {c : Cmd} (hc : harmless rights c = true) :
    Neat up rights (Action.perform (I := service) c) := by
  rintro _ ⟨keys, rfl, hkeys⟩
  have hsame : Cleared up rights (.owing rights keys) := ⟨keys, rfl, hkeys⟩
  have hupdate : forall {u : Change}, (clears u).isEmpty = true ->
      Cleared up rights (.owing rights (clears u ++ keys)) := by
    intro u hu
    rw [List.isEmpty_iff.mp hu]
    exact hsame
  refine Action.wp_command (may_of_harmless hc) ?_ ?_
  · intro a duty' hnext
    cases c with
    | query inTx q =>
        cases q with
        | customerByPk id paranoid =>
            rcases hnext with ⟨rfl, _⟩
            exact hsame
        | _ =>
            cases hnext
            exact hsame
    | redisGet key => cases hc
    | redisSet key value => cases hc
    | redisDel key =>
        cases hnext
        exact cleared_filter hkeys
    | update inTx u =>
        cases hnext
        cases u with
        | productStock id amount => exact hsame
        | _ => exact hupdate hc
    | _ =>
        cases hnext
        exact hsame
  · intro e duty' hnext
    cases c with
    | query inTx q =>
        cases q <;> cases hnext <;> exact hsame
    | redisDel key =>
        rcases hnext with ⟨_, rfl⟩
        exact hsame
    | _ =>
        cases hnext
        exact hsame

/-!
# Statements whose keys are cleared afterwards
-/

/-- The state between a statement and the call that clears its key. -/
def Owes (up : Prop) (rights : Rights) (key : String) (duty : Duty) : Prop :=
  exists keys, duty = .owing rights keys ∧
    (up -> forall k, k ∈ keys -> k = key)

theorem wp_update_owes {inTx : Bool} {u : Change} {key : String}
    {Q : Nat -> Duty -> Prop} {E : String -> Duty -> Prop} {duty : Duty}
    (hu : clears u = [key]) (h : Cleared up rights duty)
    (hok : forall now d, Owes up rights key d -> Q now d)
    (herr : forall e d, Cleared up rights d -> E e d) :
    Action.wp (duties up) (Service.update inTx u) Q E duty := by
  rcases h with ⟨keys, rfl, hkeys⟩
  refine Action.wp_command ?_ ?_ ?_
  · cases u <;> trivial
  · rintro now _ rfl
    refine hok now _ ⟨_, rfl, fun hup k hk => ?_⟩
    rw [hu, hkeys hup] at hk
    exact List.mem_singleton.mp hk
  · rintro e _ rfl
    exact herr e _ ⟨keys, rfl, hkeys⟩

theorem wp_clear {key : String} {Q : Unit -> Duty -> Prop}
    {E : String -> Duty -> Prop} {duty : Duty} (h : Owes up rights key duty)
    (hok : forall d, Cleared up rights d -> Q () d) :
    Action.wp (duties up)
      (tryCatch (Action.perform (I := service) (Cmd.redisDel key))
        (fun _ => pure ())) Q E duty := by
  rcases h with ⟨keys, rfl, hkeys⟩
  refine (Action.wp_tryCatch _ _ _).mpr ?_
  refine Action.wp_command trivial ?_ ?_
  · rintro _ _ rfl
    refine hok _ ⟨_, rfl, fun hup => ?_⟩
    rw [List.filter_eq_nil_iff]
    intro k hk
    simp [hkeys hup k hk]
  · rintro e _ ⟨hdown, rfl⟩
    exact hok _ ⟨keys, rfl, fun hup => absurd hup hdown⟩

theorem neat_save {inTx : Bool} {u : Change} {key : String}
    {f : Nat -> Act alpha} (hu : clears u = [key])
    (hf : forall now, Neat up rights (f now)) :
    Neat up rights (do
      let now ← Service.update inTx u
      tryCatch (Action.perform (I := service) (Cmd.redisDel key))
        (fun _ => pure ())
      f now) := by
  intro duty h
  rw [Action.wp_bind]
  refine wp_update_owes hu h (fun now d hd => ?_) (fun _ _ hd => hd)
  rw [Action.wp_bind]
  exact wp_clear hd (fun d hd => hf now d hd)

end Rules

end Caching
end ExpressEcommerce
