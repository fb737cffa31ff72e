import ExpressEcommerce.Orders.Symbolic
import ExpressEcommerce.Runs.Sequential

/-!
# Deleting an account

A customer may be deleted when all of their orders are delivered.  The rule is
written twice: the handler counts the other orders, and the hook loads them.
The two agree, but the handler never gets that far: its condition names `Op`,
which the module does not import.
-/

namespace ExpressEcommerce
namespace Accounts

open Foundation
open Store
open Service
open Orders
open Runs
open Foundation.Action

/-- The handler as a function of what the evaluation of the name `Op` does. -/
def softDeleteCustomerWith (operators : Act PUnit) (customerId : Int)
    (idParam : String) : Act Response :=
  ownData customerId idParam
    (tryCatch
      (do
        let id ← integerParam idParam
        let found : Option Customer ← query false (.customerByPk id true)
        match found with
        | none => respond 404 (.error "Customer not found")
        | some customer => do
            operators
            let undeliveredOrders : Nat ← query false (.undeliveredCount id)
            if undeliveredOrders > 0 then
              respond 400 (.error
                "Customer has undelivered orders and cannot be deleted")
            else do
              let _ ← Customer.destroy customer
              respond 200 (.message "Customer deleted successfully"))
      (fun _ => respond 500 (.error "Failed to delete customer")))

/-- In the source the name is not in scope, and nothing after it is executed. -/
theorem softDeleteCustomer_eq (customerId : Int) (idParam : String) :
    softDeleteCustomer customerId idParam =
      softDeleteCustomerWith (throw "Op is not defined") customerId idParam :=
  rfl

def AllDelivered (db : Database) (id : Int) : Prop :=
  forall o, o ∈ db.liveOrders -> o.customerId = id -> o.status = .delivered

def Deleted (w : World) (c : Customer) (w' : World) : Prop :=
  exists now,
    w' = { w with db := w.db.update (.customerDeleted c.id true) now }

/-- The rule, for a request that ends in these ways. -/
structure ByRule (w : World) (c : Customer)
    (Ends : Response -> World -> Prop) : Prop where
  deletes : forall r w', Ends r w' ->
    (r.status = 200 ∧ Deleted w c w' <-> AllDelivered w.db c.id)
  refuses : forall r w', Ends r w' -> ¬ AllDelivered w.db c.id ->
    400 <= r.status ∧ w' = w
  agree : Query.eval w.db (.undeliveredCount c.id) = (0 : Nat) <->
    Query.eval w.db (.undelivered c.id) = ([] : List Order)

/-!
# The two queries
-/

theorem undelivered_eq_nil_iff (db : Database) (id : Int) :
    Query.eval db (.undelivered id) = ([] : List Order) <->
      AllDelivered db id := by
  show db.liveOrders.filter _ = [] <-> _
  rw [List.filter_eq_nil_iff]
  constructor
  · intro h o ho howner
    have hno := h o ho
    simpa [howner] using hno
  · intro h o ho hyes
    simp only [Bool.and_eq_true, decide_eq_true_eq] at hyes
    exact hyes.right (h o ho hyes.left)

theorem undeliveredCount_eq (db : Database) (id : Int) :
    Query.eval db (.undeliveredCount id) =
      (Query.eval db (.undelivered id) : List Order).length := by
  show (db.liveOrders.filter _).length = (db.liveOrders.filter _).length
  apply congrArg List.length
  apply List.filter_congr
  intro o ho
  have hlive := (List.mem_filter.mp ho).right
  rw [hlive, Bool.and_true]

theorem queries_agree (db : Database) (id : Int) :
    Query.eval db (.undeliveredCount id) = (0 : Nat) <->
      Query.eval db (.undelivered id) = ([] : List Order) := by
  rw [undeliveredCount_eq]
  exact List.length_eq_zero_iff

theorem not_deleted_self {w : World} {c : Customer}
    (hc : w.db.customers.find? c.id = some c) (hlive : c.deletedAt = none) :
    ¬ Deleted w c w := by
  rintro ⟨now, hsame⟩
  have hfind := congrArg (fun v : World => v.db.customers.find? c.id) hsame
  dsimp only at hfind
  rw [Database.find?_update_customerDeleted, if_pos rfl, hc] at hfind
  have hdeleted := congrArg Customer.deletedAt (Option.some.inj hfind)
  rw [hlive] at hdeleted
  cases hdeleted

/-!
# With the operators in scope
-/

theorem walk_destroy {w : World} {c : Customer}
    {Q : Customer -> World × Tx -> Prop} {E : String -> World × Tx -> Prop}
    (hlive : c.deletedAt = none)
    (hnone : Query.eval w.db (.undelivered c.id) = ([] : List Order))
    (hQ : forall now, Q { c with deletedAt := some now, updatedAt := now }
      ({ w with db := w.db.update (.customerDeleted c.id true) now }, none)) :
    Action.wp (direct allHealthy) (Customer.destroy c) Q E (w, none) := by
  unfold Customer.destroy
  refine (wp_bind _ _ _).mpr (direct_query rfl ?_ ?_)
  · intro _
    show Action.wp _ (if Query.eval w.db (.undelivered c.id) ≠ [] then _
      else _) _ _ _
    rw [if_neg (fun hne => hne hnone), hlive]
    refine (wp_bind _ _ _).mpr (direct_update ?_ ?_ ?_)
    · intro now _ _
      exact (wp_pure _ _).mpr (hQ now)
    · intro hno
      cases hno
    · intro hmay
      exact absurd hmay not_mayFail_healthy
  · intro hmay
    exact absurd hmay not_mayFail_healthy

theorem walk_softDeleteCustomerWith {w : World} {c : Customer} {text : String}
    {E : String -> World × Tx -> Prop}
    (hc : w.db.customers.find? c.id = some c) (hlive : c.deletedAt = none)
    (hid : pgInteger? text = some c.id) :
    Action.wp (direct allHealthy)
      (softDeleteCustomerWith (pure ()) c.id text)
      (fun r s => if Query.eval w.db (.undeliveredCount c.id) = (0 : Nat)
        then r.status = 200 ∧ Deleted w c s.1
        else r.status = 400 ∧ s.1 = w) E (w, none) := by
  have hfound : Query.eval (w.view none false) (.customerByPk c.id true) =
      some c := by
    show (w.db.customers.find? c.id).filter _ = some c
    rw [hc, Option.filter_some, hlive]
    rfl
  unfold softDeleteCustomerWith ownData integerParam
  rw [jsInteger?_of_pgInteger? hid, if_neg (fun hne => hne rfl), hid]
  refine (wp_tryCatch _ _ _).mpr ((wp_bind _ _ _).mpr ?_)
  refine (wp_pure _ _).mpr ((wp_bind _ _ _).mpr (direct_query rfl ?_ ?_))
  · intro _
    rw [hfound]
    refine (wp_bind _ _ _).mpr ((wp_pure _ _).mpr ?_)
    refine (wp_bind _ _ _).mpr (direct_query rfl ?_ ?_)
    · intro _
      show Action.wp _ (if Query.eval w.db (.undeliveredCount c.id) > 0 then _
        else _) _ _ _
      by_cases hzero : Query.eval w.db (.undeliveredCount c.id) = (0 : Nat)
      · rw [hzero, if_neg (Nat.lt_irrefl 0)]
        have hnone := (queries_agree w.db c.id).mp hzero
        refine (wp_bind _ _ _).mpr (walk_destroy hlive hnone ?_)
        intro now
        refine (wp_pure _ _).mpr ?_
        rw [if_pos rfl]
        exact ⟨rfl, now, rfl⟩
      · rw [if_pos (Nat.pos_of_ne_zero hzero)]
        refine (wp_pure _ _).mpr ?_
        rw [if_neg hzero]
        exact ⟨rfl, rfl⟩
    · intro hmay
      exact absurd hmay not_mayFail_healthy
  · intro hmay
    exact absurd hmay not_mayFail_healthy

/-- With `Op` imported the handler deletes by the rule. -/
theorem repaired_by_rule {w : World} {c : Customer} {text : String}
    (hc : w.db.customers.find? c.id = some c) (hlive : c.deletedAt = none)
    (hid : pgInteger? text = some c.id) :
    ByRule w c (fun r w' => exists tx, Action.Runs (NextIn allHealthy)
      (softDeleteCustomerWith (pure ()) c.id text) (w, none) (.ok r)
      (w', tx)) := by
  have hrule : Query.eval w.db (.undeliveredCount c.id) = (0 : Nat) <->
      AllDelivered w.db c.id :=
    (queries_agree w.db c.id).trans (undelivered_eq_nil_iff w.db c.id)
  constructor
  · intro r w' hends
    rcases hends with ⟨tx, hrun⟩
    have hend := holds_of_wp (walk_softDeleteCustomerWith
      (E := fun _ _ => False) hc hlive hid) hrun
    dsimp only at hend
    rw [← hrule]
    split at hend
    · rename_i hzero
      exact ⟨fun _ => hzero, fun _ => hend⟩
    · rename_i hpos
      constructor
      · intro hdone
        rw [hend.left] at hdone
        exact absurd hdone.left (by decide)
      · intro hzero
        exact absurd hzero hpos
  · intro r w' hends hopen
    rcases hends with ⟨tx, hrun⟩
    have hend := holds_of_wp (walk_softDeleteCustomerWith
      (E := fun _ _ => False) hc hlive hid) hrun
    dsimp only at hend
    rw [if_neg (fun hzero => hopen (hrule.mp hzero))] at hend
    rw [hend.left]
    exact ⟨by decide, hend.right⟩
  · exact queries_agree w.db c.id

/-!
# The handler as it is
-/

/-- A logged-in customer asks for the deletion of their own account. -/
def AsksDeletion (w : World) (c : Customer) (r : Response) (w' : World) :
    Prop :=
  exists text, jsInteger? text = some c.id ∧
    Executes Healthy w (.request (.softDeleteCustomer (.valid c.id) text))
      (.response r) w'

theorem asksDeletion_exists (w : World) (c : Customer) :
    exists r w', AsksDeletion w c r w' := by
  have hexec := executes_perform
    (.request (.softDeleteCustomer (.valid c.id) (toString c.id))) w
  rcases hexec.response with ⟨r, hr⟩
  rw [hr] at hexec
  exact ⟨r, _, toString c.id, jsInteger?_toString c.id, hexec⟩

theorem walk_softDeleteCustomer {ok : Cmd -> Env -> Prop} {w : World}
    {customerId : Int} {text : String} {E : String -> World × Tx -> Prop} :
    Action.wp (direct ok) (softDeleteCustomer customerId text)
      (fun r s => 400 <= r.status ∧ s.1 = w) E (w, none) := by
  have herror : forall (status : Nat) (body : Body), 400 <= status ->
      Action.wp (direct ok) (respond status body)
        (fun r s => 400 <= r.status ∧ s.1 = w) E (w, none) :=
    fun _ _ hstatus => (wp_pure _ _).mpr ⟨hstatus, rfl⟩
  unfold softDeleteCustomer ownData
  split
  · exact herror _ _ (by decide)
  · refine (wp_tryCatch _ _ _).mpr (wp_integerParam ?_ (fun id _ => ?_))
    · intro _ e
      exact herror _ _ (by decide)
    · refine (wp_bind _ _ _).mpr (direct_query rfl ?_ ?_)
      · intro _
        split
        · exact herror _ _ (by decide)
        · exact herror _ _ (by decide)
      · intro _ e
        exact herror _ _ (by decide)

theorem softDeleteCustomer_refuses {ok : Cmd -> Env -> Prop} {w w' : World}
    {token : Token} {text : String} {r : Response}
    (h : ExecutesIn ok w (.request (.softDeleteCustomer token text))
      (.response r) w') : 400 <= r.status ∧ w' = w := by
  have hwp : (Task.request (.softDeleteCustomer token text)).code.wp
      (direct ok) (fun out s => forall r, out = .response r ->
        400 <= r.status ∧ s.1 = w) (w, none) := by
    refine wp_settle.mpr ?_
    show Action.wp _ (validateRequest _ _) _ _ _
    unfold validateRequest
    split
    · refine direct_authenticate ?_ ?_
      · intro r hstatus _ r' hr'
        cases hr'
        exact ⟨by omega, rfl⟩
      · intro c _
        refine wp_mono ?_ ?_ (walk_softDeleteCustomer (E := fun _ _ => False))
        · intro r s hr r' hr'
          cases hr'
          exact hr
        · intro e s hno
          exact False.elim hno
    · refine (wp_pure _ _).mpr ?_
      intro r hr
      cases hr
      exact ⟨Nat.le_of_ble_eq_true rfl, rfl⟩
  rcases executes_of_wp hwp h with ⟨_, hend⟩
  exact hend r rfl

/-- The handler deletes by the rule exactly where it has nothing to delete: some
order of the customer is not delivered. -/
theorem softDelete_by_rule_iff (w : World) (c : Customer)
    (hc : w.db.customers.find? c.id = some c) (hlive : c.deletedAt = none) :
    ByRule w c (AsksDeletion w c) <-> ¬ AllDelivered w.db c.id := by
  constructor
  · intro hrule hall
    rcases asksDeletion_exists w c with ⟨r, w', hasks⟩
    have hdeleted := ((hrule.deletes r w' hasks).mpr hall).right
    rcases hasks with ⟨text, _, hexec⟩
    rw [(softDeleteCustomer_refuses hexec).right] at hdeleted
    exact not_deleted_self hc hlive hdeleted
  · intro hopen
    constructor
    · intro r w' hasks
      rcases hasks with ⟨text, _, hexec⟩
      have hstatus := (softDeleteCustomer_refuses hexec).left
      constructor
      · intro hdone
        omega
      · intro hall
        exact absurd hall hopen
    · intro r w' hasks _
      rcases hasks with ⟨text, _, hexec⟩
      exact softDeleteCustomer_refuses hexec
    · exact queries_agree w.db c.id

/-- The customer of the shop with one order that is on its way. -/
theorem pending_order_keeps_account :
    exists c, shopWithOrder.db.customers.find? 1 = some c ∧
      ByRule shopWithOrder c (AsksDeletion shopWithOrder c) := by
  have hbuyer : shopWithOrder.db.customers.find? 1 =
      some ⟨1, "buyer", "buyer@shop", "digest", 0, 0, none⟩ := by
    decide +kernel
  have hopen : Query.eval shopWithOrder.db (.undeliveredCount 1) =
      (1 : Nat) := by decide +kernel
  refine ⟨_, hbuyer, (softDelete_by_rule_iff _ _ hbuyer rfl).mpr ?_⟩
  rw [← undelivered_eq_nil_iff, ← queries_agree, hopen]
  decide

/-- A customer without orders cannot be deleted. -/
theorem account_without_orders_kept :
    let ended := Task.perform (.request (.softDeleteCustomer (.valid 1) "1"))
      shop
    AllDelivered shop.db 1 ∧
      ended.1 = .response ⟨500, .error "Failed to delete customer"⟩ ∧
      ended.2 = shop := by
  intro ended
  have hnone : Query.eval shop.db (.undelivered 1) = ([] : List Order) := by
    decide +kernel
  have hout : ended.1 = .response ⟨500, .error "Failed to delete customer"⟩ :=
    by decide +kernel
  have hexec := executes_perform
    (.request (.softDeleteCustomer (.valid 1) "1")) shop
  change Executes _ _ _ ended.1 ended.2 at hexec
  rw [hout] at hexec
  exact ⟨(undelivered_eq_nil_iff _ _).mp hnone, hout,
    (softDeleteCustomer_refuses hexec).right⟩

end Accounts
end ExpressEcommerce
