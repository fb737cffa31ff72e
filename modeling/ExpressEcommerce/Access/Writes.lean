import ExpressEcommerce.Runs.Delivered

/-!
# Orders of other customers

A request that writes to orders is authenticated, but only `updateOrder` looks
at the owner of the order it finds.  This module states which orders a request
of one customer may change, and when it keeps to the customer's own.
-/

namespace ExpressEcommerce
namespace Access

open Foundation
open Store
open Service
open Orders
open Products
open Runs

/-- The token of a request that writes to orders. -/
def token? : RunTask -> Option Token
  | .order (.update token _ _) => some token
  | .order (.patch token _ _) => some token
  | .order (.softDelete token _) => some token
  | .order (.restore token _) => some token
  | .order (.statusJob _) => none
  | .order (.cancelJob _) => none
  | .place token _ => some token
  | .product _ => none

def SameOrder (db db' : Database) (id : Int) : Prop :=
  db'.orders.find? id = db.orders.find? id ∧
    db'.itemsOf id false = db.itemsOf id false

/-- The orders that belong to another customer, before or after, are as they
were. -/
def Isolated (customerId : Int) (db db' : Database) : Prop :=
  forall id o, db.orders.find? id = some o ∨ db'.orders.find? id = some o ->
    o.customerId ≠ customerId -> SameOrder db db' id

/-- If the request acts on an order, it is one of the customer's own. -/
def OwnOrder (db : Database) (customerId : Int) : RunTask -> Prop
  | .order t => forall o m, t.effective db = some (o, m) ->
      o.customerId = customerId
  | _ => True

theorem ownOrder_update (db : Database) (customerId : Int) (id : String)
    (status : Option String) :
    OwnOrder db customerId (.order (.update (.valid customerId) id status)) := by
  intro o m heffective
  have hmove := (move_of_effective heffective).right
  rcases Option.bind_eq_some_iff.mp hmove with ⟨c, hc, hfound⟩
  rcases Option.bind_eq_some_iff.mp hfound with ⟨o1, _, hguarded⟩
  have hkey : c.id = customerId := (Table.find?_eq_some_iff.mp hc).right
  split at hguarded
  · cases hguarded
  · rename_i hguard
    rcases Option.bind_eq_some_iff.mp hguarded with ⟨wanted, _, hset⟩
    unfold setMove at hset
    split at hset
    · cases hset
    · cases hset
      rw [← hkey]
      exact Decidable.not_not.mp (not_or.mp hguard).left

/-!
# Moves
-/

theorem itemsOf_of_rows {db db' : Database}
    (h : db'.items.rows = db.items.rows) (id : Int) (paranoid : Bool) :
    db'.itemsOf id paranoid = db.itemsOf id paranoid := by
  unfold Database.itemsOf
  rw [h]

theorem sameOrder_of_replaced {db db' : Database} {o o' : Order} {id : Int}
    (h : Replaced db db' o o') (hid : id ≠ o.id) : SameOrder db db' id := by
  constructor
  · rw [h.find?, if_neg hid]
  · exact itemsOf_of_rows (congrArg Table.rows h.items) id false

theorem row_changes {db db' : Database} {o : Order} {m : Move}
    {items : List OrderItem} (hfound : db.orders.find? o.id = some o)
    (hguard : m.Guard o) (h : Applied db db' o o.status m items) :
    db'.orders.find? o.id ≠ db.orders.find? o.id := by
  rcases h.replaced with ⟨now, deletedAt, hdeleted, hrep⟩
  rw [hrep.find?, if_pos rfl, hfound]
  intro hsame
  have hrow := Option.some.inj hsame
  have hdeletedAt : deletedAt = o.deletedAt := congrArg Order.deletedAt hrow
  rw [hdeletedAt] at hdeleted
  cases m with
  | set status =>
      have hdiff : o.status ≠ status := hguard.right.right
      have hstatus : (if o.status = status then o.status else status) =
          o.status := congrArg Order.status hrow
      rw [if_neg hdiff] at hstatus
      exact hdiff hstatus.symm
  | cancel =>
      rw [hguard.left] at hdeleted
      cases hdeleted
  | reopen =>
      rw [show o.deletedAt.isSome = true from hguard] at hdeleted
      cases hdeleted

theorem owner_of_replaced {db db' : Database} {o o' : Order} {id : Int}
    {row : Order} (hfound : db.orders.find? o.id = some o)
    (h : Replaced db db' o o') (howner : o'.customerId = o.customerId)
    (hid : id = o.id)
    (hrow : db.orders.find? id = some row ∨ db'.orders.find? id = some row) :
    row.customerId = o.customerId := by
  subst hid
  rcases hrow with hrow | hrow
  · rw [hfound] at hrow
    cases hrow
    rfl
  · rw [h.find?, if_pos rfl] at hrow
    cases hrow
    exact howner

/-!
# New orders
-/

theorem itemsOf_placed {db db' : Database} {d : Draft} {now : Nat} {id : Int}
    (h : Placed db db' d now) (hid : id ≠ d.order.id) :
    db'.itemsOf id false = db.itemsOf id false := by
  unfold Database.itemsOf
  rw [h.items, List.filter_append]
  have hnone : d.items.filter (fun i => decide (i.orderId = id) &&
      (!false || i.deletedAt.isNone)) = [] := by
    rw [List.filter_eq_nil_iff]
    intro i hi
    rw [h.owner i hi]
    simp [Ne.symm hid]
  rw [hnone, List.append_nil]

theorem isolated_createOrder {ok : Env -> Prop} {w w' : World}
    {out : Outcome} {customerId : Int} {items : List ItemRequest}
    (h : Executes ok w (.request (.createOrder (.valid customerId) items)) out
      w') :
    Isolated customerId w.db w'.db := by
  rcases executes_createOrder h with ⟨stage, _, hstored, _, _, hsound⟩
  intro id o hrow hother
  cases stage with
  | committed d now =>
      rcases hstored with ⟨mid, hgrows, hplaced⟩
      rcases (hsound d now rfl).right.owner with ⟨c, hc, howner⟩
      have hkey : c.id = customerId := (Table.find?_eq_some_iff.mp hc).right
      have hid : id ≠ d.order.id := by
        rintro rfl
        have hfree := hplaced.free
        rw [find?_of_rows hgrows.orders] at hfree
        rcases hrow with hrow | hrow
        · rw [hfree] at hrow
          cases hrow
        · rw [hplaced.order, if_pos rfl] at hrow
          cases hrow
          exact hother (howner.trans hkey)
      constructor
      · rw [hplaced.order, if_neg hid, find?_of_rows hgrows.orders]
      · rw [itemsOf_placed hplaced hid, itemsOf_of_rows hgrows.items]
  | _ =>
      exact ⟨find?_of_rows hstored.orders id,
        itemsOf_of_rows hstored.items id false⟩

/-!
# Requests
-/

theorem isolated_step {ok : Env -> Prop} {w w' : World} {t : RunTask}
    {out : Outcome} {customerId : Int}
    (htoken : token? t = some (.valid customerId))
    (hown : OwnOrder w.db customerId t)
    (h : Executes ok w t.task out w') : Isolated customerId w.db w'.db := by
  cases t with
  | order t =>
      have hdone : Completes t out := by
        cases t <;> trivial
      rcases executes_performs hdone h with hsame | ⟨o, m, he, hperforms⟩
      · rw [hsame]
        exact fun _ _ _ _ => ⟨rfl, rfl⟩
      · rcases applied_of_effective he hperforms with ⟨_, happlied⟩
        rcases happlied.replaced with ⟨now, deletedAt, _, hrep⟩
        have hfound := (makes_of_effective he).left
        intro id row hrow hother
        refine sameOrder_of_replaced hrep (fun hid => hother ?_)
        rw [owner_of_replaced hfound hrep rfl hid hrow]
        exact hown o m he
  | place token items =>
      cases htoken
      exact isolated_createOrder h
  | product t => cases htoken

/-- For every store, a request of a customer leaves the orders of all other
customers alone in all of its executions exactly when the order it acts on, if
any, belongs to that customer. -/
theorem isolated_iff_ownOrder (w : World) (t : RunTask) (customerId : Int)
    (htoken : token? t = some (.valid customerId)) :
    (forall out w', Executes AnyEnv w t.task out w' ->
      Isolated customerId w.db w'.db) <-> OwnOrder w.db customerId t := by
  constructor
  · intro hisolated
    cases t with
    | order t =>
        intro o m he
        have hexec := executes_after w (.order t)
        rcases makes_of_effective he with ⟨hfound, hmakes⟩
        rcases applied_of_effective he (performs_of_effective he hexec) with
          ⟨_, happlied⟩
        by_contra hother
        have hsame := hisolated _ _ hexec.anyEnv o.id o (Or.inl hfound) hother
        exact row_changes hfound (guard_of_makes hmakes) happlied hsame.left
    | place token items => trivial
    | product t => trivial
  · intro hown out w' hexec
    exact isolated_step htoken hown hexec

/-!
# Two customers
-/

def twoBuyers : World :=
  { shop with
    db :=
      { shopDatabase with
        customers :=
          { rows := [⟨1, "buyer", "buyer@shop", "digest", 0, 0, none⟩,
              ⟨2, "other", "other@shop", "digest", 0, 0, none⟩]
            seq := 3
            nodup := by decide
            below := by decide }
        orderCustomer := by decide } }

/-- The first customer has ordered two pens. -/
def firstOrdered : World :=
  after twoBuyers (.place (.valid 1) [⟨1, 2⟩])

/-- The second customer deletes the order of the first. -/
theorem order_deleted_by_other_customer :
    Executes Healthy firstOrdered
        (RunTask.order (.softDelete (.valid 2) "1")).task
        (.response ⟨200, .message "Order soft-deleted and stock restored"⟩)
        (after firstOrdered (.order (.softDelete (.valid 2) "1"))) ∧
      ¬ Isolated 2 firstOrdered.db
        (after firstOrdered (.order (.softDelete (.valid 2) "1"))).db := by
  constructor
  · exact executes_after firstOrdered (.order (.softDelete (.valid 2) "1"))
  · intro hisolated
    have hsame := hisolated 1 ⟨1, 1, 500, .pending, 0, 0, none⟩
      (Or.inl (by decide)) (by decide)
    exact absurd hsame.left (by decide)

/-- The first customer changes the order, and nothing of another customer. -/
theorem own_order_updated :
    OwnOrder firstOrdered.db 1
        (.order (.update (.valid 1) "1" (some "shipped"))) ∧
      Isolated 1 firstOrdered.db (after firstOrdered
        (.order (.update (.valid 1) "1" (some "shipped")))).db := by
  have hown := ownOrder_update firstOrdered.db 1 "1" (some "shipped")
  have hexec := executes_after firstOrdered
    (.order (.update (.valid 1) "1" (some "shipped")))
  exact ⟨hown, (isolated_iff_ownOrder firstOrdered _ 1 rfl).mpr hown _ _
    hexec.anyEnv⟩

end Access
end ExpressEcommerce
