import ExpressEcommerce.Checkout.Outcome
import ExpressEcommerce.Service.Conduct

/-!
# Owners of open orders

A customer with undelivered orders cannot be deleted, so a deleted customer
should own no open order.  The rule is looked at when the customer is deleted;
a token stays valid after that, and orders can be placed and restored with it.
-/

namespace ExpressEcommerce
namespace Accounts

open Foundation
open Store
open Service
open Orders
open Runs
open Checkout
open Foundation.Action

/-- No deleted customer owns a live order that is not delivered. -/
def OpenOwned (db : Database) : Prop :=
  forall id o c, db.orders.find? id = some o -> o.deletedAt = none ->
    o.status ≠ .delivered -> db.customers.find? o.customerId = some c ->
    c.deletedAt = none

/-- The requests on orders and on the life of a customer. -/
def isOwnership : Request -> Bool
  | .createOrder _ _ => true
  | .updateOrder _ _ _ => true
  | .patchOrderStatus _ _ _ => true
  | .softDeleteOrder _ _ => true
  | .restoreOrder _ _ => true
  | .softDeleteCustomer _ _ => true
  | .restoreCustomer _ _ => true
  | _ => false

/-- An order is placed, or brought back, for a customer that is not deleted. -/
def OwnerLives (db : Database) : Request -> Prop
  | .createOrder token items =>
      forall c, tokenCustomer? db.customers token = some c ->
        accepted db items = true -> c.deletedAt = none
  | .restoreOrder token text =>
      forall o m c, (OrderTask.restore token text).effective db =
        some (o, m) -> db.customers.find? o.customerId = some c ->
        c.deletedAt = none
  | _ => True

/-!
# Statements
-/

theorem openOwned_congr {db db' : Database}
    (hcustomers : db'.customers = db.customers)
    (horders : forall id, db'.orders.find? id = db.orders.find? id)
    (h : OpenOwned db) : OpenOwned db' := by
  intro id o c ho hlive hopen hc
  rw [horders] at ho
  rw [hcustomers] at hc
  exact h id o c ho hlive hopen hc

theorem openOwned_grows {db db' : Database} (hgrows : Grows db db')
    (h : OpenOwned db) : OpenOwned db' := by
  refine openOwned_congr hgrows.customers ?_ h
  intro id
  unfold Table.find?
  rw [hgrows.orders]

theorem openOwned_restored {db : Database} (h : OpenOwned db) (id : Int)
    (now : Nat) : OpenOwned (db.update (.customerDeleted id false) now) := by
  intro oid o c ho hlive hopen hc
  rw [Database.find?_update_customerDeleted] at hc
  split at hc
  · rcases Option.map_eq_some_iff.mp hc with ⟨_, _, rfl⟩
    rfl
  · exact h oid o c ho hlive hopen hc

theorem openOwned_applied {db db' : Database} {o : Order} {m : Move}
    {items : List OrderItem} (hfound : db.orders.find? o.id = some o)
    (happlied : Applied db db' o o.status m items) (hguard : m.Guard o)
    (hreopen : m = .reopen -> forall c,
      db.customers.find? o.customerId = some c -> c.deletedAt = none)
    (h : OpenOwned db) : OpenOwned db' := by
  rcases happlied.replaced with ⟨now, deletedAt, hdeleted, hrep⟩
  intro id r c hr hlive hopen hc
  rw [hrep.customers] at hc
  rw [hrep.find?] at hr
  split at hr
  · cases hr
    cases m with
    | set status =>
        exact h o.id o c hfound hguard.left hguard.right.left hc
    | cancel =>
        rw [show deletedAt = none from hlive] at hdeleted
        cases hdeleted
    | reopen => exact hreopen rfl c hc
  · exact h id r c hr hlive hopen hc

/-!
# Executions
-/

section Executions

variable {w w' : World} {out : Outcome}

theorem move_ne_reopen {t : OrderTask} {db : Database} {o : Order}
    (h : t.move db = some (o, .reopen)) :
    exists token text, t = .restore token text := by
  have hset : forall (r : Order) (status : Status),
      setMove r status ≠ some (o, .reopen) := by
    intro r status hmove
    unfold setMove at hmove
    split at hmove <;> cases hmove
  cases t with
  | restore token text => exact ⟨token, text, rfl⟩
  | update token text status =>
      rcases Option.bind_eq_some_iff.mp h with ⟨c, _, h⟩
      rcases Option.bind_eq_some_iff.mp h with ⟨r, _, h⟩
      split at h
      · cases h
      · rcases Option.bind_eq_some_iff.mp h with ⟨wanted, _, h⟩
        exact absurd h (hset r wanted)
  | patch token text status =>
      rcases Option.bind_eq_some_iff.mp h with ⟨c, _, h⟩
      rcases Option.bind_eq_some_iff.mp h with ⟨r, _, h⟩
      split at h
      · cases h
      · rcases Option.bind_eq_some_iff.mp h with ⟨wanted, _, h⟩
        exact absurd h (hset r wanted)
  | softDelete token text =>
      rcases Option.bind_eq_some_iff.mp h with ⟨c, _, h⟩
      rcases Option.bind_eq_some_iff.mp h with ⟨r, _, h⟩
      split at h <;> cases h
  | statusJob job =>
      rcases Option.bind_eq_some_iff.mp h with ⟨r, _, h⟩
      split at h
      · cases h
      · exact absurd h (hset r _)
  | cancelJob id =>
      rcases Option.bind_eq_some_iff.mp h with ⟨r, _, h⟩
      split at h <;> cases h

theorem move_restore {token : Token} {text : String} {db : Database}
    {o : Order} {m : Move}
    (h : (OrderTask.restore token text).move db = some (o, m)) :
    m = .reopen := by
  rcases Option.bind_eq_some_iff.mp h with ⟨c, _, h⟩
  rcases Option.bind_eq_some_iff.mp h with ⟨r, _, h⟩
  split at h
  · cases h
  · cases h
    rfl

theorem openOwned_order {ok : Env -> Prop} {t : OrderTask}
    (hinv : OpenOwned w.db)
    (hlives : forall o c, t.effective w.db = some (o, .reopen) ->
      w.db.customers.find? o.customerId = some c -> c.deletedAt = none)
    (hdone : Completes t out) (h : Executes ok w t.task out w') :
    OpenOwned w'.db := by
  rcases executes_performs hdone h with hsame | ⟨o, m, heffective, hperforms⟩
  · rw [hsame]
    exact hinv
  · rcases applied_of_effective heffective hperforms with ⟨_, happlied⟩
    rcases guard_of_move (move_of_effective heffective).right with
      ⟨hfound, hguard⟩
    refine openOwned_applied hfound happlied hguard ?_ hinv
    intro hm c hc
    subst hm
    exact hlives o c heffective hc

theorem openOwned_others {ok : Env -> Prop} {t : OrderTask}
    (hinv : OpenOwned w.db) (ht : forall token text, t ≠ .restore token text)
    (hdone : Completes t out) (h : Executes ok w t.task out w') :
    OpenOwned w'.db := by
  refine openOwned_order hinv ?_ hdone h
  intro o c heffective _
  rcases move_ne_reopen (move_of_effective heffective).right with
    ⟨token, text, hrestore⟩
  exact absurd hrestore (ht token text)

theorem committed_order {ok : Cmd -> Env -> Prop} {customerId : Int}
    {items : List ItemRequest} (h : Committed ok w customerId items w') :
    w'.db.customers = w.db.customers ∧
      exists o : Order, o.customerId = customerId ∧ o.deletedAt = none ∧
        o.status = .pending ∧
        forall id, w'.db.orders.find? id =
          if id = o.id then some o else w.db.orders.find? id := by
  rcases h.placed with ⟨mid, d, now, hgrows, hfresh, hdb, hopened, _⟩
  have hplaced : Placed mid w'.db d now := by
    rw [hdb]
    exact placed_of_fresh hfresh
  rcases hopened with ⟨at_, horder⟩
  have hkey : (d.placed now).id = d.order.id := rfl
  refine ⟨hplaced.customers.trans hgrows.customers, d.placed now, ?_, ?_, ?_,
    ?_⟩
  · unfold Draft.placed
    rw [horder]
  · unfold Draft.placed
    rw [horder]
  · unfold Draft.placed
    rw [horder]
  · intro id
    rw [hplaced.order, hkey]
    split
    · rfl
    · unfold Table.find?
      rw [hgrows.orders]

theorem openOwned_place {ok : Cmd -> Env -> Prop} {token : Token}
    {items : List ItemRequest} (hinv : OpenOwned w.db)
    (hlives : OwnerLives w.db (.createOrder token items))
    (h : ExecutesIn ok w (.request (.createOrder token items)) out w') :
    OpenOwned w'.db := by
  rcases executes_checkout h with ⟨r, _, hends⟩
  cases hends with
  | unknown _ hsame _ =>
      rw [hsame]
      exact hinv
  | rejected c _ _ h => exact openOwned_grows h.grows hinv
  | rolledBack c _ _ h => exact openOwned_grows h.grows hinv
  | committed c hc _ hcommitted =>
      rcases committed_order hcommitted with
        ⟨hcustomers, o, howner, _, _, hfind⟩
      have hlive := hlives c hc
        (accepted_iff.mpr ⟨hcommitted.covered, hcommitted.fits⟩)
      intro id r owner hr hdel hopen howns
      rw [hcustomers] at howns
      rw [hfind] at hr
      split at hr
      · cases hr
        rw [howner, find?_of_tokenCustomer? hc] at howns
        cases howns
        exact hlive
      · exact hinv id r owner hr hdel hopen howns

/-!
# Customers
-/

def Kept (s : World × Tx) : Prop :=
  s.2 = none ∧ OpenOwned s.1.db

theorem calm_kept {ok : Cmd -> Env -> Prop} : Calm (direct ok) Kept := by
  intro c hc s hs
  refine wp_command trivial ?_ ?_
  · intro a s' hnext
    rw [next_calm hc hnext]
    exact hs
  · intro e s' hnext
    rw [next_calm hc hnext]
    exact hs

theorem keeps_customerRestored {ok : Cmd -> Env -> Prop} (id : Int) :
    Keeps (direct ok) Kept (update false (.customerDeleted id false)) := by
  intro s hs
  rcases s with ⟨v, tx⟩
  refine direct_update ?_ (fun _ _ => hs) (fun _ _ => hs)
  intro now _ _
  exact ⟨hs.left, openOwned_restored hs.right id now⟩

theorem openOwned_of_keeps {ok : Cmd -> Env -> Prop} {req : Request}
    (hkeeps : Keeps (direct ok) Kept (handle req)) (hinv : OpenOwned w.db)
    (h : ExecutesIn ok w (.request req) out w') : OpenOwned w'.db := by
  have hwp : (Task.request req).code.wp (direct ok) (fun _ s => Kept s)
      (w, none) := wp_settle.mpr (hkeeps (w, none) ⟨rfl, hinv⟩)
  rcases executes_of_wp hwp h with ⟨_, hkept⟩
  exact hkept.right

end Executions

/-!
# The rule
-/

theorem ownerLives_of_kept {w : World} {req : Request}
    (hkept : forall out w', Executes Healthy w (.request req) out w' ->
      OpenOwned w'.db) : OwnerLives w.db req := by
  have hrun := executes_perform (.request req) w
  have hinv := hkept _ _ hrun
  cases req with
  | createOrder token items =>
      intro c hc haccepted
      rcases committed_order (placed_of_accepted hc haccepted hrun) with
        ⟨hcustomers, o, howner, hlive, hstatus, hfind⟩
      refine hinv o.id o c ?_ hlive ?_ ?_
      · rw [hfind, if_pos rfl]
      · rw [hstatus]
        intro hno
        cases hno
      · rw [hcustomers, howner]
        exact find?_of_tokenCustomer? hc
  | restoreOrder token text =>
      intro o m c heffective hc
      have hexec : Executes Healthy w (OrderTask.restore token text).task _ _ :=
        hrun
      have hperforms := performs_of_effective heffective hexec
      rcases applied_of_effective heffective hperforms with ⟨_, happlied⟩
      rcases happlied.replaced with ⟨now, deletedAt, hdeleted, hrep⟩
      have hm := move_restore (move_of_effective heffective).right
      subst hm
      have hstatus : (if o.status = Move.reopen.status then o.status
          else Move.reopen.status) = Status.pending := by
        by_cases hpending : o.status = Move.reopen.status
        · rw [if_pos hpending, hpending]
          rfl
        · rw [if_neg hpending]
          rfl
      rw [hstatus] at hrep
      refine hinv _ _ c (hrep.find?_self rfl) ?_ ?_ ?_
      · cases deletedAt with
        | none => rfl
        | some at_ => cases hdeleted
      · intro hdelivered
        cases hdelivered
      · rw [hrep.customers]
        exact hc
  | _ => trivial

/-- A request keeps deleted customers without open orders, exactly when it does
not place or restore an order of a deleted customer. -/
theorem open_orders_owned_iff {w : World} {req : Request}
    (hreq : isOwnership req = true) (hinv : OpenOwned w.db) :
    (forall out w', Executes AnyEnv w (.request req) out w' ->
      OpenOwned w'.db) <-> OwnerLives w.db req := by
  constructor
  · intro hkept
    apply ownerLives_of_kept
    intro out w' h
    exact hkept out w' h.anyEnv
  · intro hlives out w' h
    cases req with
    | createOrder token items => exact openOwned_place hinv hlives h
    | updateOrder token text status =>
        exact openOwned_others (t := .update token text status) hinv
          (fun _ _ heq => by cases heq) trivial h
    | patchOrderStatus token text status =>
        exact openOwned_others (t := .patch token text status) hinv
          (fun _ _ heq => by cases heq) trivial h
    | softDeleteOrder token text =>
        exact openOwned_others (t := .softDelete token text) hinv
          (fun _ _ heq => by cases heq) trivial h
    | restoreOrder token text =>
        exact openOwned_order (t := .restore token text) hinv
          (fun o c heffective hc => hlives o _ c heffective hc) trivial h
    | softDeleteCustomer token text =>
        exact openOwned_of_keeps (keeps_handle_looks calm_kept rfl) hinv h
    | restoreCustomer token text =>
        refine openOwned_of_keeps (keeps_validateRequest
          (keeps_authenticated calm_kept ?_ _ _ _ _) _) hinv h
        exact fun _ => keeps_restoreCustomer calm_kept keeps_customerRestored _ _
    | _ => cases hreq

theorem openOwned_of_no_orders {db : Database} (h : db.orders.rows = []) :
    OpenOwned db := by
  intro id o c ho
  rw [Table.find?_eq_some_iff, h] at ho
  cases ho.left

/-- The shop after its customer has been deleted. -/
def shopClosed : World :=
  { shop with db := shop.db.update (.customerDeleted 1 true) 0 }

/-- A token outlives the account: the deleted customer orders a pen. -/
theorem deleted_customer_places_order :
    let task : Task := .request (.createOrder (.valid 1) [⟨1, 1⟩])
    let final := (task.perform shopClosed).2
    OpenOwned shopClosed.db ∧
      Executes AnyEnv shopClosed task (task.perform shopClosed).1 final ∧
      (final.db.orders.find? 1).map Order.customerId = some 1 ∧
      (final.db.orders.find? 1).map Order.status = some .pending ∧
      (final.db.orders.find? 1).map Order.deletedAt = some none ∧
      (final.db.customers.find? 1).map Customer.deletedAt =
        some (some 0) := by
  intro task final
  refine ⟨openOwned_of_no_orders rfl, (executes_perform task _).anyEnv, ?_,
    ?_, ?_, ?_⟩
  · decide +kernel
  · decide +kernel
  · decide +kernel
  · decide +kernel

/-- With the account in place, the order may be placed. -/
theorem live_customer_places_order :
    let task : Task := .request (.createOrder (.valid 1) [⟨1, 1⟩])
    OwnerLives shop.db (.createOrder (.valid 1) [⟨1, 1⟩]) ∧
      OpenOwned (task.perform shop).2.db := by
  intro task
  have hlives : OwnerLives shop.db (.createOrder (.valid 1) [⟨1, 1⟩]) := by
    intro c hc _
    cases hc
    rfl
  refine ⟨hlives, ?_⟩
  exact (open_orders_owned_iff rfl (openOwned_of_no_orders rfl)).mpr hlives _
    _ (executes_perform task shop).anyEnv

end Accounts
end ExpressEcommerce
