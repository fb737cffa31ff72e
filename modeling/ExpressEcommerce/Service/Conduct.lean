import ExpressEcommerce.Service.Execution

/-!
# Handlers and their parts

Most handlers read the store and answer.  Whatever protocol and whatever
predicate on its states is at hand: if the commands that only look keep the
predicate, then these handlers keep it, and the middlewares keep it around any
handler that does.  The handlers that write keep it if their statements do.
-/

namespace ExpressEcommerce
namespace Service

open Foundation
open Store
open Foundation.Action

def calm : Cmd -> Bool
  | .query inTx _ => !inTx
  | .search _ => true
  | .bcryptHash _ => true
  | .bcryptCompare _ _ => true
  | .isEmail _ => true
  | _ => false

theorem next_calm {ok : Env -> Prop} {c : Cmd} {r : service.Reply c}
    {s s' : World × Tx} (hc : calm c = true) (h : Next ok s c r s') :
    s' = s := by
  rcases h with ⟨env, _, hexec⟩
  rcases s with ⟨w, tx⟩
  cases c with
  | query inTx q =>
      dsimp only [exec] at hexec
      split at hexec
      · cases hexec
        rfl
      · split at hexec <;> cases hexec <;> rfl
  | search | bcryptHash | bcryptCompare =>
      dsimp only [exec] at hexec
      split at hexec <;> cases hexec <;> rfl
  | isEmail text =>
      cases hexec
      rfl
  | _ => cases hc

variable {sigma : Type} {P : Protocol service sigma} {J : sigma -> Prop}

def Calm (P : Protocol service sigma) (J : sigma -> Prop) : Prop :=
  forall c, calm c = true -> Keeps P J (perform (I := service) c)

theorem keeps_respond (status : Nat) (body : Body) :
    Keeps P J (respond status body) :=
  keeps_pure _

theorem keeps_integerParam (text : String) :
    Keeps P J (integerParam text) := by
  unfold integerParam
  split
  · exact keeps_throw _
  · exact keeps_pure _

section Calm

variable (hcalm : Calm P J)

include hcalm

theorem keeps_query (q : Query) : Keeps P J (query false q) :=
  hcalm (.query false q) rfl

/-!
# Orders
-/

theorem keeps_getAllOrders (page : PageQuery) :
    Keeps P J (getAllOrders page) :=
  keeps_tryCatch (keeps_bind (keeps_query hcalm _) (fun _ => keeps_pure _))
    (fun _ => keeps_respond _ _)

theorem keeps_getOrdersByStatus (customerId : Int) (status : String)
    (page : PageQuery) :
    Keeps P J (getOrdersByStatus customerId status page) := by
  unfold getOrdersByStatus
  split
  · exact keeps_respond _ _
  · exact keeps_tryCatch
      (keeps_bind (keeps_query hcalm _) (fun _ => keeps_pure _))
      (fun _ => keeps_respond _ _)

theorem keeps_getOrdersByCustomer (customerId : Int) (idParam : String)
    (page : PageQuery) :
    Keeps P J (getOrdersByCustomer customerId idParam page) := by
  unfold getOrdersByCustomer
  split
  · exact keeps_respond _ _
  · refine keeps_tryCatch (keeps_bind (keeps_integerParam _) (fun id => ?_))
      (fun _ => keeps_respond _ _)
    refine keeps_bind (keeps_query hcalm _) (fun found => ?_)
    cases found with
    | none => exact keeps_respond _ _
    | some c =>
        exact keeps_bind (keeps_query hcalm _) (fun _ => keeps_pure _)

/-!
# Products
-/

theorem keeps_getAllProducts (page : PageQuery) :
    Keeps P J (getAllProducts page) :=
  keeps_tryCatch (keeps_bind (keeps_query hcalm _) (fun _ => keeps_pure _))
    (fun _ => keeps_respond _ _)

theorem keeps_searchProducts (text : Option String) :
    Keeps P J (searchProducts text) := by
  unfold searchProducts
  split
  · exact keeps_respond _ _
  · rename_i text _
    exact keeps_tryCatch (keeps_bind (hcalm (.search text) rfl)
      (fun _ => keeps_respond _ _)) (fun _ => keeps_respond _ _)

/-!
# Customers
-/

omit hcalm in
theorem keeps_ownData {handler : Act Response} (h : Keeps P J handler)
    (customerId : Int) (idParam : String) :
    Keeps P J (ownData customerId idParam handler) := by
  unfold ownData
  split
  · exact keeps_respond _ _
  · exact h

theorem keeps_getCustomerById (customerId : Int) (idParam : String) :
    Keeps P J (getCustomerById customerId idParam) := by
  refine keeps_ownData (keeps_tryCatch
    (keeps_bind (keeps_integerParam _) (fun id => ?_))
    (fun _ => keeps_respond _ _)) _ _
  refine keeps_bind (keeps_query hcalm _) (fun found => ?_)
  cases found <;> exact keeps_respond _ _

theorem keeps_getAllCustomers (page : PageQuery) :
    Keeps P J (getAllCustomers page) :=
  keeps_tryCatch (keeps_bind (keeps_query hcalm _) (fun _ => keeps_pure _))
    (fun _ => keeps_respond _ _)

theorem keeps_softDeleteCustomer (customerId : Int) (idParam : String) :
    Keeps P J (softDeleteCustomer customerId idParam) := by
  refine keeps_ownData (keeps_tryCatch
    (keeps_bind (keeps_integerParam _) (fun id => ?_))
    (fun _ => keeps_respond _ _)) _ _
  refine keeps_bind (keeps_query hcalm _) (fun found => ?_)
  cases found with
  | none => exact keeps_respond _ _
  | some customer =>
      -- the evaluation of `Op` throws before anything is written
      exact keeps_throw _

theorem keeps_beforeUpdate (patch : CustomerPatch) :
    Keeps P J (Customer.beforeUpdate patch) := by
  unfold Customer.beforeUpdate
  split
  · exact keeps_pure _
  · rename_i password _
    exact keeps_bind (hcalm (.bcryptHash password) rfl)
      (fun _ => keeps_pure _)

theorem keeps_loginCustomer (body : CustomerBody) :
    Keeps P J (loginCustomer body) := by
  refine keeps_tryCatch ?_ (fun _ => keeps_respond _ _)
  split
  · rename_i email password _ _
    refine keeps_bind (keeps_query hcalm _) (fun found => ?_)
    cases found with
    | none => exact keeps_respond _ _
    | some customer =>
        refine keeps_bind (hcalm (.bcryptCompare password _) rfl)
          (fun isMatch => ?_)
        split
        · exact keeps_respond _ _
        · exact keeps_respond _ _
  · exact keeps_respond _ _

/-!
# Middlewares
-/

theorem keeps_authenticated {next : Customer -> Act Response}
    (h : forall c, Keeps P J (next c)) (token : Token)
    (noToken badToken noCustomer : String) :
    Keeps P J (authenticated token noToken badToken noCustomer next) := by
  cases token with
  | missing => exact keeps_respond _ _
  | invalid => exact keeps_respond _ _
  | valid id =>
      refine keeps_bind (keeps_tryCatch
        (keeps_bind (keeps_query hcalm _) (fun _ => keeps_pure _))
        (fun _ => keeps_pure _)) (fun found => ?_)
      rcases found with e | ⟨_ | c⟩
      · exact keeps_respond _ _
      · exact keeps_respond _ _
      · exact h c

omit hcalm in
theorem keeps_validateRequest {next : Act Response} (h : Keeps P J next)
    (errors : List (String × String)) :
    Keeps P J (validateRequest errors next) := by
  unfold validateRequest
  split
  · exact h
  · exact keeps_respond _ _

theorem keeps_emailVerdict (body : CustomerBody) :
    Keeps P J (emailVerdict body) := by
  unfold emailVerdict
  split
  · exact keeps_pure _
  · rename_i text _
    exact hcalm (.isEmail text) rfl

end Calm

/-!
# Handlers that write orders

A handler that writes keeps whatever its statements keep.
-/

section Orders

structure StatusParts (P : Protocol service sigma) (J : sigma -> Prop) :
    Prop where
  find : forall inTx id paranoid items,
    Keeps P J (query inTx (.orderByPk id paranoid { items := items }))
  clear : forall id, Keeps P J (invalidateOrderCache id)
  saveStatus : forall inTx order status,
    Keeps P J (Order.saveStatus inTx order status)
  addJob : forall job, Keeps P J (perform (I := service) (Cmd.addJob job))

structure StockParts (P : Protocol service sigma) (J : sigma -> Prop) : Prop
    extends StatusParts P J where
  opens : Keeps P J begin
  commits : Keeps P J commit
  rollsBack : Keeps P J rollback
  products : forall ids, Keeps P J (query false (.productsById ids))
  newOrder : forall customerId total status,
    Keeps P J (insert true (.order customerId total status))
  newItem : forall orderId productId quantity price,
    Keeps P J (insert true (.item orderId productId quantity price))
  saveTotal : forall inTx order total,
    Keeps P J (Order.saveTotal inTx order total)
  move : forall inTx productId amount,
    Keeps P J (Product.incrementStock inTx productId amount)
  destroy : forall inTx order, Keeps P J (Order.destroy inTx order)
  restore : forall inTx order, Keeps P J (Order.restore inTx order)
  restoreItem : forall inTx id,
    Keeps P J (update inTx (.itemDeleted id false))

theorem keeps_detached {x : Act Unit} (h : Keeps P J x) :
    Keeps P J (detached x) :=
  keeps_tryCatch h (fun _ => keeps_pure _)

section Status

variable (parts : StatusParts P J)

include parts

theorem keeps_schedule (orderId : Int) (status : Option Status) :
    Keeps P J (scheduleStatusUpdateJob orderId status) := by
  unfold scheduleStatusUpdateJob
  split
  · exact keeps_pure _
  · exact parts.addJob _

theorem keeps_updateOrder (customerId : Int) (idParam : String)
    (status : Option String) :
    Keeps P J (updateOrder customerId idParam status) := by
  refine keeps_tryCatch (keeps_bind (keeps_integerParam _) (fun id => ?_))
    (fun _ => keeps_respond _ _)
  refine keeps_bind (parts.find _ _ _ _) (fun found => ?_)
  cases found with
  | none => exact keeps_respond _ _
  | some graph =>
      dsimp only
      split
      · exact keeps_respond _ _
      · split
        · exact keeps_respond _ _
        · split
          · exact keeps_respond _ _
          · exact keeps_bind (parts.saveStatus _ _ _)
              (fun _ => keeps_respond _ _)

theorem keeps_patchOrderStatus (idParam : String) (status : Option String) :
    Keeps P J (patchOrderStatus idParam status) := by
  refine keeps_tryCatch (keeps_bind (keeps_integerParam _) (fun id => ?_))
    (fun _ => keeps_respond _ _)
  refine keeps_bind (parts.find _ _ _ _) (fun found => ?_)
  cases found with
  | none => exact keeps_respond _ _
  | some graph =>
      dsimp only
      split
      · exact keeps_respond _ _
      · split
        · exact keeps_respond _ _
        · exact keeps_bind (parts.saveStatus _ _ _)
            (fun _ => keeps_respond _ _)

theorem keeps_statusProcessor (job : Job) :
    Keeps P J (statusProcessor job) := by
  refine keeps_bind (parts.find _ _ _ _) (fun found => ?_)
  cases found with
  | none => exact keeps_pure _
  | some graph =>
      dsimp only
      split
      · exact keeps_pure _
      · split
        · exact keeps_pure _
        · split
          · exact keeps_pure _
          · refine keeps_bind (parts.saveStatus _ _ _) (fun _ => ?_)
            split
            · exact keeps_schedule parts _ _
            · exact keeps_pure _

end Status

section Stock

variable (parts : StockParts P J)

include parts

theorem keeps_transaction {alpha : Type} {body : Act alpha}
    {afterCommit : alpha -> Act Unit} (hbody : Keeps P J body)
    (hafter : forall a, Keeps P J (afterCommit a)) :
    Keeps P J (transaction body afterCommit) := by
  refine keeps_bind parts.opens (fun _ => keeps_bind ?_ (fun a => ?_))
  · refine keeps_tryCatch (keeps_bind hbody (fun a => ?_)) (fun e => ?_)
    · exact keeps_bind parts.commits (fun _ => keeps_pure _)
    · exact keeps_bind (keeps_detached parts.rollsBack)
        (fun _ => keeps_throw _)
  · exact keeps_bind (hafter a) (fun _ => keeps_pure _)

theorem keeps_recalculate (item : OrderItem) :
    Keeps P J (OrderItem.recalculate item) := by
  refine keeps_bind (parts.find _ _ _ _) (fun found => ?_)
  cases found with
  | none => exact keeps_pure _
  | some graph =>
      exact keeps_bind (parts.saveTotal _ _ _) (fun _ => parts.clear _)

theorem keeps_createOrderBody (customerId : Int) (items : List ItemRequest) :
    Keeps P J (createOrderBody customerId items) := by
  refine keeps_bind (parts.products _) (fun products => ?_)
  refine keeps_bind (keeps_forM (fun item => ?_) _) (fun _ => ?_)
  · unfold checkItem
    split
    · exact keeps_throw _
    · split
      · exact keeps_throw _
      · exact keeps_pure _
  refine keeps_bind ?_ (fun order => keeps_bind
    (keeps_foldlM (fun total item => ?_) _ _)
    (fun total => parts.saveTotal _ _ _))
  · refine keeps_bind (parts.newOrder _ _ _) (fun _ => ?_)
    refine keeps_bind ?_ (fun _ => keeps_pure _)
    exact keeps_bind (parts.clear _)
      (fun _ => keeps_detached (keeps_schedule parts.toStatusParts _ _))
  · unfold placeItem
    split
    · exact keeps_throw _
    · refine keeps_bind ?_ (fun _ =>
        keeps_bind (parts.move _ _ _) (fun _ => keeps_pure _))
      refine keeps_bind (parts.newItem _ _ _ _) (fun _ => ?_)
      exact keeps_bind (keeps_recalculate parts _) (fun _ => keeps_pure _)

theorem keeps_createOrder (customerId : Int) (items : List ItemRequest) :
    Keeps P J (createOrder customerId items) := by
  refine keeps_tryCatch (keeps_bind ?_ (fun _ => keeps_respond _ _))
    (fun _ => keeps_respond _ _)
  exact keeps_transaction parts (keeps_createOrderBody parts _ _)
    (fun _ => keeps_detached (keeps_schedule parts.toStatusParts _ _))

theorem keeps_refuse (status : Nat) (body : Body) :
    Keeps P J (do rollback; respond status body) :=
  keeps_bind parts.rollsBack (fun _ => keeps_respond _ _)

theorem keeps_softDeleteOrder (idParam : String) :
    Keeps P J (softDeleteOrder idParam) := by
  refine keeps_bind parts.opens (fun _ => keeps_tryCatch ?_
    (fun _ => keeps_refuse parts _ _))
  refine keeps_bind (keeps_integerParam _) (fun id => ?_)
  refine keeps_bind (parts.find _ _ _ _) (fun found => ?_)
  cases found with
  | none => exact keeps_refuse parts _ _
  | some graph =>
      dsimp only
      split
      · exact keeps_refuse parts _ _
      · refine keeps_bind (keeps_forM (fun _ => parts.move _ _ _) _)
          (fun _ => ?_)
        refine keeps_bind (parts.saveStatus _ _ _) (fun _ => ?_)
        refine keeps_bind (parts.destroy _ _) (fun _ => ?_)
        exact keeps_bind parts.commits (fun _ => keeps_respond _ _)

theorem keeps_itemRestore (inTx : Bool) (item : OrderItem) :
    Keeps P J (OrderItem.restore inTx item) := by
  unfold OrderItem.restore
  split
  · exact keeps_bind (parts.restoreItem _ _) (fun _ => keeps_pure _)
  · exact keeps_pure _

theorem keeps_restoreOrder (idParam : String) :
    Keeps P J (restoreOrder idParam) := by
  refine keeps_bind parts.opens (fun _ => keeps_tryCatch ?_
    (fun _ => keeps_refuse parts _ _))
  refine keeps_bind (keeps_integerParam _) (fun id => ?_)
  refine keeps_bind (parts.find _ _ _ _) (fun found => ?_)
  cases found with
  | none => exact keeps_refuse parts _ _
  | some graph =>
      dsimp only
      split
      · exact keeps_refuse parts _ _
      · refine keeps_bind (parts.restore _ _) (fun _ => ?_)
        refine keeps_bind (keeps_forM (fun item => ?_) _) (fun _ => ?_)
        · exact keeps_bind (keeps_itemRestore parts _ _)
            (fun _ => keeps_pure _)
        refine keeps_bind (parts.saveStatus _ _ _) (fun _ => ?_)
        refine keeps_bind (keeps_forM (fun _ => parts.move _ _ _) _)
          (fun _ => ?_)
        refine keeps_bind parts.commits (fun _ => ?_)
        exact keeps_bind
          (keeps_detached (keeps_schedule parts.toStatusParts _ _))
          (fun _ => keeps_respond _ _)

theorem keeps_cancelProcessor (orderId : Int) :
    Keeps P J (cancelProcessor orderId) := by
  refine keeps_bind (parts.find _ _ _ _) (fun found => ?_)
  cases found with
  | none => exact keeps_pure _
  | some graph =>
      dsimp only
      split
      · exact keeps_pure _
      · split
        · exact keeps_pure _
        · refine keeps_bind (parts.saveStatus _ _ _) (fun _ => ?_)
          refine keeps_bind (parts.destroy _ _) (fun _ => ?_)
          exact keeps_forM (fun _ => parts.move _ _ _) _

end Stock

end Orders

/-!
# Handlers that write products and customers
-/

theorem keeps_createProduct
    (hcreate : forall name description price stock,
      Keeps P J (Product.create name description price stock))
    (body : ProductBody) : Keeps P J (createProduct body) := by
  refine keeps_tryCatch ?_ (fun _ => keeps_respond _ _)
  split
  · exact keeps_bind (hcreate _ _ _ _) (fun _ => keeps_respond _ _)
  · exact keeps_throw _

theorem keeps_withProduct {next : Product -> Act Response} {paranoid : Bool}
    (hfind : forall id, Keeps P J (query false (.productByPk id paranoid)))
    (h : forall p, Keeps P J (next p)) (idParam text error : String) :
    Keeps P J (tryCatch (do
        let id ← integerParam idParam
        let found : Option Product ← query false (.productByPk id paranoid)
        match found with
        | none => respond 404 (.message text)
        | some product => next product)
      (fun _ => respond 500 (.error error))) := by
  refine keeps_tryCatch (keeps_bind (keeps_integerParam _) (fun id => ?_))
    (fun _ => keeps_respond _ _)
  refine keeps_bind (hfind _) (fun found => ?_)
  cases found with
  | none => exact keeps_respond _ _
  | some product => exact h product

theorem keeps_restoreCustomer (hcalm : Calm P J)
    (hrestore : forall id,
      Keeps P J (update false (.customerDeleted id false)))
    (customerId : Int) (idParam : String) :
    Keeps P J (restoreCustomer customerId idParam) := by
  unfold restoreCustomer
  split
  · exact keeps_respond _ _
  · refine keeps_tryCatch (keeps_bind (keeps_integerParam _) (fun id => ?_))
      (fun _ => keeps_respond _ _)
    refine keeps_bind (keeps_query hcalm _) (fun found => ?_)
    cases found with
    | none => exact keeps_respond _ _
    | some customer =>
        refine keeps_bind ?_ (fun _ => keeps_respond _ _)
        unfold Customer.restore
        split
        · exact keeps_bind (hrestore _) (fun _ => keeps_pure _)
        · exact keeps_pure _

theorem keeps_registerCustomer (hcalm : Calm P J)
    (hinsert : forall name email digest,
      Keeps P J (Service.insert false (.customer name email digest)))
    (body : CustomerBody) : Keeps P J (registerCustomer body) := by
  refine keeps_tryCatch ?_ (fun _ => keeps_respond _ _)
  split
  · rename_i password _ _ _
    refine keeps_bind (keeps_query hcalm _) (fun existing => ?_)
    cases existing with
    | some customer => exact keeps_respond _ _
    | none =>
        refine keeps_bind ?_ (fun _ => keeps_respond _ _)
        unfold Customer.create
        dsimp only
        split
        · exact keeps_bind (keeps_pure _) (fun _ =>
            keeps_bind (hinsert _ _ _) (fun _ => keeps_pure _))
        · exact keeps_bind (hcalm (.bcryptHash password) rfl) (fun _ =>
            keeps_bind (hinsert _ _ _) (fun _ => keeps_pure _))
  · exact keeps_respond _ _

/-!
# The requests that only look
-/

def looks : Request -> Bool
  | .getAllOrders _ _ => true
  | .getOrdersByStatus _ _ _ => true
  | .getOrdersByCustomer _ _ _ => true
  | .getAllProducts _ => true
  | .searchProducts _ => true
  | .getAllCustomers _ => true
  | .getCustomerById _ _ => true
  | .softDeleteCustomer _ _ => true
  | .loginCustomer _ => true
  | _ => false

theorem keeps_handle_looks (hcalm : Calm P J) {req : Request}
    (h : looks req = true) : Keeps P J (handle req) := by
  cases req with
  | getAllOrders token page =>
      exact keeps_authenticated hcalm
        (fun _ => keeps_getAllOrders hcalm _) _ _ _ _
  | getOrdersByStatus token status page =>
      exact keeps_authenticated hcalm
        (fun _ => keeps_getOrdersByStatus hcalm _ _ _) _ _ _ _
  | getOrdersByCustomer token id page =>
      exact keeps_authenticated hcalm
        (fun _ => keeps_getOrdersByCustomer hcalm _ _ _) _ _ _ _
  | getAllProducts page => exact keeps_getAllProducts hcalm _
  | searchProducts text => exact keeps_searchProducts hcalm _
  | getAllCustomers page => exact keeps_getAllCustomers hcalm _
  | getCustomerById token id =>
      exact keeps_validateRequest (keeps_authenticated hcalm
        (fun _ => keeps_getCustomerById hcalm _ _) _ _ _ _) _
  | softDeleteCustomer token id =>
      exact keeps_validateRequest (keeps_authenticated hcalm
        (fun _ => keeps_softDeleteCustomer hcalm _ _) _ _ _ _) _
  | loginCustomer body => exact keeps_loginCustomer hcalm _
  | _ => cases h

end Service
end ExpressEcommerce
