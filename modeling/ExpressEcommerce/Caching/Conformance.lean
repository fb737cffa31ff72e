import ExpressEcommerce.Caching.Duty
import ExpressEcommerce.Service.Conduct

/-!
# The handlers and the cache

Every handler and every processor that writes clears the keys of what it wrote
before it ends.  The two readers that fill the cache are left to the next module.
-/

namespace ExpressEcommerce
namespace Caching

open Foundation
open Store
open Service
open Foundation.Action

section Handlers

variable {up : Prop} {rights : Rights}

theorem neat_query (inTx : Bool) (q : Query) :
    Neat up rights (query inTx q) :=
  neat_perform rfl

theorem calm_owing : Calm (duties up) (Cleared up rights) := by
  intro c hc
  refine neat_perform ?_
  cases c with
  | query | search | bcryptHash | bcryptCompare | isEmail => rfl
  | _ => cases hc

theorem neat_insert (inTx : Bool) (row : NewRow) :
    Neat up rights (Service.insert inTx row) :=
  neat_perform rfl

theorem neat_invalidateOrderCache (id : Int) :
    Neat up rights (invalidateOrderCache id) :=
  keeps_tryCatch (neat_perform rfl) (fun _ => keeps_pure _)

theorem neat_invalidateProductCache (id : Int) :
    Neat up rights (invalidateProductCache id) :=
  keeps_tryCatch (neat_perform rfl) (fun _ => keeps_pure _)

/-!
# Models
-/

theorem neat_saveStatus (inTx : Bool) (order : Order) (status : Status) :
    Neat up rights (Order.saveStatus inTx order status) := by
  unfold Order.saveStatus
  split
  · exact keeps_pure _
  · exact neat_save rfl (fun _ => keeps_pure _)

theorem neat_saveTotal (inTx : Bool) (order : Order) (total : Int) :
    Neat up rights (Order.saveTotal inTx order total) :=
  neat_save rfl (fun _ => keeps_pure _)

theorem neat_dated {alpha beta : Type} {changes inTx : Bool} {u : Change}
    {stamped : Nat -> alpha} {key : alpha -> String} {f : alpha -> Act beta}
    {a : alpha} (hu : forall now, clears u = [key (stamped now)])
    (hf : forall a, Neat up rights (f a)) :
    Neat up rights (do
      let a ←
        if changes then do
          let now ← Service.update inTx u
          pure (stamped now)
        else pure a
      tryCatch (Action.perform (I := service) (Cmd.redisDel (key a)))
        (fun _ => pure ())
      f a) := by
  dsimp only
  split
  · intro duty h
    rw [Action.wp_bind]
    refine wp_update_owes (hu 0) h (fun now d hd => ?_) (fun _ _ hd => hd)
    rw [Action.wp_bind, Action.wp_pure, Action.wp_bind]
    rw [← List.singleton_inj.mp ((hu now).symm.trans (hu 0))] at hd
    exact wp_clear hd (fun d hd => hf _ d hd)
  · refine keeps_bind (keeps_pure _) (fun _ => keeps_bind ?_ (fun _ => hf _))
    exact keeps_tryCatch (neat_perform rfl) (fun _ => keeps_pure _)

theorem neat_orderDestroy (inTx : Bool) (order : Order) :
    Neat up rights (Order.destroy inTx order) :=
  neat_dated (fun _ => rfl) (fun _ => keeps_pure _)

theorem neat_orderRestore (inTx : Bool) (order : Order) :
    Neat up rights (Order.restore inTx order) :=
  neat_dated (fun _ => rfl) (fun _ => keeps_pure _)

theorem neat_incrementStock (hstock : rights.stock = true) (inTx : Bool)
    (productId amount : Int) :
    Neat up rights (Product.incrementStock inTx productId amount) :=
  keeps_bind (neat_perform hstock) (fun _ => keeps_pure _)

/-!
# Orders
-/

theorem statusParts_neat : StatusParts (duties up) (Cleared up rights) where
  find := fun _ _ _ _ => neat_query _ _
  clear := neat_invalidateOrderCache
  saveStatus := neat_saveStatus
  addJob := fun _ => neat_perform rfl

theorem stockParts_neat (hstock : rights.stock = true) :
    StockParts (duties up) (Cleared up rights) where
  toStatusParts := statusParts_neat
  opens := neat_perform rfl
  commits := neat_perform rfl
  rollsBack := neat_perform rfl
  products := fun _ => neat_query _ _
  newOrder := fun _ _ _ => neat_insert _ _
  newItem := fun _ _ _ _ => neat_insert _ _
  saveTotal := neat_saveTotal
  move := neat_incrementStock hstock
  destroy := neat_orderDestroy
  restore := neat_orderRestore
  restoreItem := fun _ _ => neat_perform rfl

/-!
# Products
-/

theorem neat_sync (hindex : rights.index = true)
    (product : ProductInstance) :
    Neat up rights (syncToElasticsearch product) :=
  neat_perform hindex

theorem neat_productCreate (hindex : rights.index = true) (name : String)
    (description : Option String) (price : Rat) (stock : Int) :
    Neat up rights (Product.create name description price stock) := by
  refine keeps_bind (neat_insert _ _) (fun _ => ?_)
  refine keeps_bind (neat_invalidateProductCache _) (fun _ => ?_)
  exact keeps_bind (neat_sync hindex _) (fun _ => keeps_pure _)

theorem neat_productUpdate (hindex : rights.index = true) (product : Product)
    (body : ProductBody) : Neat up rights (Product.update product body) := by
  unfold Product.update
  split
  · exact keeps_throw _
  · split
    · exact keeps_throw _
    · split
      · exact keeps_pure _
      · intro duty h
        rw [Action.wp_bind]
        refine wp_update_owes rfl h (fun now d hd => ?_) (fun _ _ hd => hd)
        rw [Action.wp_bind]
        refine wp_clear hd (fun d hd => ?_)
        exact keeps_bind (neat_sync hindex _) (fun _ => keeps_pure _) d hd

theorem neat_saveProduct (hindex : rights.index = true)
    (message idParam : String) (body : ProductBody) :
    Neat up rights (saveProduct message idParam body) :=
  keeps_withProduct (fun _ => neat_query _ _) (fun _ =>
    keeps_bind (neat_productUpdate hindex _ _) (fun _ => keeps_respond _ _))
    _ _ _

theorem neat_removeFromElasticsearch (hindex : rights.index = true)
    (id : Int) : Neat up rights (removeFromElasticsearch id) :=
  keeps_tryCatch (neat_perform hindex) (fun _ => keeps_pure _)

theorem neat_productDestroy (hindex : rights.index = true)
    (product : Product) : Neat up rights (Product.destroy product) :=
  neat_dated (fun _ => rfl) (fun _ =>
    keeps_bind (neat_removeFromElasticsearch hindex _) (fun _ => keeps_pure _))

theorem neat_productRestore (hindex : rights.index = true)
    (product : Product) : Neat up rights (Product.restore product) :=
  neat_dated (fun _ => rfl) (fun _ =>
    keeps_bind (neat_removeFromElasticsearch hindex _) (fun _ => keeps_pure _))

theorem neat_softDeleteProduct (hindex : rights.index = true)
    (idParam : String) : Neat up rights (softDeleteProduct idParam) :=
  keeps_withProduct (fun _ => neat_query _ _) (fun _ =>
    keeps_bind (neat_productDestroy hindex _) (fun _ => keeps_respond _ _))
    _ _ _

theorem neat_restoreProduct (hindex : rights.index = true)
    (idParam : String) : Neat up rights (restoreProduct idParam) :=
  keeps_withProduct (fun _ => neat_query _ _) (fun _ =>
    keeps_bind (neat_productRestore hindex _) (fun _ => keeps_respond _ _))
    _ _ _

/-!
# Customers
-/

theorem neat_customerUpdate (customer : Customer) (body : CustomerBody) :
    Neat up rights (Customer.update customer body) := by
  unfold Customer.update
  split
  · exact keeps_pure _
  · refine keeps_bind ?_ (fun _ =>
      keeps_bind (neat_perform rfl) (fun _ => keeps_pure _))
    exact keeps_beforeUpdate calm_owing _

theorem neat_saveCustomer (message : String) (customerId : Int)
    (idParam : String) (body : CustomerBody) :
    Neat up rights (saveCustomer message customerId idParam body) := by
  refine keeps_ownData (keeps_tryCatch
    (keeps_bind (keeps_integerParam _) (fun id => ?_))
    (fun _ => keeps_respond _ _)) _ _
  refine keeps_bind (neat_query _ _) (fun found => ?_)
  cases found with
  | none => exact keeps_respond _ _
  | some customer =>
      exact keeps_bind (neat_customerUpdate _ _) (fun _ => keeps_respond _ _)

end Handlers

/-!
# Tasks
-/

def rightsOf : Task -> Rights
  | .request (.createOrder _ _) => { stock := true }
  | .request (.softDeleteOrder _ _) => { stock := true }
  | .request (.restoreOrder _ _) => { stock := true }
  | .request (.createProduct _) => { index := true }
  | .request (.updateProduct _ _) => { index := true }
  | .request (.patchProduct _ _) => { index := true }
  | .request (.softDeleteProduct _) => { index := true }
  | .request (.restoreProduct _) => { index := true }
  | .cancelJob _ => { stock := true }
  | _ => {}

def isReader : Task -> Bool
  | .request (.getOrderById _ _) => true
  | .request (.getProductById _) => true
  | _ => false

def dutyOf (t : Task) : Duty :=
  if isReader t then .asking else .owing (rightsOf t) []

theorem neat_known {up : Prop} {rights : Rights}
    {next : Customer -> Act Response} (h : forall c, Neat up rights (next c))
    (token : Token) : Neat up rights (authenticateCustomer token next) :=
  keeps_authenticated calm_owing h _ _ _ _

theorem neat_handle {up : Prop} (req : Request)
    (h : isReader (.request req) = false) :
    Neat up (rightsOf (.request req)) (handle req) := by
  by_cases hlooks : looks req = true
  · exact keeps_handle_looks calm_owing hlooks
  · cases req with
    | getOrderById token id => cases h
    | getProductById id => cases h
    | createOrder token items =>
        exact neat_known (fun _ =>
          keeps_createOrder (stockParts_neat rfl) _ _) _
    | updateOrder token id status =>
        exact neat_known (fun _ =>
          keeps_updateOrder statusParts_neat _ _ _) _
    | patchOrderStatus token id status =>
        exact neat_known (fun _ =>
          keeps_patchOrderStatus statusParts_neat _ _) _
    | softDeleteOrder token id =>
        exact neat_known (fun _ =>
          keeps_softDeleteOrder (stockParts_neat rfl) _) _
    | restoreOrder token id =>
        exact neat_known (fun _ =>
          keeps_restoreOrder (stockParts_neat rfl) _) _
    | createProduct body =>
        exact keeps_validateRequest
          (keeps_createProduct (neat_productCreate rfl) _) _
    | updateProduct id body =>
        exact keeps_validateRequest (neat_saveProduct rfl _ _ _) _
    | patchProduct id body =>
        exact keeps_validateRequest (neat_saveProduct rfl _ _ _) _
    | softDeleteProduct id =>
        exact keeps_validateRequest (neat_softDeleteProduct rfl _) _
    | restoreProduct id =>
        exact keeps_validateRequest (neat_restoreProduct rfl _) _
    | updateCustomer token id body =>
        refine keeps_bind (keeps_emailVerdict calm_owing _) (fun _ => ?_)
        exact keeps_validateRequest
          (neat_known (fun _ => neat_saveCustomer _ _ _ _) _) _
    | patchCustomer token id body =>
        refine keeps_bind (keeps_emailVerdict calm_owing _) (fun _ => ?_)
        exact keeps_validateRequest
          (neat_known (fun _ => neat_saveCustomer _ _ _ _) _) _
    | restoreCustomer token id =>
        exact keeps_validateRequest (keeps_authenticated calm_owing
          (fun _ => keeps_restoreCustomer calm_owing
            (fun _ => neat_perform rfl) _ _) _ _ _ _) _
    | registerCustomer body =>
        exact keeps_registerCustomer calm_owing (fun _ _ _ => neat_insert _ _)
          _
    | _ => exact absurd rfl hlooks

end Caching
end ExpressEcommerce
