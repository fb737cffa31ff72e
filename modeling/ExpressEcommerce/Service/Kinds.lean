import ExpressEcommerce.Service.Conduct

/-!
# Kinds of tasks

A task issues only commands of its kind.  So a predicate that the commands of
one kind keep is kept by every task of that kind, whatever the protocol and
whatever the replies.
-/

namespace ExpressEcommerce
namespace Service

open Foundation
open Store
open Foundation.Action

inductive Kind where
  | looking
  | caching
  | placing
  | ordering
  | advancing
  | stocking
  | account
  deriving DecidableEq, Repr

def movesOrder : Cmd -> Bool
  | .update _ (.orderStatus _ _) => true
  | .update _ (.orderDeleted _ _) => true
  | .update _ (.itemDeleted _ deleted) => !deleted
  | .update _ (.productStock _ _) => true
  | .begin => true
  | .commit => true
  | .rollback => true
  | .query _ _ => true
  | .redisDel _ => true
  | _ => false

def schedules : Cmd -> Bool
  | .addJob _ => true
  | _ => false

/-- The further statements of `createOrder`. -/
def placesOrder : Cmd -> Bool
  | .insert inTx (.order _ _ _) => inTx
  | .insert inTx (.item _ _ _ _) => inTx
  | .update _ (.orderTotal _ _) => true
  | _ => false

def writesProduct : Cmd -> Bool
  | .insert inTx (.product _ _ _ _) => !inTx
  | .update inTx (.productFields _ _) => !inTx
  | .update inTx (.productDeleted _ _) => !inTx
  | .redisDel _ => true
  | .indexDoc _ _ => true
  | .deleteDoc _ => true
  | _ => false

def writesCustomer : Cmd -> Bool
  | .insert inTx (.customer _ _ _) => !inTx
  | .update inTx (.customerFields _ _) => !inTx
  | .update inTx (.customerDeleted _ deleted) => !inTx && !deleted
  | _ => false

def fillsCache : Cmd -> Bool
  | .redisGet _ => true
  | .redisSet _ _ => true
  | _ => false

def Kind.issues : Kind -> Cmd -> Bool
  | looking, c => calm c
  | caching, c => calm c || fillsCache c
  | placing, c => calm c || movesOrder c || schedules c || placesOrder c
  | ordering, c => calm c || movesOrder c
  | advancing, c => calm c || movesOrder c || schedules c
  | stocking, c => calm c || writesProduct c
  | account, c => calm c || writesCustomer c

def kindOf : Task -> Kind
  | .request (.createOrder _ _) => .placing
  | .request (.updateOrder _ _ _) => .ordering
  | .request (.patchOrderStatus _ _ _) => .ordering
  | .request (.softDeleteOrder _ _) => .ordering
  | .request (.restoreOrder _ _) => .ordering
  | .statusJob _ => .advancing
  | .cancelJob _ => .ordering
  | .request (.createProduct _) => .stocking
  | .request (.updateProduct _ _) => .stocking
  | .request (.patchProduct _ _) => .stocking
  | .request (.softDeleteProduct _) => .stocking
  | .request (.restoreProduct _) => .stocking
  | .request (.getOrderById _ _) => .caching
  | .request (.getProductById _) => .caching
  | .request (.updateCustomer _ _ _) => .account
  | .request (.patchCustomer _ _ _) => .account
  | .request (.restoreCustomer _ _) => .account
  | .request (.registerCustomer _) => .account
  | .request _ => .looking

section Keeps

variable {sigma : Type} {P : Protocol service sigma} {J : sigma -> Prop}

theorem keeps_command {c : Cmd} (hmay : forall s, J s -> P.may s c)
    (hnext : forall s r s', J s -> P.next s c r s' -> J s') :
    Keeps P J (perform (I := service) c) := by
  intro s hs
  refine wp_command (hmay s hs) ?_ ?_
  · intro a s' h
    exact hnext s (.ok a) s' hs h
  · intro e s' h
    exact hnext s (.error e) s' hs h

def Kind.Allowed (P : Protocol service sigma) (J : sigma -> Prop)
    (kind : Kind) : Prop :=
  forall c, kind.issues c = true -> Keeps P J (perform (I := service) c)

theorem Kind.Allowed.calm {kind : Kind} (h : kind.Allowed P J) :
    Calm P J := by
  intro c hc
  refine h c ?_
  cases kind <;> simp [Kind.issues, hc]

/-!
# Orders
-/

def Moving (P : Protocol service sigma) (J : sigma -> Prop) : Prop :=
  forall c, movesOrder c = true -> Keeps P J (perform (I := service) c)

section Moving

variable (h : Moving P J)

include h

theorem keeps_invalidateOrderCache (id : Int) :
    Keeps P J (invalidateOrderCache id) :=
  keeps_tryCatch (h (.redisDel _) rfl) (fun _ => keeps_pure _)

theorem keeps_saveStatus (inTx : Bool) (order : Order) (status : Status) :
    Keeps P J (Order.saveStatus inTx order status) := by
  unfold Order.saveStatus
  split
  · exact keeps_pure _
  · exact keeps_bind (h (.update _ (.orderStatus _ _)) rfl) (fun _ =>
      keeps_bind (keeps_invalidateOrderCache h _) (fun _ => keeps_pure _))

theorem keeps_orderDated {inTx changes : Bool} {id : Int} {deleted : Bool}
    {stamped : Nat -> Order} {order : Order} :
    Keeps P J (do
      let order ←
        if changes then do
          let now ← Service.update inTx (.orderDeleted id deleted)
          pure (stamped now)
        else pure order
      invalidateOrderCache order.id
      pure order) := by
  have hend : forall o : Order, Keeps P J
      (invalidateOrderCache o.id >>= fun _ => pure o) :=
    fun _ => keeps_bind (keeps_invalidateOrderCache h _)
      (fun _ => keeps_pure _)
  dsimp only
  split
  · exact keeps_bind (h (.update _ (.orderDeleted _ _)) rfl)
      (fun _ => keeps_bind (keeps_pure _) hend)
  · exact keeps_bind (keeps_pure _) hend

theorem keeps_moveStock (inTx : Bool) (productId amount : Int) :
    Keeps P J (Product.incrementStock inTx productId amount) :=
  keeps_bind (h (.update _ (.productStock _ _)) rfl) (fun _ => keeps_pure _)

theorem statusParts_moving
    (hadd : forall job, Keeps P J (perform (I := service) (Cmd.addJob job))) :
    StatusParts P J where
  find := fun inTx id paranoid items =>
    h (.query inTx (.orderByPk id paranoid { items := items })) rfl
  clear := keeps_invalidateOrderCache h
  saveStatus := keeps_saveStatus h
  addJob := hadd

theorem keeps_refused (status : Nat) (body : Body) :
    Keeps P J (do rollback; respond status body) :=
  keeps_bind (h .rollback rfl) (fun _ => keeps_respond _ _)

/-!
In contrast to the lemmas for all statements of an order, nothing is said about
insertions and jobs.
-/

theorem moving_updateOrder (customerId : Int) (idParam : String)
    (status : Option String) :
    Keeps P J (updateOrder customerId idParam status) := by
  refine keeps_tryCatch (keeps_bind (keeps_integerParam _) (fun id => ?_))
    (fun _ => keeps_respond _ _)
  refine keeps_bind (h (.query _ (.orderByPk _ _ _)) rfl) (fun found => ?_)
  split
  · exact keeps_respond _ _
  · dsimp only
    split
    · exact keeps_respond _ _
    · split
      · exact keeps_respond _ _
      · split
        · exact keeps_respond _ _
        · exact keeps_bind (keeps_saveStatus h _ _ _)
            (fun _ => keeps_respond _ _)

theorem moving_patchOrderStatus (idParam : String) (status : Option String) :
    Keeps P J (patchOrderStatus idParam status) := by
  refine keeps_tryCatch (keeps_bind (keeps_integerParam _) (fun id => ?_))
    (fun _ => keeps_respond _ _)
  refine keeps_bind (h (.query _ (.orderByPk _ _ _)) rfl) (fun found => ?_)
  split
  · exact keeps_respond _ _
  · dsimp only
    split
    · exact keeps_respond _ _
    · split
      · exact keeps_respond _ _
      · exact keeps_bind (keeps_saveStatus h _ _ _)
          (fun _ => keeps_respond _ _)

theorem moving_softDeleteOrder (idParam : String) :
    Keeps P J (softDeleteOrder idParam) := by
  refine keeps_bind (h .begin rfl) (fun _ => keeps_tryCatch ?_
    (fun _ => keeps_refused h _ _))
  refine keeps_bind (keeps_integerParam _) (fun id => ?_)
  refine keeps_bind (h (.query _ (.orderByPk _ _ _)) rfl) (fun found => ?_)
  split
  · exact keeps_refused h _ _
  · split
    · exact keeps_refused h _ _
    · refine keeps_bind (keeps_forM (fun _ => keeps_moveStock h _ _ _) _)
        (fun _ => ?_)
      refine keeps_bind (keeps_saveStatus h _ _ _) (fun _ => ?_)
      refine keeps_bind (keeps_orderDated h) (fun _ => ?_)
      exact keeps_bind (h .commit rfl) (fun _ => keeps_respond _ _)

theorem moving_restoreOrder (idParam : String) :
    Keeps P J (restoreOrder idParam) := by
  refine keeps_bind (h .begin rfl) (fun _ => keeps_tryCatch ?_
    (fun _ => keeps_refused h _ _))
  refine keeps_bind (keeps_integerParam _) (fun id => ?_)
  refine keeps_bind (h (.query _ (.orderByPk _ _ _)) rfl) (fun found => ?_)
  split
  · exact keeps_refused h _ _
  · split
    · exact keeps_refused h _ _
    · refine keeps_bind (keeps_orderDated h) (fun _ => ?_)
      refine keeps_bind (keeps_forM (fun item => ?_) _) (fun _ => ?_)
      · refine keeps_bind ?_ (fun _ => keeps_pure _)
        unfold OrderItem.restore
        split
        · exact keeps_bind (h (.update _ (.itemDeleted _ false)) rfl)
            (fun _ => keeps_pure _)
        · exact keeps_pure _
      refine keeps_bind (keeps_saveStatus h _ _ _) (fun _ => ?_)
      refine keeps_bind (keeps_forM (fun _ => keeps_moveStock h _ _ _) _)
        (fun _ => ?_)
      refine keeps_bind (h .commit rfl) (fun _ => ?_)
      -- there is no next status without a status
      exact keeps_bind (keeps_detached (keeps_pure _))
        (fun _ => keeps_respond _ _)

theorem moving_cancelProcessor (orderId : Int) :
    Keeps P J (cancelProcessor orderId) := by
  refine keeps_bind (h (.query _ (.orderByPk _ _ _)) rfl) (fun found => ?_)
  split
  · exact keeps_pure _
  · split
    · exact keeps_pure _
    · split
      · exact keeps_pure _
      · refine keeps_bind (keeps_saveStatus h _ _ _) (fun _ => ?_)
        refine keeps_bind (keeps_orderDated h) (fun _ => ?_)
        exact keeps_forM (fun _ => keeps_moveStock h _ _ _) _

end Moving

theorem Kind.Allowed.moving (h : Kind.ordering.Allowed P J) : Moving P J := by
  intro c hc
  refine h c ?_
  simp [Kind.issues, hc]

theorem Kind.Allowed.stockParts (h : Kind.placing.Allowed P J) :
    StockParts P J := by
  have hmoving : Moving P J := by
    intro c hc
    refine h c ?_
    simp [Kind.issues, hc]
  have hplaces : forall c, placesOrder c = true ->
      Keeps P J (perform (I := service) c) := by
    intro c hc
    refine h c ?_
    simp [Kind.issues, hc]
  have hadd : forall job, Keeps P J (perform (I := service) (Cmd.addJob job)) :=
    fun job => h (.addJob job) rfl
  exact
    { toStatusParts := statusParts_moving hmoving hadd
      opens := hmoving .begin rfl
      commits := hmoving .commit rfl
      rollsBack := hmoving .rollback rfl
      products := fun ids => hmoving (.query false (.productsById ids)) rfl
      newOrder := fun customerId total status =>
        hplaces (.insert true (.order customerId total status)) rfl
      newItem := fun orderId productId quantity price =>
        hplaces (.insert true (.item orderId productId quantity price)) rfl
      saveTotal := fun inTx order total => keeps_bind
        (hplaces (.update inTx (.orderTotal order.id total)) rfl) (fun _ =>
          keeps_bind (keeps_invalidateOrderCache hmoving _)
            (fun _ => keeps_pure _))
      move := keeps_moveStock hmoving
      destroy := fun _ _ => keeps_orderDated hmoving
      restore := fun _ _ => keeps_orderDated hmoving
      restoreItem := fun inTx id =>
        hmoving (.update inTx (.itemDeleted id false)) rfl }

/-!
# Products
-/

section Stocking

variable (h : Kind.stocking.Allowed P J)

include h

theorem keeps_writesProduct {c : Cmd} (hc : writesProduct c = true) :
    Keeps P J (perform (I := service) c) := by
  refine h c ?_
  simp [Kind.issues, hc]

theorem keeps_invalidateProductCache (id : Int) :
    Keeps P J (invalidateProductCache id) :=
  keeps_tryCatch (keeps_writesProduct h rfl) (fun _ => keeps_pure _)

theorem keeps_productCreate (name : String) (description : Option String)
    (price : Rat) (stock : Int) :
    Keeps P J (Product.create name description price stock) := by
  refine keeps_bind (keeps_writesProduct h rfl) (fun _ => ?_)
  refine keeps_bind (keeps_invalidateProductCache h _) (fun _ => ?_)
  exact keeps_bind (keeps_writesProduct h rfl) (fun _ => keeps_pure _)

theorem keeps_productUpdate (product : Product) (body : ProductBody) :
    Keeps P J (Product.update product body) := by
  unfold Product.update
  split
  · exact keeps_throw _
  · split
    · exact keeps_throw _
    · split
      · exact keeps_pure _
      · refine keeps_bind (keeps_writesProduct h rfl) (fun _ => ?_)
        refine keeps_bind (keeps_invalidateProductCache h _) (fun _ => ?_)
        exact keeps_bind (keeps_writesProduct h rfl) (fun _ => keeps_pure _)

theorem keeps_productDated {changes : Bool} {id : Int} {deleted : Bool}
    {stamped : Nat -> Product} {product : Product} :
    Keeps P J (do
      let product ←
        if changes then do
          let now ← Service.update false (.productDeleted id deleted)
          pure (stamped now)
        else pure product
      invalidateProductCache product.id
      removeFromElasticsearch product.id
      pure product) := by
  have hend : forall p : Product, Keeps P J
      (invalidateProductCache p.id >>= fun _ =>
        removeFromElasticsearch p.id >>= fun _ => pure p) := by
    intro p
    refine keeps_bind (keeps_invalidateProductCache h _) (fun _ => ?_)
    refine keeps_bind ?_ (fun _ => keeps_pure _)
    exact keeps_tryCatch (keeps_writesProduct h rfl) (fun _ => keeps_pure _)
  dsimp only
  split
  · exact keeps_bind (keeps_writesProduct h rfl)
      (fun _ => keeps_bind (keeps_pure _) hend)
  · exact keeps_bind (keeps_pure _) hend

theorem keeps_changeProduct {next : Product -> Act Response}
    {paranoid : Bool} (hnext : forall p, Keeps P J (next p))
    (idParam text error : String) :
    Keeps P J (tryCatch (do
        let id ← integerParam idParam
        let found : Option Product ← query false (.productByPk id paranoid)
        match found with
        | none => respond 404 (.message text)
        | some product => next product)
      (fun _ => respond 500 (.error error))) :=
  keeps_withProduct (fun _ => keeps_query h.calm _) hnext _ _ _

end Stocking

/-!
# The readers that fill the cache
-/

section Caching

variable (h : Kind.caching.Allowed P J)

include h

theorem keeps_fillsCache {c : Cmd} (hc : fillsCache c = true) :
    Keeps P J (perform (I := service) c) := by
  refine h c ?_
  simp [Kind.issues, hc]

theorem keeps_getOrderById (customerId : Int) (id : String) :
    Keeps P J (getOrderById customerId id) := by
  refine keeps_tryCatch (keeps_bind (keeps_fillsCache h rfl) (fun cached => ?_))
    (fun _ => keeps_respond _ _)
  split
  · split <;> exact keeps_respond _ _
  · exact keeps_respond _ _
  · refine keeps_bind (keeps_integerParam _) (fun id => ?_)
    refine keeps_bind (keeps_query h.calm _) (fun found => ?_)
    split
    · exact keeps_respond _ _
    · split
      · exact keeps_respond _ _
      · exact keeps_bind (keeps_fillsCache h rfl) (fun _ => keeps_respond _ _)

theorem keeps_getProductById (id : String) :
    Keeps P J (getProductById id) := by
  refine keeps_tryCatch (keeps_bind (keeps_fillsCache h rfl) (fun cached => ?_))
    (fun _ => keeps_respond _ _)
  split
  · exact keeps_respond _ _
  · exact keeps_respond _ _
  · refine keeps_bind (keeps_integerParam _) (fun id => ?_)
    refine keeps_bind (keeps_query h.calm _) (fun found => ?_)
    split
    · exact keeps_respond _ _
    · exact keeps_bind (keeps_fillsCache h rfl) (fun _ => keeps_respond _ _)

end Caching

/-!
# Accounts
-/

section Account

variable (h : Kind.account.Allowed P J)

include h

theorem keeps_writesCustomer {c : Cmd} (hc : writesCustomer c = true) :
    Keeps P J (perform (I := service) c) := by
  refine h c ?_
  simp [Kind.issues, hc]

theorem keeps_saveCustomer (message : String) (customerId : Int)
    (idParam : String) (body : CustomerBody) :
    Keeps P J (saveCustomer message customerId idParam body) := by
  refine keeps_ownData (keeps_tryCatch
    (keeps_bind (keeps_integerParam _) (fun id => ?_))
    (fun _ => keeps_respond _ _)) _ _
  refine keeps_bind (keeps_query h.calm _) (fun found => ?_)
  split
  · exact keeps_respond _ _
  · refine keeps_bind ?_ (fun _ => keeps_respond _ _)
    unfold Customer.update
    split
    · exact keeps_pure _
    · refine keeps_bind (keeps_beforeUpdate h.calm _) (fun _ => ?_)
      exact keeps_bind (keeps_writesCustomer h rfl) (fun _ => keeps_pure _)

end Account

/-!
# Tasks
-/

theorem keeps_handle (req : Request)
    (h : (kindOf (.request req)).Allowed P J) : Keeps P J (handle req) := by
  by_cases hlooks : looks req = true
  · exact keeps_handle_looks h.calm hlooks
  · have known : forall {next : Customer -> Act Response} (token : Token),
        (forall c, Keeps P J (next c)) ->
          Keeps P J (authenticateCustomer token next) :=
      fun token hnext => keeps_authenticated h.calm hnext token _ _ _
    cases req with
    | createOrder token items =>
        exact known _ (fun _ => keeps_createOrder h.stockParts _ _)
    | updateOrder token id status =>
        exact known _ (fun _ => moving_updateOrder h.moving _ _ _)
    | patchOrderStatus token id status =>
        exact known _ (fun _ => moving_patchOrderStatus h.moving _ _)
    | softDeleteOrder token id =>
        exact known _ (fun _ => moving_softDeleteOrder h.moving _)
    | restoreOrder token id =>
        exact known _ (fun _ => moving_restoreOrder h.moving _)
    | getOrderById token id =>
        exact known _ (fun _ => keeps_getOrderById h _ _)
    | getProductById id =>
        exact keeps_validateRequest (keeps_getProductById h _) _
    | createProduct body =>
        exact keeps_validateRequest
          (keeps_createProduct (keeps_productCreate h) _) _
    | updateProduct id body =>
        exact keeps_validateRequest (keeps_changeProduct h (fun _ =>
          keeps_bind (keeps_productUpdate h _ _)
            (fun _ => keeps_respond _ _)) _ _ _) _
    | patchProduct id body =>
        exact keeps_validateRequest (keeps_changeProduct h (fun _ =>
          keeps_bind (keeps_productUpdate h _ _)
            (fun _ => keeps_respond _ _)) _ _ _) _
    | softDeleteProduct id =>
        exact keeps_validateRequest (keeps_changeProduct h (fun _ =>
          keeps_bind (keeps_productDated h)
            (fun _ => keeps_respond _ _)) _ _ _) _
    | restoreProduct id =>
        exact keeps_validateRequest (keeps_changeProduct h (fun _ =>
          keeps_bind (keeps_productDated h)
            (fun _ => keeps_respond _ _)) _ _ _) _
    | updateCustomer token id body =>
        exact keeps_bind (keeps_emailVerdict h.calm _) (fun _ =>
          keeps_validateRequest
            (known _ (fun _ => keeps_saveCustomer h _ _ _ _)) _)
    | patchCustomer token id body =>
        exact keeps_bind (keeps_emailVerdict h.calm _) (fun _ =>
          keeps_validateRequest
            (known _ (fun _ => keeps_saveCustomer h _ _ _ _)) _)
    | restoreCustomer token id =>
        exact keeps_validateRequest (keeps_authenticated h.calm (fun _ =>
          keeps_restoreCustomer h.calm
            (fun _ => keeps_writesCustomer h rfl) _ _) _ _ _ _) _
    | registerCustomer body =>
        exact keeps_registerCustomer h.calm
          (fun _ _ _ => keeps_writesCustomer h rfl) _
    | _ => exact absurd rfl hlooks

/-- A task keeps what the commands of its kind keep. -/
theorem wp_task {task : Task} (h : (kindOf task).Allowed P J) {s : sigma}
    (hs : J s) : task.code.wp P (fun _ => J) s := by
  cases task with
  | request req => exact wp_settle.mpr (keeps_handle req h s hs)
  | statusJob job =>
      have hmoving : Moving P J := by
        intro c hc
        refine h c ?_
        simp [kindOf, Kind.issues, hc]
      exact wp_settle.mpr (keeps_statusProcessor (statusParts_moving hmoving
        (fun job => h (.addJob job) rfl)) job s hs)
  | cancelJob orderId =>
      exact wp_settle.mpr (moving_cancelProcessor h.moving orderId s hs)

end Keeps

end Service
end ExpressEcommerce
