import ExpressEcommerce.Service.Models

/-!
# Order controller

`controllers/orderController.js`, handler by handler.  Each handler is an action
that ends in a response; what a `try` block catches is caught here by
`tryCatch` around the same statements.
-/

namespace ExpressEcommerce
namespace Service

open Foundation
open Store

def respond (status : Nat) (body : Body) : Act Response :=
  pure ⟨status, body⟩

/-- A managed transaction: the body is committed when it returns and rolled
back when it throws; callbacks registered with `afterCommit` run at the end. -/
def transaction (body : Act alpha) (afterCommit : alpha -> Act Unit) :
    Act alpha := do
  begin
  let result ← tryCatch
    (do
      let result ← body
      commit
      pure result)
    (fun e => do
      detached rollback
      throw e)
  afterCommit result
  pure result

/-!
# Placing an order
-/

def findProduct (products : List Product) (productId : Int) :
    Option Product :=
  products.find? (fun p => decide (p.id = productId))

/-- The first loop: every line against the rows read at the start. -/
def checkItem (products : List Product) (item : ItemRequest) : Act PUnit :=
  match findProduct products item.productId with
  | none => throw s!"Product with ID {item.productId} not found."
  | some product =>
      if product.stock < item.quantity then
        throw s!"Product \"{product.name}\" is out of stock. Try ordering available items only."
      else pure ()

/-- One round of the second loop: the line is inserted at the price read at the
start and its quantity is taken from the stock. -/
def placeItem (products : List Product) (order : Order) (total : Int)
    (item : ItemRequest) : Act Int :=
  match findProduct products item.productId with
  | none => throw "Cannot read properties of undefined (reading 'price')"
  | some product => do
      let _ ← OrderItem.create true order.id item.productId item.quantity
        product.price
      Product.incrementStock true product.id (-item.quantity)
      pure (total + product.price * item.quantity)

def createOrderBody (customerId : Int) (items : List ItemRequest) :
    Act Order := do
  let products : List Product ←
    query false (.productsById (items.map ItemRequest.productId))
  items.forM (checkItem products)
  let order ← Order.create true customerId 0 Status.pending
  let total ← items.foldlM (placeItem products order) 0
  Order.saveTotal true order total

def createOrder (customerId : Int) (items : List ItemRequest) :
    Act Response :=
  tryCatch
    (do
      let order ← transaction (createOrderBody customerId items)
        (fun order =>
          detached (scheduleStatusUpdateJob order.id (some Status.pending)))
      respond 201 (.messageOrder "Order placed successfully" order.toJSON))
    (fun e => respond 500 (.error e))

/-!
# Reading orders
-/

def renderOrder (customer : Option (Customer -> CustomerJson))
    (product : Product -> ProductJson) (graph : OrderGraph) : OrderJson :=
  { order := graph.order
    customer := customer.map (fun f => graph.customer.map f)
    items := some (graph.items.map (fun i =>
      { item := i.item, product := some (i.product.map product) })) }

def everything : Include :=
  { customer := true, items := some true, product := true }

/-- `toJSON` of an order converts included instances by `get({ plain: true })`,
not by their own `toJSON`. -/
def fullOrder : OrderGraph -> OrderJson :=
  renderOrder (some Customer.get) Product.toJSON

def getAllOrders (page : PageQuery) : Act Response :=
  tryCatch
    (do
      let window := paginate page
      let found : Nat × List OrderGraph ← query false
        (.orderPage .all everything window.limit window.offset)
      pure (sendPaginatedResponse "data" (.orders (found.2.map fullOrder))
        found.1 window.limit window.page))
    (fun e => respond 500 (.errorDetails "Failed to fetch orders" e))

def getOrdersByStatus (customerId : Int) (status : String)
    (page : PageQuery) : Act Response :=
  match Status.ofText? status with
  | none => respond 400 (.error s!"Invalid status: '{status}'")
  | some status =>
      tryCatch
        (do
          let window := paginate page
          let found : Nat × List OrderGraph ← query false
            (.orderPage (.byStatus customerId status) everything window.limit
              window.offset)
          pure (sendPaginatedResponse "orders"
            (.orders (found.2.map
              (renderOrder (some Customer.idNameEmail) Product.idNamePrice)))
            found.1 window.limit window.page))
        (fun _ => respond 500
          (.error "Server error while fetching orders by status"))

/-- The cache key is made from the text of the route parameter. -/
def getOrderById (customerId : Int) (orderId : String) : Act Response :=
  let cacheKey := "order:" ++ orderId
  tryCatch
    (do
      let cached : Option CacheValue ←
        Action.perform (I := service) (Cmd.redisGet cacheKey)
      match cached with
      | some (.order parsed) =>
          if parsed.order.customerId ≠ customerId then
            respond 403 (.error "Access denied: Not your order")
          else respond 200 (.order parsed)
      | some (.product _) =>
          -- the `customer_id` of a product is undefined
          respond 403 (.error "Access denied: Not your order")
      | none => do
          let id ← integerParam orderId
          let found : Option OrderGraph ←
            query false (.orderByPk id true everything)
          match found with
          | none => respond 404 (.error "Order not found")
          | some graph =>
              if graph.order.customerId ≠ customerId then
                respond 403 (.error "Access denied: Not your order")
              else do
                Action.perform (I := service)
                  (Cmd.redisSet cacheKey (.order (fullOrder graph)))
                respond 200 (.order (fullOrder graph)))
    (fun _ => respond 500 (.error "Failed to fetch order"))

def getOrdersByCustomer (customerId : Int) (idParam : String)
    (page : PageQuery) : Act Response :=
  if jsInteger? idParam ≠ some customerId then
    respond 403 (.error "Access denied: Not your data")
  else
    tryCatch
      (do
        let id ← integerParam idParam
        let customer : Option Customer ←
          query false (.customerByPk id true)
        match customer with
        | none => respond 404 (.error "Customer not found")
        | some _ => do
            let window := paginate page
            let found : Nat × List OrderGraph ← query false
              (.orderPage (.byCustomer id)
                { items := some true, product := true } window.limit
                window.offset)
            pure (sendPaginatedResponse "orders"
              (.orders (found.2.map (renderOrder none Product.idNamePrice)))
              found.1 window.limit window.page))
      (fun _ => respond 500 (.error "Server error"))

/-!
# Changing the status
-/

/-- `status` is the field of the body; `none` and the empty text are falsy. -/
def updateOrder (customerId : Int) (idParam : String)
    (status : Option String) : Act Response :=
  tryCatch
    (do
      let id ← integerParam idParam
      let found : Option OrderGraph ← query false (.orderByPk id true {})
      match found with
      | none => respond 404 (.error "Order not found")
      | some graph =>
          let order := graph.order
          if order.customerId ≠ customerId then
            respond 403 (.error "Access denied: Not your order")
          else if order.status = Status.delivered then
            respond 400 (.error "Delivered orders cannot be updated")
          else
            let wanted := status.filter (fun s => !s.isEmpty)
            match wanted, wanted.bind Status.ofText? with
            | some _, none => respond 400 (.error "Invalid status value")
            | _, valid => do
                let order ← Order.saveStatus false order
                  (valid.getD order.status)
                respond 200
                  (.messageOrder "Order updated successfully" order.toJSON))
    (fun _ => respond 500 (.error "Internal server error"))

/-- Unlike `updateOrder`, the handler does not look at the owner, and a missing
status is an error. -/
def patchOrderStatus (idParam : String) (status : Option String) :
    Act Response :=
  tryCatch
    (do
      let id ← integerParam idParam
      let found : Option OrderGraph ← query false (.orderByPk id true {})
      match found with
      | none => respond 404 (.error "Order not found")
      | some graph =>
          let order := graph.order
          if order.status = Status.delivered then
            respond 400 (.error "Delivered orders cannot be modified")
          else
            match status.bind Status.ofText? with
            | none => respond 400 (.error "Invalid order status")
            | some status => do
                let order ← Order.saveStatus false order status
                respond 200 (.messageOrder
                  s!"Order status updated to '{status.text}'" order.toJSON))
    (fun _ => respond 500 (.error "Internal server error"))

/-!
# Deleting and restoring

Both handlers open an unmanaged transaction before the `try` block.
-/

def itemsIncluded : Include :=
  { items := some true }

def restock (items : List OrderItem) : Act PUnit :=
  items.forM (fun item =>
    Product.incrementStock true item.productId item.quantity)

def takeStock (items : List OrderItem) : Act PUnit :=
  items.forM (fun item =>
    Product.incrementStock true item.productId (-item.quantity))

def softDeleteOrder (idParam : String) : Act Response := do
  begin
  tryCatch
    (do
      let id ← integerParam idParam
      let found : Option OrderGraph ←
        query true (.orderByPk id true itemsIncluded)
      match found with
      | none => do
          rollback
          respond 404 (.error "Order not found")
      | some graph =>
          if graph.order.status = Status.delivered then do
            rollback
            respond 400 (.error "Delivered orders cannot be deleted.")
          else do
            restock (graph.items.map ItemGraph.item)
            let order ←
              Order.saveStatus true graph.order Status.cancelled
            let _ ← Order.destroy true order
            commit
            respond 200 (.message "Order soft-deleted and stock restored"))
    (fun _ => do
      rollback
      respond 500 (.error "Internal server error"))

/-- The job is scheduled without a status, so the lookup of the next status
finds nothing. -/
def restoreOrder (idParam : String) : Act Response := do
  begin
  tryCatch
    (do
      let id ← integerParam idParam
      let found : Option OrderGraph ←
        query true (.orderByPk id false itemsIncluded)
      match found with
      | none => do
          rollback
          respond 404 (.error "Order not found")
      | some graph =>
          if graph.order.deletedAt.isNone then do
            rollback
            respond 400 (.error "Order is not deleted")
          else do
            let order ← Order.restore true graph.order
            (graph.items.map ItemGraph.item).forM (fun item => do
              let _ ← OrderItem.restore true item
              pure ())
            let order ← Order.saveStatus true order Status.pending
            takeStock (graph.items.map ItemGraph.item)
            commit
            detached (scheduleStatusUpdateJob order.id none)
            respond 200 (.messageOrder
              "Order restored and status updates re-scheduled."
              { order := order
                customer := none
                items := some (graph.items.map (fun i =>
                  { item := i.item, product := none })) }))
    (fun _ => do
      rollback
      respond 500 (.error "Internal server error"))

/-!
# Queue processors
-/

/-- `bull/processors/statusProcessor.js`.  The query is paranoid, so the test
of `deletedAt` never holds. -/
def statusProcessor (job : Job) : Act Unit := do
  let found : Option OrderGraph ←
    query false (.orderByPk job.orderId true {})
  match found with
  | none => pure ()
  | some graph =>
      let order := graph.order
      if order.deletedAt.isSome ∨ order.status = Status.cancelled then pure ()
      else if order.status = Status.delivered then pure ()
      else if order.status = job.targetStatus then pure ()
      else do
        let _ ← Order.saveStatus false order job.targetStatus
        if job.targetStatus ≠ Status.delivered then
          scheduleStatusUpdateJob job.orderId (some job.targetStatus)
        else pure ()

/-- `bull/processors/cancelProcessor.js`: the statements are not part of a
transaction, and soft-deleted items are loaded too. -/
def cancelProcessor (orderId : Int) : Act Unit := do
  let found : Option OrderGraph ←
    query false (.orderByPk orderId true { items := some false })
  match found with
  | none => pure ()
  | some graph =>
      if graph.order.deletedAt.isSome then pure ()
      else if graph.order.status = Status.delivered then pure ()
      else do
        let order ← Order.saveStatus false graph.order Status.cancelled
        let _ ← Order.destroy false order
        (graph.items.map ItemGraph.item).forM (fun item =>
          Product.incrementStock false item.productId item.quantity)

end Service
end ExpressEcommerce
