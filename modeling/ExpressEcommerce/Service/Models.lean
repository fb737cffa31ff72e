import ExpressEcommerce.Service.Values

/-!
# Models and hooks

The Sequelize instance methods used by the service, each followed by the hooks
that the application registers for it.  `save` issues an `UPDATE` only for the
fields that differ from the values read, and the after-hooks run only when it
did.  Relative updates (`increment`, `decrement`) run no hooks and ignore the
paranoid flag.
-/

namespace ExpressEcommerce
namespace Service

open Foundation
open Store

abbrev Act : Type -> Type := Action service

def query (inTx : Bool) (q : Query) : Act q.Answer :=
  Action.perform (I := service) (Cmd.query inTx q)

def insert (inTx : Bool) (row : NewRow) : Act (Int × Nat) :=
  Action.perform (I := service) (Cmd.insert inTx row)

def update (inTx : Bool) (change : Change) : Act Nat :=
  Action.perform (I := service) (Cmd.update inTx change)

def begin : Act Unit :=
  Action.perform (I := service) Cmd.begin

def commit : Act Unit :=
  Action.perform (I := service) Cmd.commit

def rollback : Act Unit :=
  Action.perform (I := service) Cmd.rollback

/-- A promise that nobody awaits: its failure does not reach the caller. -/
def detached (x : Act Unit) : Act Unit :=
  tryCatch x (fun _ => pure ())

/-- `findByPk` with a text: the literal has to be one PostgreSQL can compare
with an integer column. -/
def integerParam (text : String) : Act Int :=
  match pgInteger? text with
  | none => throw "invalid input syntax for type integer"
  | some id => pure id

theorem wp_integerParam {sigma alpha : Type} {P : Protocol service sigma}
    {text : String} {next : Int -> Act alpha} {Q : alpha -> sigma -> Prop}
    {E : String -> sigma -> Prop} {s : sigma}
    (hbad : pgInteger? text = none -> forall e, E e s)
    (hok : forall id, pgInteger? text = some id ->
      Action.wp P (next id) Q E s) :
    Action.wp P (integerParam text >>= next) Q E s := by
  rw [Action.wp_bind]
  unfold integerParam
  cases hid : pgInteger? text with
  | none => exact hbad hid _
  | some id => exact hok id hid

/-!
# Cache helpers and job scheduling
-/

def orderKey (id : Int) : String :=
  "order:" ++ toString id

def productKey (id : Int) : String :=
  "product:" ++ toString id

theorem order_ne_product (text other : String) :
    "order:" ++ text ≠ "product:" ++ other := by
  intro heq
  have hlist := congrArg String.toList heq
  rw [String.toList_append, String.toList_append] at hlist
  have hhead := congrArg List.head? hlist
  revert hhead
  simp

def invalidateOrderCache (orderId : Int) : Act Unit :=
  tryCatch (Action.perform (I := service) (Cmd.redisDel (orderKey orderId)))
    (fun _ => pure ())

def invalidateProductCache (productId : Int) : Act Unit :=
  tryCatch
    (Action.perform (I := service) (Cmd.redisDel (productKey productId)))
    (fun _ => pure ())

def nextStatusMap : Status -> Option Status
  | .pending => some .processing
  | .processing => some .shipped
  | .shipped => some .delivered
  | .delivered => none
  | .cancelled => none

/-- The second argument is optional in JavaScript; without it the map lookup
gives `undefined` and nothing is scheduled. -/
def scheduleStatusUpdateJob (orderId : Int) (currentStatus : Option Status) :
    Act Unit :=
  match currentStatus.bind nextStatusMap with
  | none => pure ()
  | some nextStatus =>
      Action.perform (I := service) (Cmd.addJob ⟨orderId, nextStatus⟩)

/-!
# Orders
-/

def Order.afterCreate (order : Order) : Act Unit := do
  invalidateOrderCache order.id
  detached (scheduleStatusUpdateJob order.id (some order.status))

def Order.create (inTx : Bool) (customerId totalPrice : Int)
    (status : Status) : Act Order := do
  let (id, now) ← insert inTx (.order customerId totalPrice status)
  let order : Order := ⟨id, customerId, totalPrice, status, now, now, none⟩
  Order.afterCreate order
  pure order

/-- `order.update({ status })`, or an assignment followed by `save`. -/
def Order.saveStatus (inTx : Bool) (order : Order) (status : Status) :
    Act Order :=
  if order.status = status then pure order
  else do
    let now ← update inTx (.orderStatus order.id status)
    invalidateOrderCache order.id
    pure { order with status := status, updatedAt := now }

/-- `order.update({ total_price })`.  The instance holds the old amount as a
text and the new one as a number, so the field always counts as changed. -/
def Order.saveTotal (inTx : Bool) (order : Order) (total : Int) :
    Act Order := do
  let now ← update inTx (.orderTotal order.id total)
  invalidateOrderCache order.id
  pure { order with totalPrice := total, updatedAt := now }

def Order.destroy (inTx : Bool) (order : Order) : Act Order := do
  let order ←
    if order.deletedAt.isNone then do
      let now ← update inTx (.orderDeleted order.id true)
      pure { order with deletedAt := some now, updatedAt := now }
    else pure order
  invalidateOrderCache order.id
  pure order

def Order.restore (inTx : Bool) (order : Order) : Act Order := do
  let order ←
    if order.deletedAt.isSome then do
      let now ← update inTx (.orderDeleted order.id false)
      pure { order with deletedAt := none, updatedAt := now }
    else pure order
  invalidateOrderCache order.id
  pure order

/-!
# Order items

The three hooks of the model recompute the total of the item's order from a
query that is not part of any transaction.
-/

def lineSum (items : List OrderItem) : Int :=
  (items.map (fun i => i.quantity * i.unitPrice)).sum

def OrderItem.recalculate (item : OrderItem) : Act Unit := do
  let found : Option OrderGraph ← query false
    (.orderByPk item.orderId true { items := some true })
  match found with
  | none => pure ()
  | some graph => do
      let total := lineSum (graph.items.map ItemGraph.item)
      let order ← Order.saveTotal false graph.order total
      invalidateOrderCache order.id

def OrderItem.create (inTx : Bool)
    (orderId productId quantity unitPrice : Int) : Act OrderItem := do
  let (id, now) ← insert inTx (.item orderId productId quantity unitPrice)
  let item : OrderItem :=
    ⟨id, orderId, productId, quantity, unitPrice, now, now, none⟩
  OrderItem.recalculate item
  pure item

def OrderItem.changed (item : OrderItem) (patch : ItemPatch) : ItemPatch :=
  { orderId := patch.orderId.filter (fun v => decide (v ≠ item.orderId))
    quantity := patch.quantity.filter (fun v => decide (v ≠ item.quantity))
    unitPrice := patch.unitPrice }

def OrderItem.update (inTx : Bool) (item : OrderItem) (patch : ItemPatch) :
    Act OrderItem :=
  if OrderItem.changed item patch = {} then pure item
  else do
    let now ← Service.update inTx
      (.itemFields item.id (OrderItem.changed item patch))
    let item := { item.patch patch with updatedAt := now }
    OrderItem.recalculate item
    pure item

def OrderItem.destroy (inTx : Bool) (item : OrderItem) : Act OrderItem := do
  let item ←
    if item.deletedAt.isNone then do
      let now ← Service.update inTx (.itemDeleted item.id true)
      pure { item with deletedAt := some now, updatedAt := now }
    else pure item
  OrderItem.recalculate item
  pure item

/-- No hook is registered for `restore` of an item. -/
def OrderItem.restore (inTx : Bool) (item : OrderItem) : Act OrderItem :=
  if item.deletedAt.isSome then do
    let now ← Service.update inTx (.itemDeleted item.id false)
    pure { item with deletedAt := none, updatedAt := now }
  else pure item

/-!
# Products
-/

/-- `Product.increment({ stock }, { where: { id } })`; `decrement` passes the
negated amount. -/
def Product.incrementStock (inTx : Bool) (productId amount : Int) :
    Act Unit := do
  let _ ← update inTx (.productStock productId amount)
  pure ()

/-- An instance of the model.  Its price is the one that was read or submitted;
the column rounds the latter. -/
structure ProductInstance where
  row : Product
  price : Rat

namespace ProductInstance

def ofRow (product : Product) : ProductInstance :=
  { row := product, price := product.price }

def doc (product : ProductInstance) : ProductDoc :=
  { product.row.doc with price := product.price }

def toJSON (product : ProductInstance) : ProductJson :=
  { product.row.toJSON with price := product.price }

end ProductInstance

def syncToElasticsearch (product : ProductInstance) : Act Unit :=
  Action.perform (I := service) (Cmd.indexDoc product.row.id product.doc)

def removeFromElasticsearch (productId : Int) : Act Unit :=
  tryCatch (Action.perform (I := service) (Cmd.deleteDoc productId))
    (fun _ => pure ())

/-- One line of a bulk request. -/
inductive BulkLine where
  | index (id : Int)
  | source (doc : ProductDoc)
  deriving DecidableEq, Repr

/-- Elasticsearch reads the lines in pairs. -/
def readBulk : List BulkLine -> List (Int × ProductDoc)
  | .index id :: .source doc :: rest => (id, doc) :: readBulk rest
  | _ => []

def bulkLines (products : List Product) : List BulkLine :=
  products.flatMap (fun p => [.index p.id, .source p.doc])

/-- `elasticsearch/syncProducts.js`, called once when the server listens.  The
errors are logged and not passed on. -/
def syncProductsToElasticsearch : Act Unit :=
  tryCatch
    (do
      let indexExists : Bool ←
        Action.perform (I := service) Cmd.indexExists
      if !indexExists then
        Action.perform (I := service) Cmd.createIndex
      let products : List Product ← query false .products
      let operations := bulkLines products
      if operations.length > 0 then
        Action.perform (I := service) (Cmd.bulkIndex (readBulk operations)))
    (fun _ => pure ())

/-- The insert returns the row, with the price as the column has rounded it. -/
def Product.create (name : String) (description : Option String)
    (price : Rat) (stock : Int) : Act Product := do
  let (id, now) ←
    insert false (.product name description (roundHundredths price) stock)
  let product : Product :=
    ⟨id, name, description, roundHundredths price, stock, now, now, none⟩
  invalidateProductCache product.id
  syncToElasticsearch (.ofRow product)
  pure product

/-- The price to save: a submitted number never equals the text of a decimal
that the instance holds. -/
def Product.changedPrice (product : Product) :
    Option Scalar -> Option (Option Rat)
  | none => some none
  | some v =>
      if v = Scalar.text (decimalText product.price) then some none
      else (v.decimal?).map some

/-- The stock to save: a submitted text never equals a number. -/
def Product.changedStock (product : Product) :
    Option Scalar -> Option (Option Int)
  | none => some none
  | some v =>
      if v = Scalar.number (product.stock * 100) then some none
      else (v.integer?).map some

/-- The fields of the body that differ from the instance, if the columns can
read them. -/
def Product.changed (product : Product) (body : ProductBody) :
    Option ProductPatch := do
  let price ← Product.changedPrice product body.price
  let stock ← Product.changedStock product body.stock
  some
    { name :=
        match body.name with
        | some (.text s) => if s = product.name then none else some s
        | _ => none
      description :=
        match body.description with
        | some (.text s) =>
            if product.description = some s then none else some (some s)
        | _ => none
      price := price.map roundHundredths
      stock := stock }

/-- The price of the instance after the fields have been set. -/
def Product.submittedPrice (product : Product) (body : ProductBody) : Rat :=
  (Product.changedPrice product body.price).join.getD product.price

/-- `product.update(values)` with the `beforeUpdate` and `afterUpdate` hooks.
The statement returns no row, so the hook sends the price as it was
submitted. -/
def Product.update (product : Product) (body : ProductBody) :
    Act ProductInstance :=
  match Product.changed product body with
  | none => throw "invalid input syntax"
  | some patch =>
      if patch.stock.any (fun n => decide (n < 0)) then
        throw "Product stock cannot be negative"
      else if patch = {} then pure (.ofRow product)
      else do
        let now ← Service.update false (.productFields product.id patch)
        let product : ProductInstance :=
          { row := { product.patch patch with updatedAt := now }
            price := Product.submittedPrice product body }
        invalidateProductCache product.row.id
        syncToElasticsearch product
        pure product

def Product.destroy (product : Product) : Act Product := do
  let product ←
    if product.deletedAt.isNone then do
      let now ← Service.update false (.productDeleted product.id true)
      pure { product with deletedAt := some now, updatedAt := now }
    else pure product
  invalidateProductCache product.id
  removeFromElasticsearch product.id
  pure product

def Product.restore (product : Product) : Act Product := do
  let product ←
    if product.deletedAt.isSome then do
      let now ← Service.update false (.productDeleted product.id false)
      pure { product with deletedAt := none, updatedAt := now }
    else pure product
  invalidateProductCache product.id
  removeFromElasticsearch product.id
  pure product

/-!
# Customers
-/

def bcryptHash (password : String) : Act String :=
  Action.perform (I := service) (Cmd.bcryptHash password)

/-- `Customer.create` with the hashing `beforeCreate` hook. -/
def Customer.create (name email password : String) : Act Customer := do
  let digest ← if password.isEmpty then pure password else bcryptHash password
  let (id, now) ← insert false (.customer name email digest)
  pure ⟨id, name, email, digest, now, now, none⟩

def Customer.changed (customer : Customer) (body : CustomerBody) :
    CustomerPatch :=
  { name := body.name.filter (fun v => decide (v ≠ customer.name))
    email := body.email.filter (fun v => decide (v ≠ customer.email))
    password :=
      body.password.filter (fun v => decide (v ≠ customer.password)) }

/-- `beforeUpdate` replaces a changed password by its hash. -/
def Customer.beforeUpdate (patch : CustomerPatch) : Act CustomerPatch :=
  match patch.password with
  | none => pure patch
  | some password => do
      let digest ← bcryptHash password
      pure { patch with password := some digest }

def Customer.update (customer : Customer) (body : CustomerBody) :
    Act Customer :=
  if Customer.changed customer body = {} then pure customer
  else do
    let patch ← Customer.beforeUpdate (Customer.changed customer body)
    let now ← Service.update false (.customerFields customer.id patch)
    pure { customer.patch patch with updatedAt := now }

/-- `beforeDestroy` looks for orders of the customer that are not delivered. -/
def Customer.destroy (customer : Customer) : Act Customer := do
  let orders : List Order ← query false (.undelivered customer.id)
  if orders ≠ [] then
    throw "Cannot delete customer with undelivered orders"
  else if customer.deletedAt.isNone then do
    let now ← Service.update false (.customerDeleted customer.id true)
    pure { customer with deletedAt := some now, updatedAt := now }
  else pure customer

def Customer.restore (customer : Customer) : Act Customer :=
  if customer.deletedAt.isSome then do
    let now ← Service.update false (.customerDeleted customer.id false)
    pure { customer with deletedAt := none, updatedAt := now }
  else pure customer

end Service
end ExpressEcommerce
