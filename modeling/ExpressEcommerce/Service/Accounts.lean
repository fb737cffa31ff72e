import ExpressEcommerce.Service.Orders

/-!
# Product, customer and authentication controllers
-/

namespace ExpressEcommerce
namespace Service

open Foundation
open Store

/-!
# Products
-/

/-- Values reach the insert as the columns read them. -/
def createProduct (body : ProductBody) : Act Response :=
  tryCatch
    (do
      match body.name, body.price.bind Scalar.decimal?,
          body.stock.bind Scalar.integer? with
      | some (.text name), some price, some stock =>
          let product ← Product.create name body.described price stock
          respond 201
            (.messageProduct "Product created successfully" product.toJSON)
      | _, _, _ => throw "invalid input syntax")
    (fun _ => respond 500 (.error "Failed to create product"))

def getProductById (idParam : String) : Act Response :=
  let cacheKey := "product:" ++ idParam
  tryCatch
    (do
      let cached : Option CacheValue ←
        Action.perform (I := service) (Cmd.redisGet cacheKey)
      match cached with
      | some (.product parsed) => respond 200 (.product parsed)
      | some (.order parsed) => respond 200 (.order parsed)
      | none => do
          let id ← integerParam idParam
          let found : Option Product ← query false (.productByPk id false)
          match found with
          | none => respond 404 (.message "Product not found")
          | some product => do
              Action.perform (I := service)
                (Cmd.redisSet cacheKey (.product product.toJSON))
              respond 200 (.product product.toJSON))
    (fun _ => respond 500 (.error "Failed to fetch product"))

def getAllProducts (page : PageQuery) : Act Response :=
  tryCatch
    (do
      let window := paginate page
      let found : Nat × List Product ←
        query false (.productPage window.limit window.offset)
      pure (sendPaginatedResponse "data"
        (.products (found.2.map Product.toJSON)) found.1 window.limit
        window.page))
    (fun e => respond 500 (.errorDetails "Failed to fetch products" e))

/-- `updateProduct` and `patchProduct` differ in their validators and in the
text of the answer; both pass the submitted fields to `product.update`. -/
def saveProduct (message : String) (idParam : String) (body : ProductBody) :
    Act Response :=
  tryCatch
    (do
      let id ← integerParam idParam
      let found : Option Product ← query false (.productByPk id true)
      match found with
      | none => respond 404 (.message "Product not found")
      | some product => do
          let product ← Product.update product body
          respond 200 (.messageProduct message product.toJSON))
    (fun _ => respond 500 (.error "Failed to update product"))

def updateProduct (idParam : String) (body : ProductBody) : Act Response :=
  saveProduct "Product updated" idParam body

def patchProduct (idParam : String) (body : ProductBody) : Act Response :=
  saveProduct "Product partially updated" idParam body

def softDeleteProduct (idParam : String) : Act Response :=
  tryCatch
    (do
      let id ← integerParam idParam
      let found : Option Product ← query false (.productByPk id true)
      match found with
      | none => respond 404 (.message "Product not found")
      | some product => do
          let _ ← Product.destroy product
          respond 200 (.message "Product soft-deleted"))
    (fun _ => respond 500 (.error "Failed to delete product"))

def restoreProduct (idParam : String) : Act Response :=
  tryCatch
    (do
      let id ← integerParam idParam
      let found : Option Product ← query false (.productByPk id false)
      match found with
      | none => respond 404 (.message "Product not found")
      | some product => do
          let product ← Product.restore product
          respond 200
            (.messageProduct "Product restored successfully" product.toJSON))
    (fun _ => respond 500 (.error "Failed to restore product"))

def searchProducts (text : Option String) : Act Response :=
  match text.filter (fun s => !s.isEmpty) with
  | none => respond 400 (.message "Missing search query")
  | some text =>
      tryCatch
        (do
          let hits : List (Int × ProductDoc) ←
            Action.perform (I := service) (Cmd.search text)
          respond 200 (.results hits))
        (fun _ => respond 500 (.message "Search failed"))

/-!
# Customers
-/

/-- Every handler but the listing compares the route parameter with the id of
the authenticated customer first. -/
def ownData (customerId : Int) (idParam : String) (handler : Act Response) :
    Act Response :=
  if jsInteger? idParam ≠ some customerId then
    respond 403 (.error "Access denied: Not your data")
  else handler

def getCustomerById (customerId : Int) (idParam : String) : Act Response :=
  ownData customerId idParam
    (tryCatch
      (do
        let id ← integerParam idParam
        let found : Option Customer ← query false (.customerByPk id true)
        match found with
        | none => respond 404 (.error "Customer not found")
        | some customer => respond 200 (.customer customer.toJSON))
      (fun _ => respond 500 (.error "Failed to fetch customer")))

def getAllCustomers (page : PageQuery) : Act Response :=
  tryCatch
    (do
      let window := paginate page
      let found : Nat × List Customer ←
        query false (.customerPage window.limit window.offset)
      pure (sendPaginatedResponse "customers"
        (.customers (found.2.map Customer.toJSON)) found.1 window.limit
        window.page))
    (fun _ => respond 500 (.error "Failed to fetch customers"))

/-- `updateCustomer` and `patchCustomer` differ in their validators and in the
text of the answer. -/
def saveCustomer (message : String) (customerId : Int) (idParam : String)
    (body : CustomerBody) : Act Response :=
  ownData customerId idParam
    (tryCatch
      (do
        let id ← integerParam idParam
        let found : Option Customer ← query false (.customerByPk id true)
        match found with
        | none => respond 404 (.error "Customer not found")
        | some customer => do
            let customer ← Customer.update customer body
            respond 200 (.messageCustomer message customer.toJSON))
      (fun _ => respond 500 (.error "Failed to update customer")))

def updateCustomer (customerId : Int) (idParam : String)
    (body : CustomerBody) : Act Response :=
  saveCustomer "Customer updated" customerId idParam body

def patchCustomer (customerId : Int) (idParam : String)
    (body : CustomerBody) : Act Response :=
  saveCustomer "Customer partially updated" customerId idParam body

/-- The name `Op` is not imported in the controller: building the count query
throws a reference error before any statement is sent. -/
def softDeleteCustomer (customerId : Int) (idParam : String) :
    Act Response :=
  ownData customerId idParam
    (tryCatch
      (do
        let id ← integerParam idParam
        let found : Option Customer ← query false (.customerByPk id true)
        match found with
        | none => respond 404 (.error "Customer not found")
        | some _ => throw "Op is not defined")
      (fun _ => respond 500 (.error "Failed to delete customer")))

def restoreCustomer (customerId : Int) (idParam : String) : Act Response :=
  if jsInteger? idParam ≠ some customerId then
    respond 403
      (.error "Access denied: You can only restore your own account")
  else
    tryCatch
      (do
        let id ← integerParam idParam
        let found : Option Customer ← query false (.customerByPk id false)
        match found with
        | none => respond 404 (.message "Customer not found")
        | some customer => do
            let customer ← Customer.restore customer
            respond 200 (.messageCustomer "Customer restored successfully"
              customer.toJSON))
      (fun _ => respond 500 (.error "Failed to restore customer"))

/-!
# Registration and login
-/

def given (text : Option String) : Option String :=
  text.filter (fun s => !s.isEmpty)

def registrationError (e : String) : Nat × String :=
  if e = "SequelizeUniqueConstraintError" then
    (400, "Email already exists, try a different email")
  else (500, "Server error")

def registerCustomer (body : CustomerBody) : Act Response :=
  tryCatch
    (match given body.name, given body.email, given body.password with
    | some name, some email, some password => do
        let existing : Option Customer ←
          query false (.customerByEmail email false)
        match existing with
        | some _ =>
            -- the handler tests `deleted_at`, which the instance exposes as
            -- `deletedAt`, so the answer for deleted accounts is never sent
            respond 400 (.error "Email already registered. Try logging in!")
        | none => do
            let customer ← Customer.create name email password
            respond 201 (.messageCustomer "Customer registered successfully"
              customer.idNameEmail)
    | _, _, _ => respond 400 (.error "All fields are required"))
    (fun e =>
      respond (registrationError e).1 (.error (registrationError e).2))

def loginCustomer (body : CustomerBody) : Act Response :=
  tryCatch
    (match given body.email, given body.password with
    | some email, some password => do
        let found : Option Customer ←
          query false (.customerByEmail email true)
        match found with
        | none => respond 400 (.error "Invalid email")
        | some customer => do
            let isMatch : Bool ← Action.perform (I := service)
              (Cmd.bcryptCompare password customer.password)
            if isMatch then
              respond 200
                (.token "Login successful!" customer.id customer.email)
            else respond 400 (.error "Invalid password")
    | _, _ => respond 400 (.error "Email and password are required"))
    (fun _ => respond 500 (.error "Server error"))

end Service
end ExpressEcommerce
