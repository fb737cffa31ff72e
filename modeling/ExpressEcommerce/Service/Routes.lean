import ExpressEcommerce.Service.Accounts

/-!
# Routes

The middleware chains of the four routers.  A request names its handler and
carries what the handler reads: the token, the route parameter, the query
string and the body.
-/

namespace ExpressEcommerce
namespace Service

open Foundation
open Store

/-- The `Authorization` header, after `jwt.verify`. -/
inductive Token where
  | missing
  | invalid
  | valid (id : Int)
  deriving DecidableEq, Repr

/-- Both middlewares look the customer up with `paranoid: false`; they differ
in the texts of their answers. -/
def authenticated (token : Token) (noToken badToken noCustomer : String)
    (next : Customer -> Act Response) : Act Response :=
  match token with
  | .missing => respond 401 (.error noToken)
  | .invalid => respond 401 (.error badToken)
  | .valid id => do
      let found : Except String (Option Customer) ← tryCatch
        (do
          let found : Option Customer ← query false (.customerByPk id false)
          pure (.ok found))
        (fun e => pure (.error e))
      match found with
      | .error _ => respond 401 (.error badToken)
      | .ok none => respond 401 (.error noCustomer)
      | .ok (some customer) => next customer

def authenticateCustomer (token : Token) (next : Customer -> Act Response) :
    Act Response :=
  authenticated token "Authorization Failed! Invalid token / Missing token"
    "Invalid or expired token" "Customer not found" next

def allowSoftDeletedCustomer (token : Token)
    (next : Customer -> Act Response) : Act Response :=
  authenticated token "No token provided" "Invalid token" "Invalid token" next

/-- `middlewares/validateRequest.js`.  It takes the field from `err.param`, which
the errors do not have, so only the messages are sent. -/
def validateRequest (errors : List (String × String)) (next : Act Response) :
    Act Response :=
  if errors = [] then next
  else respond 422 (.errors (errors.map (fun e => e.2)))

/-- The verdict of the `isEmail` rule on a submitted address. -/
def emailVerdict (body : CustomerBody) : Act Bool :=
  match body.email with
  | none => pure true
  | some text => Action.perform (I := service) (Cmd.isEmail text)

inductive Request where
  | createOrder (token : Token) (items : List ItemRequest)
  | getAllOrders (token : Token) (page : PageQuery)
  | getOrdersByStatus (token : Token) (status : String) (page : PageQuery)
  | getOrderById (token : Token) (id : String)
  | getOrdersByCustomer (token : Token) (id : String) (page : PageQuery)
  | updateOrder (token : Token) (id : String) (status : Option String)
  | patchOrderStatus (token : Token) (id : String) (status : Option String)
  | softDeleteOrder (token : Token) (id : String)
  | restoreOrder (token : Token) (id : String)
  | createProduct (body : ProductBody)
  | getProductById (id : String)
  | getAllProducts (page : PageQuery)
  | updateProduct (id : String) (body : ProductBody)
  | patchProduct (id : String) (body : ProductBody)
  | softDeleteProduct (id : String)
  | restoreProduct (id : String)
  | searchProducts (text : Option String)
  | getAllCustomers (page : PageQuery)
  | getCustomerById (token : Token) (id : String)
  | updateCustomer (token : Token) (id : String) (body : CustomerBody)
  | patchCustomer (token : Token) (id : String) (body : CustomerBody)
  | softDeleteCustomer (token : Token) (id : String)
  | restoreCustomer (token : Token) (id : String)
  | registerCustomer (body : CustomerBody)
  | loginCustomer (body : CustomerBody)
  deriving DecidableEq, Repr

/-- The order routes declare their rules without `validateRequest`, so the
errors that the rules record are never read. -/
def handle : Request -> Act Response
  | .createOrder token items =>
      authenticateCustomer token (fun c => createOrder c.id items)
  | .getAllOrders token page =>
      authenticateCustomer token (fun _ => getAllOrders page)
  | .getOrdersByStatus token status page =>
      authenticateCustomer token (fun c => getOrdersByStatus c.id status page)
  | .getOrderById token id =>
      authenticateCustomer token (fun c => getOrderById c.id id)
  | .getOrdersByCustomer token id page =>
      authenticateCustomer token (fun c => getOrdersByCustomer c.id id page)
  | .updateOrder token id status =>
      authenticateCustomer token (fun c => updateOrder c.id id status)
  | .patchOrderStatus token id status =>
      authenticateCustomer token (fun _ => patchOrderStatus id status)
  | .softDeleteOrder token id =>
      authenticateCustomer token (fun _ => softDeleteOrder id)
  | .restoreOrder token id =>
      authenticateCustomer token (fun _ => restoreOrder id)
  | .createProduct body =>
      validateRequest (createProductRules body) (createProduct body)
  | .getProductById id =>
      validateRequest (idRule id "Invalid product ID") (getProductById id)
  | .getAllProducts page => getAllProducts page
  | .updateProduct id body =>
      validateRequest
        (idRule id "Invalid product ID" ++ updateProductRules body)
        (updateProduct id body)
  | .patchProduct id body =>
      validateRequest
        (idRule id "Invalid product ID" ++ partialUpdateProductRules body)
        (patchProduct id body)
  | .softDeleteProduct id =>
      validateRequest (idRule id "Invalid product ID") (softDeleteProduct id)
  | .restoreProduct id =>
      validateRequest (idRule id "Invalid product ID") (restoreProduct id)
  | .searchProducts text => searchProducts text
  | .getAllCustomers page => getAllCustomers page
  | .getCustomerById token id =>
      validateRequest (idRule id "Invalid customer ID")
        (authenticateCustomer token (fun c => getCustomerById c.id id))
  | .updateCustomer token id body => do
      let emailOk ← emailVerdict body
      validateRequest
        (idRule id "Invalid customer ID" ++
          fullUpdateCustomerRules body emailOk)
        (authenticateCustomer token (fun c => updateCustomer c.id id body))
  | .patchCustomer token id body => do
      let emailOk ← emailVerdict body
      validateRequest
        (idRule id "Invalid customer ID" ++ updateCustomerRules body emailOk)
        (authenticateCustomer token (fun c => patchCustomer c.id id body))
  | .softDeleteCustomer token id =>
      validateRequest (idRule id "Invalid customer ID")
        (authenticateCustomer token (fun c => softDeleteCustomer c.id id))
  | .restoreCustomer token id =>
      validateRequest (idRule id "Invalid customer ID")
        (allowSoftDeletedCustomer token (fun c => restoreCustomer c.id id))
  | .registerCustomer body => registerCustomer body
  | .loginCustomer body => loginCustomer body

end Service
end ExpressEcommerce
