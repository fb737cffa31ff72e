import ExpressEcommerce.Service.Routes

/-!
# The body of a request for an order

`createOrder` takes the fields of `req.body.items` as they come: the route runs
`createOrderRules`, but no `validateRequest` after them.  The product is found
with `===`, the stock is compared with `<`, which converts texts to numbers, and
the values go into the statements as they are.
-/

namespace ExpressEcommerce
namespace Service

open Foundation
open Store

/-- A parsed JSON value; a number is the double it was parsed to. -/
inductive Json where
  | null
  | bool (b : Bool)
  | number (q : Rat)
  | infinity (negative : Bool)
  | text (s : String)
  | array (elems : List Json)
  | object (fields : List (String × Json))

namespace Json

def integer? : Json -> Option Int
  | number q => if q.isInt then some q.num else none
  | _ => none

end Json

/-!
# Rules

A standard rule of express-validator looks at the text of a value, and at each
element of an array.
-/

end Service
end ExpressEcommerce
