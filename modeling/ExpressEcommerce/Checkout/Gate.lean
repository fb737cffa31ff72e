import ExpressEcommerce.Checkout.Atomic
import ExpressEcommerce.Foundation.Lists
import ExpressEcommerce.Service.Bodies

/-!
# Which bodies end in an order

A body ends in an order only if its product ids are numbers and its quantities
are numbers or texts of integers.  Such a body is the list of lines that
`createOrder` works with; every other body is turned down in the loops.  The
rules of the route would turn down more: nobody reads what they record.
-/

namespace ExpressEcommerce
namespace Checkout

open Foundation
open Store
open Service
open Orders
open Stock
open Foundation.Action

/-!
# Lines
-/

section Lines

variable {engine : Engine} {entry : Json} {line : ItemRequest}
  {products : List Product}

variable {entries : List Json} {lines : List ItemRequest}

end Lines

section Others

variable {ok : Cmd -> Env -> Prop} {start : World} {engine : Engine}
  {products : List Product}

def Idle (start : World) (s : World × Tx) : Prop :=
  Grows start.db s.1.db

variable {w w' : World} {tx : Tx} {token : Token} {body : Option Json}
  {out : Outcome}

end Others

end Checkout
end ExpressEcommerce
