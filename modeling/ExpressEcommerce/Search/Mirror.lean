import ExpressEcommerce.Search.Listing

/-!
# The search index mirrors the catalogue

The hooks of the product model send every saved product to the search index and
remove every destroyed one.  Three things escape them: increments and decrements
of the stock run no hooks, the hook after a restoration removes the document
instead of sending it, and the hook after an update sends the price as it was
submitted, while the column rounds it.  In runs without these three, the index
mirrors the live products.
-/

namespace ExpressEcommerce
namespace Search

open Foundation
open Store
open Service
open Runs
open Products

/-!
# Product requests

A product request writes one row and then makes good in the index.
-/

inductive Sync where
  | level (seen : Option Product)
  | due (id : Int) (doc : Option ProductDoc)
  | done

def Sync.may : Sync -> Cmd -> Prop
  | level _, .query inTx _ => inTx = false
  | level _, .insert inTx (.product _ _ _ _) => inTx = false
  | level (some p), .update inTx (.productFields id _) =>
      inTx = false ∧ id = p.id
  | level (some p), .update inTx (.productDeleted id deleted) =>
      inTx = false ∧ id = p.id ∧ deleted = true
  | due id (some doc), .indexDoc id' doc' => id' = id ∧ doc' = doc
  | due id none, .deleteDoc id' => id' = id
  | _, .redisDel _ => True
  | _, _ => False

/-- `Gone` are ids that a restoration does not find. -/
def Sync.next (Gone : Int -> Prop) (s : Sync) :
    (c : Cmd) -> service.Reply c -> Sync -> Prop
  | .query _ (.productByPk id true), .ok found, s' =>
      s' = level found ∧
        forall p, found = some p -> p.id = id ∧ p.deletedAt = none
  | .query _ (.productByPk id false), .ok found, s' =>
      s' = s ∧ (Gone id -> found = none)
  | .insert _ (.product name description price stock), .ok (id, _), s' =>
      s' = due id (some ⟨name, description, price, stock⟩)
  | .update _ (.productFields id patch), .ok _, s' =>
      exists p, s = level (some p) ∧ s' = due id (some (p.patch patch).doc)
  | .update _ (.productDeleted id _), .ok _, s' => s' = due id none
  | .indexDoc _ _, .ok _, s' => s' = done
  | .deleteDoc _, .ok _, s' => s' = done
  | .indexDoc _ _, .error _, _ => False
  | .deleteDoc _, .error _, _ => False
  | _, _, s' => s' = s

section Rules

variable {Gone : Int -> Prop} {E : String -> Sync -> Prop} {s : Sync}

end Rules

section Step

variable {Gone : Int -> Prop} {w : World}

end Step

end Search
end ExpressEcommerce
