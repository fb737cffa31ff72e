import ExpressEcommerce.Caching.Alone

/-!
# The documents of the live products

Only the hooks of the product model write to the search index.  All other tasks
leave the index as it is, and of the products they change stocks only.
-/

namespace ExpressEcommerce
namespace Search

open Foundation
open Store
open Service
open Runs
open Orders
open Products
open Caching

/-- The document belongs to a live product and has its columns. -/
def Listed (db : Database) (id : Int) (doc : ProductDoc) : Prop :=
  exists row, db.products.find? id = some row ∧ row.deletedAt = none ∧
    doc = row.doc

/-- The index has the documents of the live products, and no others. -/
def Mirrors (w : World) : Prop :=
  forall id doc, (id, doc) ∈ w.index <-> Listed w.db id doc

def Apart : Duty -> Prop
  | .owing rights _ => rights.index = false
  | _ => True

end Search
end ExpressEcommerce
