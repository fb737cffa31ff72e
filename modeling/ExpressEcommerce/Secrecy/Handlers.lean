import ExpressEcommerce.Secrecy.Disguise
import ExpressEcommerce.Service.Conduct

/-!
# Handlers on the disguised world

A request that submits no password is served in the disguised world by the
same commands, up to the values it stores in the cache, and answered with the
disguised response.  Most handlers never meet a password: their commands get
equal replies in both worlds.
-/

namespace ExpressEcommerce
namespace Secrecy

open Foundation
open Store
open Service
open Foundation.Action

/-!
# Commands whose replies hold no password
-/

def plainQuery : Query -> Bool
  | .orderByPk _ _ incl => !incl.customer
  | .orderPage _ incl _ _ => !incl.customer
  | .customerByPk _ _ => false
  | .customerByEmail _ _ => false
  | .customerPage _ _ => false
  | _ => true

def plain : Cmd -> Bool
  | .query _ q => plainQuery q
  | .redisGet _ => false
  | c => blind c

theorem maskFound_plain (f : String -> String) {q : Query}
    (h : plainQuery q = true) (db : Database) :
    maskFound f q (q.eval db) = q.eval db := by
  cases q with
  | orderByPk id paranoid incl =>
      show Option.map _ (Option.map _ _) = Option.map _ _
      rw [Option.map_map]
      congr 1
      funext o
      have hnone : incl.customer = false := by simpa [plainQuery] using h
      simp [maskGraph, Database.graph, hnone]
  | orderPage filter incl limit offset =>
      have hnone : incl.customer = false := by simpa [plainQuery] using h
      have hsame : maskGraph f ∘ db.graph incl = db.graph incl := by
        funext o
        simp [maskGraph, Database.graph, hnone]
      simp only [Query.eval, maskFound, List.map_map, hsame]
  | customerByPk | customerByEmail | customerPage => cases h
  | productsById | productByPk | productPage | products | undelivered
  | undeliveredCount => rfl

theorem maskReply_plain (f : String -> String) {c : Cmd}
    (h : plain c = true) (env : Env) (s : World × Tx) :
    maskReply f c (exec env c s).1 = (exec env c s).1 := by
  cases c with
  | query inTx q =>
      dsimp only [exec]
      split
      · rfl
      · split
        · rw [maskReply_ok]
          exact congrArg Except.ok (maskFound_plain f h _)
        · rfl
  | redisGet key => cases h
  | _ => cases (exec env _ s).1 <;> rfl

theorem blind_of_plain {c : Cmd} (h : plain c = true) : blind c = true := by
  cases c with
  | query | redisGet => rfl
  | _ => exact h

def plainly : Protocol service Unit where
  may := fun _ c => plain c = true
  next := fun _ _ _ _ => True

abbrev Plain (x : Act alpha) : Prop :=
  Keeps plainly (fun _ => True) x

theorem plain_perform {c : Cmd} (h : plain c = true) :
    Plain (perform (I := service) c) := by
  intro s _
  exact wp_command h (fun _ _ _ => trivial) (fun _ _ _ => trivial)

theorem lockstep_of_plain (f : String -> String) {x : Act alpha}
    (h : Plain x) : Lockstep (Paired f) Eq x x := by
  refine lockstep_of_keeps ?_ (fun _ _ _ => ⟨(), trivial⟩) h (s := ()) trivial
  intro s c hc
  exact .same c Eq (blind_of_plain hc)
    (fun env s => (maskReply_plain f hc env s).symm)

/-!
# Models
-/

theorem plain_invalidateOrderCache (id : Int) :
    Plain (invalidateOrderCache id) :=
  keeps_tryCatch (plain_perform rfl) (fun _ => keeps_pure _)

theorem plain_invalidateProductCache (id : Int) :
    Plain (invalidateProductCache id) :=
  keeps_tryCatch (plain_perform rfl) (fun _ => keeps_pure _)

theorem plain_saveStatus (inTx : Bool) (order : Order) (status : Status) :
    Plain (Order.saveStatus inTx order status) := by
  unfold Order.saveStatus
  split
  · exact keeps_pure _
  · exact keeps_bind (plain_perform rfl) (fun _ =>
      keeps_bind (plain_invalidateOrderCache _) (fun _ => keeps_pure _))

theorem plain_saveTotal (inTx : Bool) (order : Order) (total : Int) :
    Plain (Order.saveTotal inTx order total) :=
  keeps_bind (plain_perform rfl) (fun _ =>
    keeps_bind (plain_invalidateOrderCache _) (fun _ => keeps_pure _))

theorem plain_orderChanged (order : Order) :
    Plain (do
      invalidateOrderCache order.id
      pure order) :=
  keeps_bind (plain_invalidateOrderCache _) (fun _ => keeps_pure _)

theorem plain_orderDestroy (inTx : Bool) (order : Order) :
    Plain (Order.destroy inTx order) := by
  unfold Order.destroy
  split
  · exact keeps_bind (plain_perform rfl) (fun _ =>
      keeps_bind (keeps_pure _) plain_orderChanged)
  · exact keeps_bind (keeps_pure _) plain_orderChanged

theorem plain_orderRestore (inTx : Bool) (order : Order) :
    Plain (Order.restore inTx order) := by
  unfold Order.restore
  split
  · exact keeps_bind (plain_perform rfl) (fun _ =>
      keeps_bind (keeps_pure _) plain_orderChanged)
  · exact keeps_bind (keeps_pure _) plain_orderChanged

theorem plain_incrementStock (inTx : Bool) (productId amount : Int) :
    Plain (Product.incrementStock inTx productId amount) :=
  keeps_bind (plain_perform rfl) (fun _ => keeps_pure _)

theorem plain_removeFromElasticsearch (id : Int) :
    Plain (removeFromElasticsearch id) :=
  keeps_tryCatch (plain_perform rfl) (fun _ => keeps_pure _)

theorem plain_productUpdate (product : Product) (body : ProductBody) :
    Plain (Product.update product body) := by
  unfold Product.update
  split
  · exact keeps_throw _
  · split
    · exact keeps_throw _
    · split
      · exact keeps_pure _
      · exact keeps_bind (plain_perform rfl) (fun _ =>
          keeps_bind (plain_invalidateProductCache _) (fun _ =>
            keeps_bind (plain_perform rfl) (fun _ => keeps_pure _)))

theorem plain_productChanged (product : Product) :
    Plain (do
      invalidateProductCache product.id
      removeFromElasticsearch product.id
      pure product) :=
  keeps_bind (plain_invalidateProductCache _) (fun _ =>
    keeps_bind (plain_removeFromElasticsearch _) (fun _ => keeps_pure _))

theorem plain_productDestroy (product : Product) :
    Plain (Product.destroy product) := by
  unfold Product.destroy
  split
  · exact keeps_bind (plain_perform rfl) (fun _ =>
      keeps_bind (keeps_pure _) plain_productChanged)
  · exact keeps_bind (keeps_pure _) plain_productChanged

theorem plain_productRestore (product : Product) :
    Plain (Product.restore product) := by
  unfold Product.restore
  split
  · exact keeps_bind (plain_perform rfl) (fun _ =>
      keeps_bind (keeps_pure _) plain_productChanged)
  · exact keeps_bind (keeps_pure _) plain_productChanged

/-!
# Handlers that never meet a password
-/

theorem statusParts_plain : StatusParts plainly (fun _ => True) where
  find := fun _ _ _ _ => plain_perform rfl
  clear := plain_invalidateOrderCache
  saveStatus := plain_saveStatus
  addJob := fun _ => plain_perform rfl

theorem stockParts_plain : StockParts plainly (fun _ => True) where
  toStatusParts := statusParts_plain
  opens := plain_perform rfl
  commits := plain_perform rfl
  rollsBack := plain_perform rfl
  products := fun _ => plain_perform rfl
  newOrder := fun _ _ _ => plain_perform rfl
  newItem := fun _ _ _ _ => plain_perform rfl
  saveTotal := plain_saveTotal
  move := plain_incrementStock
  destroy := plain_orderDestroy
  restore := plain_orderRestore
  restoreItem := fun _ _ => plain_perform rfl

theorem plain_productCreate (name : String) (description : Option String)
    (price : Rat) (stock : Int) :
    Plain (Product.create name description price stock) := by
  refine keeps_bind (plain_perform rfl) (fun _ => ?_)
  refine keeps_bind (plain_invalidateProductCache _) (fun _ => ?_)
  exact keeps_bind (plain_perform rfl) (fun _ => keeps_pure _)

theorem plain_saveProduct (message idParam : String) (body : ProductBody) :
    Plain (saveProduct message idParam body) :=
  keeps_withProduct (fun _ => plain_perform rfl) (fun _ =>
    keeps_bind (plain_productUpdate _ _) (fun _ => keeps_respond _ _)) _ _ _

theorem plain_softDeleteProduct (idParam : String) :
    Plain (softDeleteProduct idParam) :=
  keeps_withProduct (fun _ => plain_perform rfl) (fun _ =>
    keeps_bind (plain_productDestroy _) (fun _ => keeps_respond _ _)) _ _ _

theorem plain_restoreProduct (idParam : String) :
    Plain (restoreProduct idParam) :=
  keeps_withProduct (fun _ => plain_perform rfl) (fun _ =>
    keeps_bind (plain_productRestore _) (fun _ => keeps_respond _ _)) _ _ _

theorem plain_getAllProducts (page : PageQuery) :
    Plain (getAllProducts page) :=
  keeps_tryCatch (keeps_bind (plain_perform rfl) (fun _ => keeps_pure _))
    (fun _ => keeps_respond _ _)

theorem plain_searchProducts (text : Option String) :
    Plain (searchProducts text) := by
  unfold searchProducts
  split
  · exact keeps_respond _ _
  · exact keeps_tryCatch
      (keeps_bind (plain_perform rfl) (fun _ => keeps_respond _ _))
      (fun _ => keeps_respond _ _)

end Secrecy
end ExpressEcommerce
