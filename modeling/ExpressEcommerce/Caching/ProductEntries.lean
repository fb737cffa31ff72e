import ExpressEcommerce.Caching.Alone

/-!
# Cached products

The hooks of the product model clear the key of a product whenever one of its
instances is saved, destroyed or restored.  Increments and decrements of the
stock run no hooks: an order that is placed, deleted or restored leaves the
products it moves in the cache as they were.  As long as no task moves the stock
of a cached product, the cache agrees with the store.
-/

namespace ExpressEcommerce
namespace Caching

open Foundation
open Store
open Service
open Runs

/-- Every product under a canonical key is the row of the store. -/
def ProductsTrue (w : World) : Prop :=
  forall id value, w.cache.get (productKey id) = some value ->
    exists row, w.db.products.find? id = some row ∧
      value = .product row.toJSON

/-- What `getProductById` answers from the cache is the row of the store. -/
def ServesProducts (w : World) : Prop :=
  forall id value out w', w.cache.get (productKey id) = some value ->
    ExecutesIn RedisUp w (.request (.getProductById (toString id))) out w' ->
    forall body, out = .response ⟨200, body⟩ ->
      exists row, w.db.products.find? id = some row ∧
        body = .product row.toJSON

def movesStock : Task -> Bool
  | .request (.createOrder _ _) => true
  | .request (.softDeleteOrder _ _) => true
  | .request (.restoreOrder _ _) => true
  | .cancelJob _ => true
  | _ => false

/-- The task moves no stock of a cached product. -/
def StockUncached (w : World) (t : Task) : Prop :=
  movesStock t = true -> forall id,
    (TableName.products, id) ∈ footprint w.db t ->
      w.cache.get (productKey id) = none

theorem stock_rightsOf (t : Task) : (rightsOf t).stock = movesStock t := by
  cases t with
  | request req => cases req <;> rfl
  | statusJob job => rfl
  | cancelJob orderId => rfl

theorem productsTrue_step {w w' : World} {t : Task} {out : Outcome}
    (h : ProductsTrue w) (hallowed : StockUncached w t)
    (hexec : ExecutesIn RedisUp w t out w') : ProductsTrue w' := by
  have hupkeep := executes_upkeep hexec
  intro id value hget
  rcases hupkeep.entries _ _ hget with
    hold | ⟨hdb, found, text, hfrom, hid, hkey, rfl⟩
  · rcases h id value hold with ⟨row, hrow, hvalue⟩
    have hfound : Found w.db (.products, id) := ⟨row, hrow⟩
    have hsame : SameRow w.db w'.db (.products, id) := by
      cases hmoves : movesStock t with
      | false =>
          have hstock := (stock_rightsOf t).trans hmoves
          rcases hupkeep.rows (.products, id) _ rfl hfound (fun _ => hstock)
            with hnone | hsame
          · rw [hnone] at hget
            cases hget
          · exact hsame
      | true =>
          refine (executes_confined hexec.anyEnv).same _ hfound (fun hrow => ?_)
          rw [hallowed hmoves id hrow] at hold
          cases hold
    exact ⟨row, Eq.trans hsame hrow, hvalue⟩
  · rcases id_of_productKey hkey hid with ⟨row, rfl⟩
    rw [hdb]
    exact ⟨row, hfrom, rfl⟩

theorem answer_of_hit {w w' : World} {text : String} {json : ProductJson}
    {body : Body} (hget : w.cache.get ("product:" ++ text) = some (.product json))
    (h : ExecutesIn RedisUp w (.request (.getProductById text))
      (.response ⟨200, body⟩) w') : body = .product json := by
  rcases h with ⟨tx, hrun⟩
  have hcode : Prog.Runs (NextIn RedisUp)
      (settle (validateRequest (idRule text "Invalid product ID")
        (getProductById text)) Outcome.response
        (fun e => Outcome.response ⟨500, .error e⟩))
      (w, none) (.response ⟨200, body⟩) (w', tx) := hrun
  unfold validateRequest at hcode
  split at hcode
  · cases hcode with
    | call hnext hrest =>
        rcases next_redisGet hnext with ⟨rfl, rfl | ⟨⟨e, rfl⟩, _⟩⟩
        · rw [hget] at hrest
          cases hrest
          rfl
        · cases hrest
  · cases hcode

/-- In every run, one task after another, in which Redis is up and no task moves
the stock of a cached product: what `getProductById` answers from the cache is
the row of the store. -/
theorem cached_products_are_current {start w : World}
    (hstart : ProductsTrue start)
    (hrun : TaskRun RedisUp StockUncached start w) : ServesProducts w := by
  have htrue : ProductsTrue w :=
    taskRun_invariant (fun h hallowed hexec =>
      productsTrue_step h hallowed hexec) hstart hrun
  rintro id value _ w' hget hexec body rfl
  rcases htrue id value hget with ⟨row, hrow, rfl⟩
  exact ⟨row, hrow, answer_of_hit hget hexec⟩

theorem productsTrue_shop : ProductsTrue shop := by
  intro id value hget
  have hempty : shop.cache = [] := rfl
  rw [hempty] at hget
  cases hget

/-- The shop after the first product has been looked at. -/
def shopLooked : World :=
  afterTask shop (.request (.getProductById "1"))

def buy (productId : Int) : Task :=
  .request (.createOrder (.valid 1) [⟨productId, 2⟩])

theorem sold_product_stays_cached :
    TaskRun RedisUp (fun _ _ => True) shop (afterTask shopLooked (buy 1)) ∧
      ProductsTrue shop ∧
      ¬ ServesProducts (afterTask shopLooked (buy 1)) := by
  refine ⟨.tail (.single (taskStep_after redisUp_default trivial))
    (taskStep_after redisUp_default trivial), productsTrue_shop,
    fun h => ?_⟩
  rcases h 1 _ _ _ rfl (executesIn_perform redisUp_default _ _) _ rfl with
    ⟨row, hrow, hbody⟩
  cases hrow
  cases hbody

theorem other_product_may_be_sold :
    StockUncached shopLooked (buy 2) ∧
      ServesProducts (afterTask shopLooked (buy 2)) := by
  have hlook : StockUncached shop (.request (.getProductById "1")) := by
    intro hmoves
    cases hmoves
  have hbuy : StockUncached shopLooked (buy 2) := by
    intro _ id hid
    have hrows : footprint shopLooked.db (buy 2) = [(.products, 2)] := rfl
    rw [hrows, List.mem_singleton] at hid
    cases hid
    rfl
  exact ⟨hbuy, cached_products_are_current productsTrue_shop
    (.tail (.single (taskStep_after redisUp_default hlook))
      (taskStep_after redisUp_default hbuy))⟩

end Caching
end ExpressEcommerce
