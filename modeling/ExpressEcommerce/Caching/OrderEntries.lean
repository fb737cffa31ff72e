import ExpressEcommerce.Caching.ProductEntries
import ExpressEcommerce.Runs.OwnOrder

/-!
# Cached orders

A cached order joins the rows of the order, of its customer, of its items and of
their products, but only a change of the order itself clears its key.  The cache
agrees with the store as long as no task writes a customer or a product that is
part of a cached order, other than the order the task is about.
-/

namespace ExpressEcommerce
namespace Caching

open Foundation
open Store
open Service
open Runs
open Orders

/-!
# Entries and the store
-/

/-- Every order under a canonical key is what the store would answer. -/
def OrdersTrue (w : World) : Prop :=
  forall id value, w.cache.get (orderKey id) = some value ->
    pgInteger? (toString id) = some id ∧
      exists graph, orderGraph? w.db id = some graph ∧
        value = .order (fullOrder graph)

/-- The row is part of the cached order. -/
def Embeds (json : OrderJson) : TableName × Int -> Prop
  | (.customers, id) => json.order.customerId = id
  | (.products, id) =>
      id ∈ (json.items.getD []).map (fun i => i.item.productId)
  | _ => False

/-- The task writes no row of a cached order, other than the order it is
about. -/
def PartsUncached (w : World) (t : Task) : Prop :=
  forall id json, w.cache.get (orderKey id) = some (.order json) ->
    (TableName.orders, id) ∉ footprint w.db t ->
    forall row, row ∈ footprint w.db t -> ¬ Embeds json row

theorem orderTask_of_footprint {db : Database} {t : Task} {id : Int}
    (h : (TableName.orders, id) ∈ footprint db t) :
    exists t' : OrderTask, t = t'.task := by
  have hparam : forall {table : TableName} {text : String},
      (TableName.orders, id) ∈ paramRows table text -> table = .orders := by
    intro table text hrow
    rcases List.mem_map.mp hrow with ⟨n, _, heq⟩
    cases heq
    rfl
  cases t with
  | statusJob job => exact ⟨.statusJob job, rfl⟩
  | cancelJob orderId => exact ⟨.cancelJob orderId, rfl⟩
  | request req =>
      cases req with
      | updateOrder token text status => exact ⟨.update token text status, rfl⟩
      | patchOrderStatus token text status =>
          exact ⟨.patch token text status, rfl⟩
      | softDeleteOrder token text => exact ⟨.softDelete token text, rfl⟩
      | restoreOrder token text => exact ⟨.restore token text, rfl⟩
      | createOrder token items =>
          dsimp only [footprint, placeRows] at h
          split at h
          · rcases List.mem_map.mp h with ⟨line, _, heq⟩
            cases heq
          · cases h
      | updateProduct | patchProduct | softDeleteProduct | restoreProduct
      | updateCustomer | patchCustomer | restoreCustomer => cases hparam h
      | _ => cases h

theorem not_customer_of_plan {db : Database} {t : OrderTask} {id : Int} :
    (TableName.customers, id) ∉ planRows db t := by
  intro h
  rcases List.mem_map.mp h with ⟨u, hu, hrow⟩
  have hplanned := isPlanned_plan t db u hu
  cases u <;> cases hplanned <;> cases hrow

theorem orderGraph_same {db db' : Database} {id : Int} {o : Order}
    (ho : db.order? id true = some o) (horder : SameRow db db' (.orders, id))
    (hcustomer : SameRow db db' (.customers, o.customerId))
    (hitems : db'.itemsOf id true = db.itemsOf id true)
    (hproducts : forall i, i ∈ db.itemsOf id true ->
      SameRow db db' (.products, i.productId)) :
    orderGraph? db' id = orderGraph? db id := by
  have hfind : db'.orders.find? id = db.orders.find? id := horder
  have hcfind : db'.customers.find? o.customerId =
      db.customers.find? o.customerId := hcustomer
  have ho' : db'.order? id true = some o := by
    unfold Database.order? at ho ⊢
    rw [hfind]
    exact ho
  have hid : o.id = id := (Table.find?_eq_some_iff.mp
    (Database.order?_true_eq_some_iff.mp ho).left).right
  unfold orderGraph?
  rw [ho, ho']
  apply congrArg some
  unfold Database.graph everything
  dsimp only
  rw [hid, hitems]
  have hc : db'.customer? o.customerId true = db.customer? o.customerId true := by
    unfold Database.customer?
    rw [hcfind]
  have hmap : (db.itemsOf id true).map (db'.itemGraph everything) =
      (db.itemsOf id true).map (db.itemGraph everything) := by
    apply List.map_congr_left
    intro i hi
    have hpfind : db'.products.find? i.productId =
        db.products.find? i.productId := hproducts i hi
    unfold Database.itemGraph Database.product?
    rw [hpfind]
  rw [hc]
  exact congrArg (OrderGraph.mk o _) hmap

theorem embeds_item {db : Database} {id : Int} {o : Order}
    (ho : db.order? id true = some o) {i : OrderItem}
    (hi : i ∈ db.itemsOf id true) :
    Embeds (fullOrder (db.graph everything o)) (.products, i.productId) := by
  have hid : o.id = id := (Table.find?_eq_some_iff.mp
    (Database.order?_true_eq_some_iff.mp ho).left).right
  have hitems : (fullOrder (db.graph everything o)).items.getD [] =
      ((db.itemsOf o.id true).map (db.itemGraph everything)).map (fun g =>
        { item := g.item, product := some (g.product.map Product.toJSON) }) :=
    rfl
  show i.productId ∈ _
  rw [hitems, List.map_map, List.map_map, hid]
  exact List.mem_map.mpr ⟨i, hi, rfl⟩

theorem ordersTrue_step {w w' : World} {t : Task} {out : Outcome}
    (h : OrdersTrue w) (hallowed : PartsUncached w t)
    (hexec : ExecutesIn RedisUp w t out w') : OrdersTrue w' := by
  have hupkeep := executes_upkeep hexec
  have hconfined := executes_confined hexec.anyEnv
  intro id value hget
  rcases hupkeep.entries _ _ hget with
    hold | ⟨hdb, found, text, hfrom, hid, hkey, rfl⟩
  · rcases h id value hold with ⟨hnumeral, graph, hgraph, rfl⟩
    refine ⟨hnumeral, graph, ?_, rfl⟩
    rcases Option.map_eq_some_iff.mp hgraph with ⟨o, ho, rfl⟩
    have hrow := (Database.order?_true_eq_some_iff.mp ho).left
    have hlive := (Database.order?_true_eq_some_iff.mp ho).right
    have hfound : Found w.db (.orders, id) := ⟨o, hrow⟩
    have horder : SameRow w.db w'.db (.orders, id) := by
      rcases hupkeep.rows (.orders, id) _ rfl hfound
        (fun hno => by cases hno) with hnone | hsame
      · rw [hnone] at hget
        cases hget
      · exact hsame
    have hmem := (Table.find?_eq_some_iff.mp hrow).left
    have hcustomer : Found w.db (.customers, o.customerId) :=
      Option.isSome_iff_exists.mp (w.db.orderCustomer o hmem)
    have hproduct : forall i, i ∈ w.db.itemsOf id true ->
        Found w.db (.products, i.productId) := fun i hi =>
      Option.isSome_iff_exists.mp (products_of_itemsOf i hi)
    rw [← hgraph]
    by_cases hown : (TableName.orders, id) ∈ footprint w.db t
    · rcases orderTask_of_footprint hown with ⟨t', rfl⟩
      rw [footprint_order] at hown hconfined
      refine orderGraph_same ho horder
        (hconfined.same _ hcustomer not_customer_of_plan)
        (hconfined.items id hfound) (fun i _ => ?_)
      rcases products_same_or_dead hexec.anyEnv hown
        (fun hdead => hdead o hrow hlive) with hsame | hdead
      · exact hsame i.productId
      · exact absurd hlive (hdead o (Eq.trans horder hrow))
    · refine orderGraph_same ho horder
        (hconfined.same _ hcustomer (fun hrow' => ?_))
        (hconfined.items id hfound)
        (fun i hi => hconfined.same _ (hproduct i hi) (fun hrow' => ?_))
      · exact hallowed id _ hold hown _ hrow' rfl
      · exact hallowed id _ hold hown _ hrow' (embeds_item ho hi)
  · rcases id_of_orderKey hkey hid with ⟨hnumeral, graph, rfl⟩
    rw [hdb]
    exact ⟨hnumeral, graph, hfrom, rfl⟩

/-!
# Answers
-/

def ownerAnswer (customerId : Int) : Option OrderJson -> Response
  | none => ⟨404, .error "Order not found"⟩
  | some json =>
      if json.order.customerId ≠ customerId then
        ⟨403, .error "Access denied: Not your order"⟩
      else ⟨200, .order json⟩

theorem ownerAnswer_other {customerId : Int} {json : OrderJson}
    (h : json.order.customerId ≠ customerId) :
    ownerAnswer customerId (some json) =
      ⟨403, .error "Access denied: Not your order"⟩ :=
  if_pos h

theorem ownerAnswer_own {customerId : Int} {json : OrderJson}
    (h : ¬ json.order.customerId ≠ customerId) :
    ownerAnswer customerId (some json) = ⟨200, .order json⟩ :=
  if_neg h

/-- What `getOrderById` answers to a known customer when nothing fails. -/
def knownAnswer (db : Database) (cached : Option CacheValue)
    (customerId : Int) (text : String) : Response :=
  match cached with
  | some (.order json) => ownerAnswer customerId (some json)
  | some (.product _) => ⟨403, .error "Access denied: Not your order"⟩
  | none =>
      match pgInteger? text with
      | none => ⟨500, .error "Failed to fetch order"⟩
      | some id => ownerAnswer customerId ((orderGraph? db id).map fullOrder)

def orderAnswer (db : Database) (cached : Option CacheValue) (token : Token)
    (text : String) : Response :=
  match token with
  | .missing =>
      ⟨401, .error "Authorization Failed! Invalid token / Missing token"⟩
  | .invalid => ⟨401, .error "Invalid or expired token"⟩
  | .valid customerId =>
      match db.customer? customerId false with
      | none => ⟨401, .error "Customer not found"⟩
      | some c => knownAnswer db cached c.id text

theorem reply_of_query {w : World} {q : Query} {s' : World × Tx}
    {r : service.Reply (.query false q)} (hq : q.accepted = true)
    (h : Next Healthy (w, none) (.query false q) r s') :
    s' = (w, none) ∧ r = .ok (q.eval w.db) := by
  rcases next_query h with ⟨hs, hr | ⟨_, hfail | hrefused⟩⟩
  · exact ⟨hs, hr⟩
  · exact absurd hfail not_mayFail_healthy
  · rw [hq] at hrefused
    cases hrefused

section Answers

variable {w : World} {s' : World × Tx} {customerId : Int} {text : String}
variable {out : Outcome} {failed : String -> Outcome}

/-- The program of `getOrderById` from some point on, with its handler for
failures. -/
def rest (failed : String -> Outcome) (x : Act Response) :
    Prog service Outcome :=
  settle (tryCatch x (fun _ =>
    respond 500 (.error "Failed to fetch order"))) Outcome.response failed

theorem runs_found {graph : OrderGraph}
    (h : Prog.Runs (Next Healthy)
      (rest failed
        (if graph.order.customerId ≠ customerId then
          respond 403 (.error "Access denied: Not your order")
        else do
          Action.perform (I := service)
            (Cmd.redisSet ("order:" ++ text) (.order (fullOrder graph)))
          respond 200 (.order (fullOrder graph))))
      (w, none) out s') :
    out = .response (ownerAnswer customerId (some (fullOrder graph))) := by
  split at h
  · rename_i howner
    cases h
    rw [ownerAnswer_other howner]
  · rename_i howner
    cases h with
    | call hnext hrest =>
        rcases next_redisSet hnext with ⟨rfl, rfl⟩ | ⟨_, _, hfail⟩
        · cases hrest
          rw [ownerAnswer_own howner]
        · exact absurd hfail not_mayFail_healthy

theorem runs_missed {id : Int}
    (h : Prog.Runs (Next Healthy)
      (rest failed (do
        let found : Option OrderGraph ←
          query false (.orderByPk id true everything)
        match found with
        | none => respond 404 (.error "Order not found")
        | some graph =>
            if graph.order.customerId ≠ customerId then
              respond 403 (.error "Access denied: Not your order")
            else do
              Action.perform (I := service)
                (Cmd.redisSet ("order:" ++ text) (.order (fullOrder graph)))
              respond 200 (.order (fullOrder graph))))
      (w, none) out s') :
    out = .response
      (ownerAnswer customerId ((orderGraph? w.db id).map fullOrder)) := by
  cases h with
  | call hnext hrest =>
      rcases reply_of_query rfl hnext with ⟨rfl, rfl⟩
      have heval : Query.eval w.db (.orderByPk id true everything) =
        orderGraph? w.db id := rfl
      rw [heval] at hrest
      cases hgraph : orderGraph? w.db id with
      | none =>
          rw [hgraph] at hrest
          cases hrest
          rfl
      | some graph =>
          rw [hgraph] at hrest
          exact runs_found hrest

theorem runs_getOrderById
    (h : Prog.Runs (Next Healthy)
      (settle (getOrderById customerId text) Outcome.response failed)
      (w, none) out s') :
    out = .response
      (knownAnswer w.db (w.cache.get ("order:" ++ text)) customerId text) := by
  cases h with
  | call hnext hrest =>
      rcases next_redisGet hnext with ⟨rfl, rfl | ⟨_, hfail⟩⟩
      · rcases hget : w.cache.get ("order:" ++ text) with _ | ⟨json | json⟩
        · rw [hget] at hrest
          unfold knownAnswer
          unfold integerParam at hrest
          cases hid : pgInteger? text with
          | none =>
              rw [hid] at hrest
              cases hrest
              rfl
          | some id =>
              rw [hid] at hrest
              exact runs_missed hrest
        · rw [hget] at hrest
          have hcode : Prog.Runs (Next Healthy)
              (rest failed
                (if json.order.customerId ≠ customerId then
                  respond 403 (.error "Access denied: Not your order")
                else respond 200 (.order json))) (w, none) out s' := hrest
          dsimp only [knownAnswer]
          split at hcode
          · rename_i howner
            cases hcode
            rw [ownerAnswer_other howner]
          · rename_i howner
            cases hcode
            rw [ownerAnswer_own howner]
        · rw [hget] at hrest
          cases hrest
          rfl
      · exact absurd hfail not_mayFail_healthy

end Answers

theorem executes_getOrderById {w w' : World} {token : Token} {text : String}
    {out : Outcome}
    (h : Executes Healthy w (.request (.getOrderById token text)) out w') :
    out = .response
      (orderAnswer w.db (w.cache.get ("order:" ++ text)) token text) := by
  rcases h with ⟨tx, hrun⟩
  cases token with
  | missing =>
      cases hrun
      rfl
  | invalid =>
      cases hrun
      rfl
  | valid customerId =>
      cases hrun with
      | call hnext hrest =>
          rcases reply_of_query rfl hnext with ⟨rfl, rfl⟩
          have heval : Query.eval w.db (.customerByPk customerId false) =
            w.db.customer? customerId false := rfl
          rw [heval] at hrest
          dsimp only [orderAnswer]
          cases hc : w.db.customer? customerId false with
          | none =>
              rw [hc] at hrest
              cases hrest
              rfl
          | some c =>
              rw [hc] at hrest
              exact runs_getOrderById hrest

/-- A customer gets the same answer as with an empty cache. -/
def Transparent (w : World) : Prop :=
  forall (token : Token) (id : Int),
    ((Task.request (.getOrderById token (toString id))).perform w).1 =
      ((Task.request (.getOrderById token (toString id))).perform
        { w with cache := [] }).1

theorem transparent_of_true {w : World} (h : OrdersTrue w) :
    Transparent w := by
  intro token id
  rw [executes_getOrderById (executes_perform _ w),
    executes_getOrderById (executes_perform _ { w with cache := [] })]
  have hempty : ({ w with cache := [] } : World).cache.get
    ("order:" ++ toString id) = none := rfl
  rw [hempty]
  cases hget : w.cache.get ("order:" ++ toString id) with
  | none => rfl
  | some value =>
      rcases h id value hget with ⟨hnumeral, graph, hgraph, rfl⟩
      have hsame : forall customerId : Int,
          knownAnswer w.db (some (.order (fullOrder graph))) customerId
            (toString id) = knownAnswer w.db none customerId (toString id) := by
        intro customerId
        unfold knownAnswer
        dsimp only
        rw [hnumeral]
        dsimp only
        rw [hgraph]
        rfl
      cases token with
      | missing | invalid => rfl
      | valid customerId =>
          dsimp only [orderAnswer]
          cases w.db.customer? customerId false with
          | none => rfl
          | some c => exact congrArg Outcome.response (hsame c.id)

/-- In every run, one task after another, in which Redis is up and no task writes
a part of a cached order that it is not about: `getOrderById` answers as if
nothing were cached. -/
theorem cached_orders_are_transparent {start w : World}
    (hstart : OrdersTrue start)
    (hrun : TaskRun RedisUp PartsUncached start w) : Transparent w :=
  transparent_of_true (taskRun_invariant (fun h hallowed hexec =>
    ordersTrue_step h hallowed hexec) hstart hrun)

theorem ordersTrue_shop : OrdersTrue shop := by
  intro id value hget
  have hempty : shop.cache = [] := rfl
  rw [hempty] at hget
  cases hget

def shopBought : World :=
  afterTask shop (buy 1)

/-- The shop after the customer has looked at the order. -/
def shopCached : World :=
  afterTask shopBought (.request (.getOrderById (.valid 1) "1"))

theorem second_order_leaves_first_cached :
    TaskRun RedisUp (fun _ _ => True) shop (afterTask shopCached (buy 1)) ∧
      OrdersTrue shop ∧ ¬ Transparent (afterTask shopCached (buy 1)) := by
  refine ⟨.tail (.tail (.single (taskStep_after redisUp_default trivial))
    (taskStep_after redisUp_default trivial))
    (taskStep_after redisUp_default trivial), ordersTrue_shop, fun h => ?_⟩
  have hsame := h (.valid 1) 1
  revert hsame
  decide

theorem order_of_other_product_is_transparent :
    PartsUncached shopCached (buy 2) ∧
      Transparent (afterTask shopCached (buy 2)) := by
  have hempty : forall {w : World} {t : Task}, w.cache = [] ->
      PartsUncached w t := by
    intro w t hcache id json hget
    rw [hcache] at hget
    cases hget
  have hbuy : PartsUncached shopCached (buy 2) := by
    intro id json hget _ row hrow hembeds
    have hrows : footprint shopCached.db (buy 2) = [(.products, 2)] := rfl
    rw [hrows, List.mem_singleton] at hrow
    subst hrow
    have hcache : shopCached.cache = [("order:1", .order _)] := rfl
    rw [hcache, Cache.get_cons] at hget
    split at hget
    · cases hget
      revert hembeds
      show ¬ (2 : Int) ∈ _
      decide
    · cases hget
  exact ⟨hbuy, cached_orders_are_transparent ordersTrue_shop
    (.tail (.tail (.single (taskStep_after redisUp_default (hempty rfl)))
      (taskStep_after redisUp_default (hempty rfl)))
      (taskStep_after redisUp_default hbuy))⟩

end Caching
end ExpressEcommerce
