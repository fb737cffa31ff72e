import ExpressEcommerce.Caching.OrderEntries

/-!
# Two spellings of one id

PostgreSQL reads `1`, `01` and `+1` as the same integer, but the readers make
the key of the cache from the text.  The hooks clear the key of the decimal
numeral only.  The spellings of an id agree as long as no task writes an order
or a product that is cached under another key, and none moves the stock of a
product that is cached at all.
-/

namespace ExpressEcommerce
namespace Caching

open Foundation
open Store
open Service
open Runs
open Orders

def orderReply : Outcome -> Option (Nat × Option Order)
  | .response ⟨status, .order json⟩ => some (status, some json.order)
  | .response ⟨status, _⟩ => some (status, none)
  | _ => none

/-- The readers answer alike for all spellings of an id.  The route of products
lets the integers of `isInt` through. -/
structure OneAnswer (w : World) : Prop where
  order : forall token id a b out out' wa wb,
    pgInteger? a = some id -> pgInteger? b = some id ->
    Executes Healthy w (.request (.getOrderById token a)) out wa ->
    Executes Healthy w (.request (.getOrderById token b)) out' wb ->
      orderReply out = orderReply out'
  product : forall id a b out out' wa wb,
    pgInteger? a = some id -> pgInteger? b = some id ->
    (readInt? a.toList).isSome = true -> (readInt? b.toList).isSome = true ->
    Executes Healthy w (.request (.getProductById a)) out wa ->
    Executes Healthy w (.request (.getProductById b)) out' wb -> out = out'

/-- The rows that the task writes are cached only under the keys that its hooks
clear. -/
structure SpellingsUncached (w : World) (t : Task) : Prop where
  order : forall text json,
    w.cache.get ("order:" ++ text) = some (.order json) ->
    (TableName.orders, json.order.id) ∈ footprint w.db t ->
      text = toString json.order.id
  product : forall text json,
    w.cache.get ("product:" ++ text) = some (.product json) ->
    (TableName.products, json.id) ∈ footprint w.db t ->
      movesStock t = false ∧ text = toString json.id

/-- Whatever its key, an entry holds the row as it is in the store. -/
structure RowsTrue (w : World) : Prop where
  order : forall text value, w.cache.get ("order:" ++ text) = some value ->
    exists id json, pgInteger? text = some id ∧ value = .order json ∧
      w.db.order? id true = some json.order
  product : forall text value, w.cache.get ("product:" ++ text) = some value ->
    exists id row, pgInteger? text = some id ∧
      w.db.products.find? id = some row ∧ value = .product row.toJSON

/-!
# Steps
-/

section Step

variable {w w' : World} {t : Task} {out : Outcome}

theorem madeFrom_order {db : Database} {text : String} {value : CacheValue}
    (h : MadeFrom db ("order:" ++ text) value) :
    exists id json, pgInteger? text = some id ∧ value = .order json ∧
      db.order? id true = some json.order := by
  rcases h with ⟨found, other, hfrom, hid, hkey, hvalue⟩
  cases found with
  | product id row => exact absurd hkey (order_ne_product _ _)
  | order id graph =>
      have htext : text = other := (String.append_right_inj _).mp hkey
      subst htext
      rcases Option.map_eq_some_iff.mp hfrom with ⟨o, ho, rfl⟩
      exact ⟨id, _, hid, hvalue, ho⟩

theorem madeFrom_product {db : Database} {text : String} {value : CacheValue}
    (h : MadeFrom db ("product:" ++ text) value) :
    exists id row, pgInteger? text = some id ∧
      db.products.find? id = some row ∧ value = .product row.toJSON := by
  rcases h with ⟨found, other, hfrom, hid, hkey, hvalue⟩
  cases found with
  | order id graph => exact absurd hkey.symm (order_ne_product _ _)
  | product id row =>
      have htext : text = other := (String.append_right_inj _).mp hkey
      subst htext
      exact ⟨id, row, hid, hfrom, hvalue⟩

theorem sameRow_order {text : String} {json : OrderJson}
    (hallowed : SpellingsUncached w t) (hexec : ExecutesIn RedisUp w t out w')
    (hfound : Found w.db (.orders, json.order.id))
    (hold : w.cache.get ("order:" ++ text) = some (.order json))
    (hget : w'.cache.get ("order:" ++ text) = some (.order json)) :
    SameRow w.db w'.db (.orders, json.order.id) := by
  by_cases hcanonical : text = toString json.order.id
  · rcases (executes_upkeep hexec).rows (.orders, json.order.id) _ rfl hfound
      (fun hno => by cases hno) with hnone | hsame
    · have hnone : w'.cache.get ("order:" ++ toString json.order.id) = none :=
        hnone
      rw [hcanonical, hnone] at hget
      cases hget
    · exact hsame
  · apply (executes_confined hexec.anyEnv).same _ hfound
    intro hrow
    exact hcanonical (hallowed.order text json hold hrow)

theorem sameRow_product {text : String} {json : ProductJson}
    (hallowed : SpellingsUncached w t) (hexec : ExecutesIn RedisUp w t out w')
    (hfound : Found w.db (.products, json.id))
    (hold : w.cache.get ("product:" ++ text) = some (.product json))
    (hget : w'.cache.get ("product:" ++ text) = some (.product json)) :
    SameRow w.db w'.db (.products, json.id) := by
  by_cases hcleared : movesStock t = false ∧ text = toString json.id
  · have hstock : (rightsOf t).stock = false := by
      rw [stock_rightsOf]
      exact hcleared.left
    rcases (executes_upkeep hexec).rows (.products, json.id) _ rfl hfound
      (fun _ => hstock) with hnone | hsame
    · have hnone : w'.cache.get ("product:" ++ toString json.id) = none := hnone
      rw [hcleared.right, hnone] at hget
      cases hget
    · exact hsame
  · apply (executes_confined hexec.anyEnv).same _ hfound
    intro hrow
    exact hcleared (hallowed.product text json hold hrow)

theorem rowsTrue_step (h : RowsTrue w) (hallowed : SpellingsUncached w t)
    (hexec : ExecutesIn RedisUp w t out w') : RowsTrue w' := by
  have hupkeep := executes_upkeep hexec
  constructor
  · intro text value hget
    rcases hupkeep.entries _ _ hget with hold | ⟨hdb, hmade⟩
    · rcases h.order text value hold with ⟨id, json, hid, rfl, ho⟩
      have hrow := (Database.order?_true_eq_some_iff.mp ho).left
      have hkey : json.order.id = id := (Table.find?_eq_some_iff.mp hrow).right
      subst hkey
      have hsame := sameRow_order hallowed hexec ⟨_, hrow⟩ hold hget
      refine ⟨_, json, hid, rfl, ?_⟩
      have hfind : w'.db.orders.find? json.order.id =
          w.db.orders.find? json.order.id := hsame
      unfold Database.order? at ho ⊢
      rw [hfind]
      exact ho
    · rw [hdb]
      exact madeFrom_order hmade
  · intro text value hget
    rcases hupkeep.entries _ _ hget with hold | ⟨hdb, hmade⟩
    · rcases h.product text value hold with ⟨id, row, hid, hrow, rfl⟩
      have hkey : row.id = id := (Table.find?_eq_some_iff.mp hrow).right
      subst hkey
      have hsame := sameRow_product hallowed hexec ⟨_, hrow⟩ hold hget
      exact ⟨_, row, hid, Eq.trans hsame hrow, rfl⟩
    · rw [hdb]
      exact madeFrom_product hmade

end Step

/-!
# Answers
-/

section Answers

variable {w w' : World} {id : Int} {text : String} {out : Outcome}

def rowReply (customerId : Int) : Option Order -> Option (Nat × Option Order)
  | none => some (404, none)
  | some o =>
      if o.customerId ≠ customerId then some (403, none)
      else some (200, some o)

theorem orderReply_ownerAnswer (customerId : Int) (json : Option OrderJson) :
    orderReply (.response (ownerAnswer customerId json)) =
      rowReply customerId (json.map OrderJson.order) := by
  cases json with
  | none => rfl
  | some json =>
      by_cases howner : json.order.customerId ≠ customerId
      · rw [ownerAnswer_other howner]
        exact (if_pos howner).symm
      · rw [ownerAnswer_own howner]
        exact (if_neg howner).symm

theorem orderReply_known (h : RowsTrue w) (hid : pgInteger? text = some id)
    (customerId : Int) :
    orderReply (.response (knownAnswer w.db
      (w.cache.get ("order:" ++ text)) customerId text)) =
        rowReply customerId (w.db.order? id true) := by
  cases hget : w.cache.get ("order:" ++ text) with
  | none =>
      unfold knownAnswer
      dsimp only
      rw [hid]
      dsimp only
      rw [orderReply_ownerAnswer]
      unfold orderGraph?
      rw [Option.map_map, Option.map_map]
      exact congrArg (rowReply customerId) Option.map_id'
  | some value =>
      rcases h.order text value hget with ⟨other, json, hother, rfl, ho⟩
      rw [hid] at hother
      cases hother
      rw [ho]
      exact orderReply_ownerAnswer customerId (some json)

theorem orderReply_answer (h : RowsTrue w) {other : String}
    (hid : pgInteger? text = some id) (hother : pgInteger? other = some id)
    (token : Token) :
    orderReply (.response (orderAnswer w.db
      (w.cache.get ("order:" ++ text)) token text)) =
    orderReply (.response (orderAnswer w.db
      (w.cache.get ("order:" ++ other)) token other)) := by
  cases token with
  | missing => rfl
  | invalid => rfl
  | valid customerId =>
      dsimp only [orderAnswer]
      cases w.db.customer? customerId false with
      | none => rfl
      | some c =>
          dsimp only
          rw [orderReply_known h hid, orderReply_known h hother]

def productReply : Option Product -> Outcome
  | none => .response ⟨404, .message "Product not found"⟩
  | some row => .response ⟨200, .product row.toJSON⟩

theorem runs_product {failed : String -> Outcome} {s' : World × Tx}
    (h : Prog.Runs (Next Healthy)
      (settle (tryCatch (do
        let found : Option Product ← query false (.productByPk id false)
        match found with
        | none => respond 404 (.message "Product not found")
        | some product => do
            Action.perform (I := service)
              (Cmd.redisSet ("product:" ++ text) (.product product.toJSON))
            respond 200 (.product product.toJSON))
        (fun _ => respond 500 (.error "Failed to fetch product")))
        Outcome.response failed) (w, none) out s') :
    out = productReply (w.db.products.find? id) := by
  cases h with
  | call hnext hrest =>
      rcases reply_of_query rfl hnext with ⟨rfl, rfl⟩
      have heval : Query.eval w.db (.productByPk id false) =
        w.db.products.find? id := Database.product?_false w.db id
      rw [heval] at hrest
      cases hrow : w.db.products.find? id with
      | none =>
          rw [hrow] at hrest
          cases hrest
          rfl
      | some row =>
          rw [hrow] at hrest
          cases hrest with
          | call hset hend =>
              rcases next_redisSet hset with ⟨rfl, rfl⟩ | ⟨_, _, hfail⟩
              · cases hend
                rfl
              · exact absurd hfail not_mayFail_healthy

theorem executes_getProductById (h : RowsTrue w)
    (hid : pgInteger? text = some id)
    (hint : (readInt? text.toList).isSome = true)
    (hexec : Executes Healthy w (.request (.getProductById text)) out w') :
    out = productReply (w.db.products.find? id) := by
  rcases hexec with ⟨tx, hrun⟩
  have hcode : Prog.Runs (Next Healthy)
      (settle (validateRequest (idRule text "Invalid product ID")
        (getProductById text)) Outcome.response
        (fun e => Outcome.response ⟨500, .error e⟩)) (w, none) out (w', tx) :=
    hrun
  have hrule : idRule text "Invalid product ID" = [] := by
    unfold idRule ruleErrors
    rw [hint]
    rfl
  unfold validateRequest at hcode
  rw [hrule] at hcode
  cases hcode with
  | call hnext hrest =>
      rcases next_redisGet hnext with ⟨rfl, rfl | ⟨_, hfail⟩⟩
      · cases hget : w.cache.get ("product:" ++ text) with
        | none =>
            rw [hget] at hrest
            unfold integerParam at hrest
            rw [hid] at hrest
            exact runs_product hrest
        | some value =>
            rcases h.product text value hget with ⟨other, row, hother, hrow, rfl⟩
            rw [hid] at hother
            cases hother
            rw [hget] at hrest
            cases hrest
            rw [hrow]
            rfl
      · exact absurd hfail not_mayFail_healthy

end Answers

theorem oneAnswer_of_rowsTrue {w : World} (h : RowsTrue w) : OneAnswer w := by
  constructor
  · intro token id a b out out' wa wb ha hb hexec hexec'
    rw [executes_getOrderById hexec, executes_getOrderById hexec']
    exact orderReply_answer h ha hb token
  · intro id a b out out' wa wb ha hb hinta hintb hexec hexec'
    rw [executes_getProductById h ha hinta hexec,
      executes_getProductById h hb hintb hexec']

/-- In every run, one task after another, in which Redis is up and no task writes
a row that is cached under a key its hooks do not clear: all spellings of an id
get the same row. -/
theorem spellings_get_one_answer {start w : World} (hstart : RowsTrue start)
    (hrun : TaskRun RedisUp SpellingsUncached start w) : OneAnswer w :=
  oneAnswer_of_rowsTrue (taskRun_invariant (fun h hallowed hexec =>
    rowsTrue_step h hallowed hexec) hstart hrun)

theorem rowsTrue_of_empty {w : World} (h : w.cache = []) : RowsTrue w := by
  constructor
  · intro text value hget
    rw [h] at hget
    cases hget
  · intro text value hget
    rw [h] at hget
    cases hget

theorem spellingsUncached_of_empty {w : World} (t : Task) (h : w.cache = []) :
    SpellingsUncached w t := by
  constructor
  · intro text json hget
    rw [h] at hget
    cases hget
  · intro text json hget
    rw [h] at hget
    cases hget

/-- The shop after a customer has looked at the first order as `01`. -/
def shopSpelled : World :=
  afterTask shopBought (.request (.getOrderById (.valid 1) "01"))

/-- The status that a customer reads. -/
def readStatus (w : World) (text : String) : Option Status :=
  let answer := ((Task.request (.getOrderById (.valid 1) text)).perform w).1
  (orderReply answer).bind (fun r => r.2.map Order.status)

/-- The order has been shipped, and is still pending as `01`. -/
theorem other_spelling_keeps_old_status :
    let final := afterTask shopSpelled shipFirst.task
    TaskRun RedisUp (fun _ _ => True) shop final ∧ RowsTrue shop ∧
      readStatus final "01" = some .pending ∧
      readStatus final "1" = some .shipped ∧ ¬ OneAnswer final := by
  intro final
  have hold : readStatus final "01" = some .pending := by
    decide +kernel
  have hnew : readStatus final "1" = some .shipped := by
    decide +kernel
  refine ⟨.tail (.tail (.single (taskStep_after redisUp_default trivial))
    (taskStep_after redisUp_default trivial))
    (taskStep_after redisUp_default trivial), rowsTrue_of_empty rfl, hold,
    hnew, ?_⟩
  intro hone
  have hsame := hone.order (.valid 1) 1 "01" "1" _ _ _ _ rfl rfl
    (executes_perform _ final) (executes_perform _ final)
  unfold readStatus at hold hnew
  dsimp only at hold hnew
  rw [hsame, hnew] at hold
  cases hold

/-- While the first order is cached as `01`, the second product is sold. -/
theorem spelled_order_stays_true :
    SpellingsUncached shopSpelled (buy 2) ∧
      OneAnswer (afterTask shopSpelled (buy 2)) := by
  have hrows : footprint shopSpelled.db (buy 2) = [(.products, 2)] := rfl
  have hcache : shopSpelled.cache = [("order:01", .order _)] := rfl
  have hbuy : SpellingsUncached shopSpelled (buy 2) := by
    constructor
    · intro text json _ hrow
      rw [hrows, List.mem_singleton] at hrow
      cases hrow
    · intro text json hget
      have hne : "product:" ++ text ≠ "order:01" := by
        exact fun heq => order_ne_product "01" text heq.symm
      rw [hcache, Cache.get_cons, if_neg hne] at hget
      cases hget
  refine ⟨hbuy, spellings_get_one_answer (rowsTrue_of_empty rfl)
    (.tail (.tail (.single (taskStep_after redisUp_default ?_))
      (taskStep_after redisUp_default ?_))
      (taskStep_after redisUp_default hbuy))⟩
  · exact spellingsUncached_of_empty _ rfl
  · exact spellingsUncached_of_empty _ rfl

end Caching
end ExpressEcommerce
