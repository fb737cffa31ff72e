import ExpressEcommerce.Orders.Moves

/-!
# Placing an order

The protocol of `createOrder`.  All writes are collected in one transaction:
the order, then for every line an item and a stock update, then the total.  The
stages record what the log contains so far and which product rows the request
has read.
-/

namespace ExpressEcommerce
namespace Orders

open Foundation
open Store
open Service

/-- What a request for an order brings along, with the customers it may see. -/
structure Basket where
  customers : Table Customer
  token : Token
  items : List ItemRequest

def Passes (products : List Product) (line : ItemRequest) : Prop :=
  exists product, findProduct products line.productId = some product ∧
    line.quantity <= product.stock

def Matches (products : List Product) (line : ItemRequest)
    (item : OrderItem) : Prop :=
  item.productId = line.productId ∧ item.quantity = line.quantity ∧
    item.deletedAt = none ∧
    exists product, findProduct products line.productId = some product ∧
      item.unitPrice = product.price

/-- An order that is being placed: the rows read, the order, the items whose
stock has been taken with the stamps of the updates, and the lines to come. -/
structure Draft where
  products : List Product
  order : Order
  taken : List (OrderItem × Nat)
  todo : List ItemRequest

namespace Draft

def items (d : Draft) : List OrderItem :=
  d.taken.map Prod.fst

def lineWrites (entry : OrderItem × Nat) : List Write :=
  [.insertItem entry.1,
    .update (.productStock entry.1.productId (-entry.1.quantity)) entry.2]

def log (d : Draft) : List Write :=
  .insertOrder d.order :: d.taken.flatMap lineWrites

def fullLog (d : Draft) (now : Nat) : List Write :=
  d.log ++ [.update (.orderTotal d.order.id (lineSum d.items)) now]

end Draft

inductive Stage where
  | idle
  | opened
  | read (products : List Product)
  | created (d : Draft)
  | building (d : Draft)
  | inserted (d : Draft) (item : OrderItem)
  | totalled (d : Draft) (now : Nat)
  | committed (d : Draft) (now : Nat)
  | failed (isOpen : Bool)

def Stage.may (basket : Basket) : Stage -> Cmd -> Prop
  | idle, .query inTx (.customerByPk _ _) => inTx = false
  | idle, .begin =>
      (tokenCustomer? basket.customers basket.token).isSome = true
  | opened, .query inTx (.productsById ids) =>
      inTx = false ∧ ids = basket.items.map ItemRequest.productId
  | read products, .insert inTx (.order customerId total status) =>
      inTx = true ∧ total = 0 ∧ status = .pending ∧
        (exists c, tokenCustomer? basket.customers basket.token = some c ∧
          customerId = c.id) ∧
        forall line, line ∈ basket.items -> Passes products line
  | read products, .rollback =>
      exists line, line ∈ basket.items ∧ ¬ Passes products line
  | created d, .addJob job => job = ⟨d.order.id, .processing⟩
  | building d, .insert inTx (.item orderId productId quantity unitPrice) =>
      inTx = true ∧ orderId = d.order.id ∧
        exists line rest product, d.todo = line :: rest ∧
          findProduct d.products line.productId = some product ∧
          productId = line.productId ∧ quantity = line.quantity ∧
          unitPrice = product.price
  | building d, .update inTx change =>
      inTx = true ∧ d.todo = [] ∧
        change = .orderTotal d.order.id (lineSum d.items)
  | inserted _ item, .query inTx (.orderByPk id paranoid incl) =>
      inTx = false ∧ id = item.orderId ∧ paranoid = true ∧
        incl = { items := some true }
  | inserted _ item, .update inTx change =>
      inTx = true ∧ change = .productStock item.productId (-item.quantity)
  | totalled _ _, .commit => True
  | committed d _, .addJob job => job = ⟨d.order.id, .processing⟩
  | failed _, .rollback => True
  | _, .redisDel _ => True
  | _, _ => False

def Stage.next (basket : Basket) (stage : Stage) :
    (c : Cmd) -> service.Reply c -> Stage -> Prop
  | .begin, .ok _, stage' => stage' = opened
  | .begin, .error _, stage' => stage' = failed false
  | .query _ (.customerByPk id paranoid), .ok found, stage' =>
      stage' = stage ∧
        exists db : Database, db.customers = basket.customers ∧
          found = db.customer? id paranoid
  | .query _ (.customerByPk _ _), .error _, stage' => stage' = failed false
  | .query _ (.productsById _), .ok products, stage' =>
      stage' = read products
  | .query _ (.orderByPk _ _ _), .ok found, stage' =>
      -- the hook does not see an order that is not committed
      found = none ∧ stage' = stage
  | .insert _ (.order customerId total status), .ok answer, stage' =>
      exists products, stage = read products ∧
        stage' = created ⟨products, ⟨answer.1, customerId, total, status,
          answer.2, answer.2, none⟩, [], basket.items⟩
  | .insert _ (.item orderId productId quantity unitPrice), .ok answer,
      stage' =>
      exists d, stage = building d ∧
        stage' = inserted { d with todo := d.todo.tail } ⟨answer.1, orderId,
          productId, quantity, unitPrice, answer.2, answer.2, none⟩
  | .update _ _, .ok now, stage' =>
      (exists d, stage = building d ∧ stage' = totalled d now) ∨
        (exists d item, stage = inserted d item ∧
          stage' = building { d with taken := d.taken ++ [(item, now)] })
  | .commit, .ok _, stage' =>
      exists d now, stage = totalled d now ∧ stage' = committed d now
  | .commit, .error _, stage' => stage' = failed false
  | .rollback, _, stage' => stage' = failed false
  | .addJob _, _, stage' =>
      match stage with
      | created d => stage' = building d
      | _ => stage' = stage
  | .redisDel _, _, stage' => stage' = stage
  | .query _ _, .error _, stage' => stage' = failed true
  | .insert _ _, .error _, stage' => stage' = failed true
  | .update _ _, .error _, stage' => stage' = failed true
  | _, _, _ => False

def place (basket : Basket) : Protocol service Stage where
  may := Stage.may basket
  next := Stage.next basket

def Stage.Ended (basket : Basket) : Stage -> Prop
  | idle => tokenCustomer? basket.customers basket.token = none
  | committed _ _ => True
  | failed isOpen => isOpen = false
  | _ => False

/-!
# Rules for the single commands
-/

section Rules

variable {basket : Basket} {E : String -> Stage -> Prop}

theorem Stage.may_redisDel (stage : Stage) (key : String) :
    stage.may basket (.redisDel key) := by
  cases stage <;> trivial

theorem place_invalidate {Q : Unit -> Stage -> Prop} {stage : Stage}
    {id : Int} (hok : Q () stage) :
    Action.wp (place basket) (invalidateOrderCache id) Q E stage := by
  refine (Action.wp_tryCatch _ _ _).mpr ?_
  refine Action.wp_command (stage.may_redisDel _) ?_ ?_
  · rintro _ _ rfl
    exact hok
  · rintro e _ rfl
    exact hok

theorem place_begin {Q : Unit -> Stage -> Prop}
    (hcustomer : (tokenCustomer? basket.customers basket.token).isSome = true)
    (hok : Q () .opened) (herr : forall e, E e (.failed false)) :
    Action.wp (place basket) begin Q E .idle := by
  refine Action.wp_command hcustomer ?_ ?_
  · rintro _ _ rfl
    exact hok
  · rintro e _ rfl
    exact herr e

theorem place_products {Q : List Product -> Stage -> Prop}
    (hok : forall products, Q products (.read products))
    (herr : forall e, E e (.failed true)) :
    Action.wp (place basket)
      (query false (.productsById (basket.items.map ItemRequest.productId)))
      Q E .opened := by
  refine Action.wp_command ⟨rfl, rfl⟩ ?_ ?_
  · rintro products _ rfl
    exact hok products
  · rintro e _ rfl
    exact herr e

theorem place_rollback {Q : Unit -> Stage -> Prop} {stage : Stage}
    (hmay : stage.may basket .rollback) (hok : Q () (.failed false)) :
    Action.wp (place basket) (detached rollback) Q E stage := by
  unfold detached
  rw [Action.wp_tryCatch]
  refine Action.wp_command hmay ?_ ?_
  · rintro _ _ rfl
    exact hok
  · rintro e _ rfl
    exact hok

theorem place_order {Q : Order -> Stage -> Prop} {products : List Product}
    {c : Customer}
    (hcustomer : tokenCustomer? basket.customers basket.token = some c)
    (hpasses : forall line, line ∈ basket.items -> Passes products line)
    (hok : forall order : Order,
      Q order (.building ⟨products, order, [], basket.items⟩))
    (herr : forall e, E e (.failed true)) :
    Action.wp (place basket) (Order.create true c.id 0 .pending) Q E
      (.read products) := by
  unfold Order.create
  rw [Action.wp_bind]
  refine Action.wp_command
    ⟨rfl, rfl, rfl, ⟨c, hcustomer, rfl⟩, hpasses⟩ ?_ ?_
  · rintro ⟨id, now⟩ _ ⟨_, hread, rfl⟩
    cases hread
    dsimp only
    unfold Order.afterCreate
    rw [Action.wp_bind, Action.wp_bind]
    refine place_invalidate ?_
    unfold detached
    rw [Action.wp_tryCatch]
    refine Action.wp_command rfl ?_ ?_
    · rintro _ _ rfl
      exact hok _
    · rintro e _ rfl
      exact hok _
  · rintro e _ rfl
    exact herr e

theorem place_item {Q : OrderItem -> Stage -> Prop} {d : Draft}
    {line : ItemRequest} {rest : List ItemRequest} {product : Product}
    (htodo : d.todo = line :: rest)
    (hproduct : findProduct d.products line.productId = some product)
    (hok : forall item : OrderItem, item.productId = line.productId ->
      item.quantity = line.quantity -> item.unitPrice = product.price ->
      Q item (.inserted { d with todo := rest } item))
    (herr : forall e, E e (.failed true)) :
    Action.wp (place basket)
      (OrderItem.create true d.order.id line.productId line.quantity
        product.price) Q E (.building d) := by
  unfold OrderItem.create
  rw [Action.wp_bind]
  refine Action.wp_command
    ⟨rfl, rfl, line, rest, product, htodo, hproduct, rfl, rfl, rfl⟩ ?_ ?_
  · rintro ⟨id, now⟩ _ ⟨_, hbuilding, rfl⟩
    cases hbuilding
    rw [htodo]
    dsimp only [List.tail_cons]
    unfold OrderItem.recalculate
    rw [Action.wp_bind, Action.wp_bind]
    refine Action.wp_command ⟨rfl, rfl, rfl, rfl⟩ ?_ ?_
    · rintro found _ ⟨rfl, rfl⟩
      exact hok _ rfl rfl rfl
    · rintro e _ rfl
      exact herr e
  · rintro e _ rfl
    exact herr e

theorem findProduct_id {products : List Product} {id : Int}
    {product : Product} (h : findProduct products id = some product) :
    product.id = id := by
  simpa using List.find?_some h

theorem lineSum_append (items : List OrderItem) (item : OrderItem) :
    lineSum (items ++ [item]) =
      lineSum items + item.quantity * item.unitPrice := by
  unfold lineSum
  simp

theorem place_placeItem {d : Draft} {line : ItemRequest}
    {rest : List ItemRequest} (htodo : d.todo = line :: rest)
    (hpasses : Passes d.products line)
    (herr : forall e, E e (.failed true)) :
    Action.wp (place basket)
      (placeItem d.products d.order (lineSum d.items) line)
      (fun total stage => exists d' : Draft, stage = .building d' ∧
        d'.products = d.products ∧ d'.order = d.order ∧ d'.todo = rest ∧
        total = lineSum d'.items) E (.building d) := by
  rcases hpasses with ⟨product, hproduct, _⟩
  unfold placeItem
  rw [hproduct]
  dsimp only
  rw [Action.wp_bind]
  refine place_item htodo hproduct (fun item hid hquantity hprice => ?_) herr
  unfold Product.incrementStock
  rw [Action.wp_bind, Action.wp_bind]
  refine Action.wp_command ⟨rfl, ?_⟩ ?_ ?_
  · rw [hid, hquantity, findProduct_id hproduct]
  · rintro now _ (⟨_, hbuilding, _⟩ | ⟨_, _, hinserted, rfl⟩)
    · cases hbuilding
    · cases hinserted
      refine ⟨_, rfl, rfl, rfl, rfl, ?_⟩
      unfold Draft.items
      rw [List.map_append, List.map_singleton, lineSum_append, hquantity,
        hprice, Int.mul_comm]
  · rintro e _ rfl
    exact herr e

/-!
# The handler
-/

theorem place_check {products : List Product} (items : List ItemRequest)
    (hthrow : forall e line, line ∈ items -> ¬ Passes products line ->
      E e (.read products)) :
    Action.wp (place basket) (items.forM (checkItem products))
      (fun _ stage => stage = .read products ∧
        forall line, line ∈ items -> Passes products line) E
      (.read products) := by
  refine Action.wp_forM
    (fun rest stage => stage = .read products ∧ rest ⊆ items ∧
      forall line, line ∈ items -> line ∉ rest -> Passes products line)
    ?_ ?_ items ⟨rfl, List.Subset.refl _, fun line hin hout => absurd hin hout⟩
  · rintro line rest stage ⟨rfl, hsub, hbefore⟩
    have hline := hsub List.mem_cons_self
    unfold checkItem
    cases hproduct : findProduct products line.productId with
    | none =>
        refine hthrow _ line hline ?_
        rintro ⟨product, hsome, _⟩
        rw [hproduct] at hsome
        cases hsome
    | some product =>
        dsimp only
        split
        · rename_i hstock
          refine hthrow _ line hline ?_
          rintro ⟨_, hsome, hle⟩
          rw [hproduct] at hsome
          cases hsome
          exact absurd hstock (Int.not_lt.mpr hle)
        · rename_i hstock
          refine ⟨rfl, fun other hmem => hsub (List.mem_cons_of_mem line hmem),
            fun other hin hout => ?_⟩
          by_cases hother : other = line
          · rw [hother]
            exact ⟨product, hproduct, Int.not_lt.mp hstock⟩
          · refine hbefore other hin (fun hmem => ?_)
            rcases List.mem_cons.mp hmem with heq | hrest
            · exact hother heq
            · exact hout hrest
  · rintro stage ⟨rfl, _, hall⟩
    exact ⟨rfl, fun line hin => hall line hin List.not_mem_nil⟩

theorem place_loop {d : Draft} (hempty : d.taken = [])
    (hpasses : forall line, line ∈ d.todo -> Passes d.products line)
    (herr : forall e, E e (.failed true)) :
    Action.wp (place basket)
      (d.todo.foldlM (placeItem d.products d.order) 0)
      (fun total stage => exists d' : Draft, stage = .building d' ∧
        d'.order = d.order ∧ d'.todo = [] ∧ total = lineSum d'.items) E
      (.building d) := by
  refine Action.wp_foldlM
    (fun rest total stage => exists d' : Draft, stage = .building d' ∧
      d'.products = d.products ∧ d'.order = d.order ∧ d'.todo = rest ∧
      total = lineSum d'.items ∧
      forall line, line ∈ rest -> Passes d.products line)
    ?_ ?_ d.todo 0 ⟨d, rfl, rfl, rfl, rfl, ?_, hpasses⟩
  · rintro line rest total stage ⟨d', rfl, hproducts, horder, htodo, rfl,
      hrest⟩
    rw [← hproducts, ← horder] at *
    have hline := hrest line List.mem_cons_self
    refine Action.wp_mono ?_ (fun _ _ he => he)
      (place_placeItem htodo hline herr)
    rintro total stage ⟨d2, rfl, hp2, ho2, ht2, htotal⟩
    exact ⟨d2, rfl, hp2, ho2, ht2, htotal,
      fun other hother => hrest other (List.mem_cons_of_mem line hother)⟩
  · rintro total stage ⟨d', rfl, _, horder, htodo, htotal, _⟩
    exact ⟨d', rfl, horder, htodo, htotal⟩
  · unfold Draft.items
    rw [hempty]
    rfl

theorem place_body {c : Customer}
    (hcustomer : tokenCustomer? basket.customers basket.token = some c)
    (hthrow : forall e stage, stage.may basket .rollback -> E e stage) :
    Action.wp (place basket) (createOrderBody c.id basket.items)
      (fun order stage => exists d now, stage = .totalled d now ∧
        order.id = d.order.id) E .opened := by
  have herr : forall e, E e (.failed true) := fun e => hthrow e _ trivial
  unfold createOrderBody
  rw [Action.wp_bind]
  refine place_products (fun products => ?_) herr
  rw [Action.wp_bind]
  refine Action.wp_mono ?_ (fun _ _ he => he)
    (place_check basket.items
      (fun e line hin hnot => hthrow e _ ⟨line, hin, hnot⟩))
  rintro _ stage ⟨rfl, hpasses⟩
  rw [Action.wp_bind]
  refine place_order hcustomer hpasses (fun order => ?_) herr
  rw [Action.wp_bind]
  refine Action.wp_mono ?_ (fun _ _ he => he)
    (place_loop (d := ⟨products, order, [], basket.items⟩) rfl hpasses herr)
  rintro total stage ⟨d, rfl, horder, htodo, rfl⟩
  unfold Order.saveTotal
  rw [Action.wp_bind]
  have hid : d.order.id = order.id := congrArg Order.id horder
  refine Action.wp_command ⟨rfl, htodo, ?_⟩ ?_ ?_
  · rw [hid]
  · rintro now _ (⟨_, hbuilding, rfl⟩ | ⟨_, _, hinserted, _⟩)
    · cases hbuilding
      rw [Action.wp_bind]
      exact place_invalidate ⟨d, now, rfl, hid.symm⟩
    · cases hinserted
  · rintro e _ rfl
    exact herr e

theorem place_createOrder {Q : Response -> Stage -> Prop} {c : Customer}
    (hcustomer : tokenCustomer? basket.customers basket.token = some c)
    (hcommitted : forall r d now, Q r (.committed d now))
    (hfailed : forall r, Q r (.failed false)) :
    Action.wp (place basket) (createOrder c.id basket.items) Q E .idle := by
  unfold createOrder transaction
  rw [Action.wp_tryCatch, Action.wp_bind, Action.wp_bind]
  refine place_begin (by rw [hcustomer]; rfl) ?_ (fun _ => hfailed _)
  rw [Action.wp_bind, Action.wp_tryCatch, Action.wp_bind]
  have hrollback : forall (e : String) (stage : Stage),
      stage.may basket .rollback ->
      Action.wp (place basket)
        (do
          detached rollback
          throw e : Act Order)
        (fun result t => Action.wp (place basket)
          (do
            detached (scheduleStatusUpdateJob result.id (some .pending))
            pure result)
          (fun order u => Action.wp (place basket)
            (respond 201 (.messageOrder "Order placed successfully"
              order.toJSON)) Q
            (fun e v => Action.wp (place basket) (respond 500 (.error e)) Q E
              v) u)
          (fun e u => Action.wp (place basket) (respond 500 (.error e)) Q E u)
          t)
        (fun e t => Action.wp (place basket) (respond 500 (.error e)) Q E t)
        stage := by
    intro e stage hmay
    rw [Action.wp_bind]
    exact place_rollback hmay (hfailed _)
  refine Action.wp_mono ?_ (fun _ _ he => he) (place_body hcustomer hrollback)
  rintro order stage ⟨d, now, rfl, hid⟩
  rw [Action.wp_bind]
  refine Action.wp_command trivial ?_ ?_
  · rintro _ _ ⟨_, _, htotalled, rfl⟩
    cases htotalled
    rw [Action.wp_pure, Action.wp_bind]
    unfold detached
    rw [Action.wp_tryCatch]
    refine Action.wp_command ?_ ?_ ?_
    · show _ = _
      rw [hid]
    · rintro _ _ rfl
      exact hcommitted _ _ _
    · rintro e _ rfl
      exact hcommitted _ _ _
  · rintro e _ rfl
    exact hrollback e _ trivial

theorem place_authenticate {Q : Response -> Stage -> Prop}
    {next : Customer -> Act Response}
    (hidle : tokenCustomer? basket.customers basket.token = none ->
      forall r, Q r .idle)
    (hfailed : forall r, Q r (.failed false))
    (hok : forall c, tokenCustomer? basket.customers basket.token = some c ->
      Action.wp (place basket) (next c) Q E .idle) :
    Action.wp (place basket) (authenticateCustomer basket.token next) Q E
      .idle := by
  unfold authenticateCustomer authenticated
  cases htoken : basket.token with
  | missing => exact hidle (by rw [htoken]; rfl) _
  | invalid => exact hidle (by rw [htoken]; rfl) _
  | valid id =>
      rw [htoken] at hok hidle
      dsimp only
      rw [Action.wp_bind, Action.wp_tryCatch, Action.wp_bind]
      refine Action.wp_command rfl ?_ ?_
      · rintro _ _ ⟨rfl, db, hdb, rfl⟩
        rw [Database.customer?_false, hdb, Action.wp_pure]
        cases hfind : basket.customers.find? id with
        | none => exact hidle hfind _
        | some c => exact hok c hfind
      · rintro e _ rfl
        exact hfailed _

end Rules

/-- The code of a request for an order follows the protocol. -/
theorem follows_place (basket : Basket) :
    (Task.request (.createOrder basket.token basket.items)).code.wp
      (place basket) (fun _ stage => stage.Ended basket) .idle := by
  refine wp_settle.mpr (place_authenticate ?_ ?_ ?_)
  · exact fun hnone _ => hnone
  · exact fun _ => rfl
  · exact fun c hc => place_createOrder hc (fun _ _ _ => trivial)
      (fun _ => rfl)

end Orders
end ExpressEcommerce
