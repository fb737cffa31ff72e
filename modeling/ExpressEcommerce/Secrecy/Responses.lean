import ExpressEcommerce.Secrecy.Handlers

/-!
# Responses that show a password

A response shows a password if a customer in its body has one.  Masking leaves
exactly the other responses as they are.  Apart from the listing of all orders
and the two handlers that read the cache, no handler returns a response that
shows a password.
-/

namespace ExpressEcommerce
namespace Secrecy

open Foundation
open Store
open Service
open Foundation.Action

def showsCustomer (c : CustomerJson) : Bool :=
  c.password.isSome

def showsOrder (j : OrderJson) : Bool :=
  j.customer.any (fun c => c.any showsCustomer)

def showsRows : Rows -> Bool
  | .customers rows => rows.any showsCustomer
  | .products _ => false
  | .orders rows => rows.any showsOrder

def shows : Body -> Bool
  | .messageCustomer _ customer => showsCustomer customer
  | .messageOrder _ order => showsOrder order
  | .customer customer => showsCustomer customer
  | .order order => showsOrder order
  | .page _ rows _ => showsRows rows
  | _ => false

section Masking

variable (f : String -> String)

theorem mask_hidden_customer {c : CustomerJson}
    (h : showsCustomer c = false) : maskCustomerJson f c = c := by
  have hnone : c.password = none := by simpa [showsCustomer] using h
  unfold maskCustomerJson
  rw [hnone, Option.map_none, ← hnone]

theorem mask_hidden_order {j : OrderJson} (h : showsOrder j = false) :
    maskOrderJson f j = j := by
  rcases j with ⟨order, customer, items⟩
  rcases customer with _ | _ | c
  · rfl
  · rfl
  · have hc : maskCustomerJson f c = c := mask_hidden_customer f h
    show OrderJson.mk order (some (some (maskCustomerJson f c))) items = _
    rw [hc]

theorem map_hidden {rho : Type} {g : rho -> rho} {show? : rho -> Bool}
    (hg : forall r, show? r = false -> g r = r) {rows : List rho}
    (h : rows.any show? = false) : rows.map g = rows := by
  rw [List.any_eq_false] at h
  calc rows.map g = rows.map id :=
        List.map_congr_left (fun r hr => hg r (by simpa using h r hr))
    _ = rows := List.map_id _

theorem mask_hidden {body : Body} (h : shows body = false) :
    maskBody f body = body := by
  cases body with
  | messageCustomer text customer =>
      exact congrArg (Body.messageCustomer text) (mask_hidden_customer f h)
  | messageOrder text order =>
      exact congrArg (Body.messageOrder text) (mask_hidden_order f h)
  | customer customer =>
      exact congrArg Body.customer (mask_hidden_customer f h)
  | order order => exact congrArg Body.order (mask_hidden_order f h)
  | page dataKey rows pagination =>
      cases rows with
      | customers rows =>
          show Body.page dataKey (.customers (rows.map _)) pagination = _
          rw [map_hidden (fun _ => mask_hidden_customer f) h]
      | products rows => rfl
      | orders rows =>
          show Body.page dataKey (.orders (rows.map _)) pagination = _
          rw [map_hidden (fun _ => mask_hidden_order f) h]
  | error | errorDetails | errors | message | messageProduct | product
  | results | token => rfl

theorem showsCustomer_mask (c : CustomerJson) :
    showsCustomer (maskCustomerJson f c) = showsCustomer c :=
  Option.isSome_map

theorem showsOrder_mask (j : OrderJson) :
    showsOrder (maskOrderJson f j) = showsOrder j := by
  rcases j with ⟨order, customer, items⟩
  rcases customer with _ | _ | c
  · rfl
  · rfl
  · exact showsCustomer_mask f c

theorem shows_mask (body : Body) : shows (maskBody f body) = shows body := by
  cases body with
  | messageCustomer text customer => exact showsCustomer_mask f customer
  | messageOrder text order => exact showsOrder_mask f order
  | customer customer => exact showsCustomer_mask f customer
  | order order => exact showsOrder_mask f order
  | page dataKey rows pagination =>
      cases rows with
      | customers rows =>
          show (rows.map _).any _ = rows.any _
          rw [List.any_map]
          exact congrArg rows.any (funext (showsCustomer_mask f))
      | products rows => rfl
      | orders rows =>
          show (rows.map _).any _ = rows.any _
          rw [List.any_map]
          exact congrArg rows.any (funext (showsOrder_mask f))
  | error | errorDetails | errors | message | messageProduct | product
  | results | token => rfl

variable {f} (hf : forall text, f text ≠ text)

include hf

theorem customer_hidden_of_mask {c : CustomerJson}
    (h : maskCustomerJson f c = c) : showsCustomer c = false := by
  have hpass : c.password.map f = c.password := congrArg (·.password) h
  unfold showsCustomer
  cases hc : c.password with
  | none => rfl
  | some text =>
      rw [hc] at hpass
      exact absurd (Option.some.inj hpass) (hf text)

theorem order_hidden_of_mask {j : OrderJson} (h : maskOrderJson f j = j) :
    showsOrder j = false := by
  rcases j with ⟨order, customer, items⟩
  rcases customer with _ | _ | c
  · rfl
  · rfl
  · have hc : some (some (maskCustomerJson f c)) = some (some c) :=
      congrArg OrderJson.customer h
    exact customer_hidden_of_mask hf (Option.some.inj (Option.some.inj hc))

omit hf in
theorem any_false_of_map {rho : Type} {g : rho -> rho} {show? : rho -> Bool}
    (hg : forall r, g r = r -> show? r = false) {rows : List rho}
    (h : rows.map g = rows) : rows.any show? = false := by
  rw [List.any_eq_false]
  intro r hr
  have hfix : g r = id r :=
    List.map_inj_left.mp (h.trans (List.map_id _).symm) r hr
  rw [hg r hfix]
  exact Bool.false_ne_true

theorem hidden_of_mask {body : Body} (h : maskBody f body = body) :
    shows body = false := by
  cases body with
  | messageCustomer text customer =>
      exact customer_hidden_of_mask hf (Body.messageCustomer.inj h).right
  | messageOrder text order =>
      exact order_hidden_of_mask hf (Body.messageOrder.inj h).right
  | customer customer =>
      exact customer_hidden_of_mask hf (Body.customer.inj h)
  | order order => exact order_hidden_of_mask hf (Body.order.inj h)
  | page dataKey rows pagination =>
      have hrows : maskRows f rows = rows := (Body.page.inj h).right.left
      cases rows with
      | customers rows =>
          exact any_false_of_map (fun _ => customer_hidden_of_mask hf)
            (Rows.customers.inj hrows)
      | products rows => rfl
      | orders rows =>
          exact any_false_of_map (fun _ => order_hidden_of_mask hf)
            (Rows.orders.inj hrows)
  | error | errorDetails | errors | message | messageProduct | product
  | results | token => rfl

end Masking

/-!
# Handlers that show no password
-/

abbrev Hidden (x : Act Response) : Prop :=
  Returns (fun res => shows res.body = false) x

theorem hidden_respond (status : Nat) {body : Body}
    (h : shows body = false) : Hidden (respond status body) :=
  returns_pure h

theorem hidden_authenticated {next : Customer -> Act Response}
    (h : forall c, Hidden (next c)) (token : Token)
    (noToken badToken noCustomer : String) :
    Hidden (authenticated token noToken badToken noCustomer next) := by
  cases token with
  | missing => exact hidden_respond _ rfl
  | invalid => exact hidden_respond _ rfl
  | valid id =>
      refine returns_last (fun found => ?_)
      rcases found with e | ⟨_ | c⟩
      · exact hidden_respond _ rfl
      · exact hidden_respond _ rfl
      · exact h c

theorem hidden_validateRequest {next : Act Response} (h : Hidden next)
    (errors : List (String × String)) :
    Hidden (validateRequest errors next) := by
  unfold validateRequest
  split
  · exact h
  · exact hidden_respond _ rfl

theorem showsOrder_render (product : Product -> ProductJson)
    (graph : OrderGraph) :
    showsOrder (renderOrder none product graph) = false ∧
      showsOrder (renderOrder (some Customer.idNameEmail) product graph) =
        false := by
  rcases graph with ⟨order, customer, items⟩
  cases customer <;> exact ⟨rfl, rfl⟩

theorem hidden_getOrdersByStatus (customerId : Int) (status : String)
    (page : PageQuery) : Hidden (getOrdersByStatus customerId status page) := by
  unfold getOrdersByStatus
  split
  · exact hidden_respond _ rfl
  · refine returns_tryCatch (returns_last (fun found => ?_))
      (fun _ => hidden_respond _ rfl)
    refine returns_pure ?_
    show List.any (List.map _ _) showsOrder = false
    rw [List.any_map, List.any_eq_false]
    intro graph _
    rw [Function.comp_apply, (showsOrder_render _ graph).right]
    exact Bool.false_ne_true

theorem hidden_getOrdersByCustomer (customerId : Int) (idParam : String)
    (page : PageQuery) :
    Hidden (getOrdersByCustomer customerId idParam page) := by
  unfold getOrdersByCustomer
  split
  · exact hidden_respond _ rfl
  · refine returns_tryCatch (returns_last (fun id => ?_))
      (fun _ => hidden_respond _ rfl)
    refine returns_last (fun customer => ?_)
    cases customer with
    | none => exact hidden_respond _ rfl
    | some c =>
        refine returns_last (fun found => returns_pure ?_)
        show List.any (List.map _ _) showsOrder = false
        rw [List.any_map, List.any_eq_false]
        intro graph _
        rw [Function.comp_apply, (showsOrder_render _ graph).left]
        exact Bool.false_ne_true

theorem hidden_createOrder (customerId : Int) (items : List ItemRequest) :
    Hidden (createOrder customerId items) :=
  returns_tryCatch (returns_last (fun _ => hidden_respond _ rfl))
    (fun _ => hidden_respond _ rfl)

theorem hidden_updateOrder (customerId : Int) (idParam : String)
    (status : Option String) :
    Hidden (updateOrder customerId idParam status) := by
  refine returns_tryCatch (returns_last (fun id => ?_))
    (fun _ => hidden_respond _ rfl)
  refine returns_last (fun found => ?_)
  cases found with
  | none => exact hidden_respond _ rfl
  | some graph =>
      dsimp only
      split
      · exact hidden_respond _ rfl
      · split
        · exact hidden_respond _ rfl
        · split
          · exact hidden_respond _ rfl
          · exact returns_last (fun _ => hidden_respond _ rfl)

theorem hidden_patchOrderStatus (idParam : String) (status : Option String) :
    Hidden (patchOrderStatus idParam status) := by
  refine returns_tryCatch (returns_last (fun id => ?_))
    (fun _ => hidden_respond _ rfl)
  refine returns_last (fun found => ?_)
  cases found with
  | none => exact hidden_respond _ rfl
  | some graph =>
      dsimp only
      split
      · exact hidden_respond _ rfl
      · split
        · exact hidden_respond _ rfl
        · exact returns_last (fun _ => hidden_respond _ rfl)

theorem hidden_softDeleteOrder (idParam : String) :
    Hidden (softDeleteOrder idParam) := by
  refine returns_last (fun _ => ?_)
  refine returns_tryCatch (returns_last (fun id => ?_))
    (fun _ => returns_last (fun _ => hidden_respond _ rfl))
  refine returns_last (fun found => ?_)
  cases found with
  | none => exact returns_last (fun _ => hidden_respond _ rfl)
  | some graph =>
      dsimp only
      split
      · exact returns_last (fun _ => hidden_respond _ rfl)
      · exact returns_last (fun _ => returns_last (fun _ =>
          returns_last (fun _ => returns_last (fun _ =>
            hidden_respond _ rfl))))

theorem hidden_restoreOrder (idParam : String) :
    Hidden (restoreOrder idParam) := by
  refine returns_last (fun _ => ?_)
  refine returns_tryCatch (returns_last (fun id => ?_))
    (fun _ => returns_last (fun _ => hidden_respond _ rfl))
  refine returns_last (fun found => ?_)
  cases found with
  | none => exact returns_last (fun _ => hidden_respond _ rfl)
  | some graph =>
      dsimp only
      split
      · exact returns_last (fun _ => hidden_respond _ rfl)
      · exact returns_last (fun _ => returns_last (fun _ =>
          returns_last (fun _ => returns_last (fun _ =>
            returns_last (fun _ => returns_last (fun _ =>
              hidden_respond _ rfl))))))

theorem hidden_createProduct (body : ProductBody) :
    Hidden (createProduct body) := by
  refine returns_tryCatch ?_ (fun _ => hidden_respond _ rfl)
  split
  · exact returns_last (fun _ => hidden_respond _ rfl)
  · exact returns_throw _

theorem hidden_withProduct (idParam text error : String) (paranoid : Bool)
    {next : Product -> Act Response} (h : forall p, Hidden (next p)) :
    Hidden (tryCatch (do
        let id ← integerParam idParam
        let found : Option Product ← query false (.productByPk id paranoid)
        match found with
        | none => respond 404 (.message text)
        | some product => next product)
      (fun _ => respond 500 (.error error))) := by
  refine returns_tryCatch (returns_last (fun id => ?_))
    (fun _ => hidden_respond _ rfl)
  refine returns_last (fun found => ?_)
  cases found with
  | none => exact hidden_respond _ rfl
  | some product => exact h product

theorem hidden_saveProduct (message idParam : String) (body : ProductBody) :
    Hidden (saveProduct message idParam body) :=
  hidden_withProduct _ _ _ _
    (fun _ => returns_last (fun _ => hidden_respond _ rfl))

theorem hidden_softDeleteProduct (idParam : String) :
    Hidden (softDeleteProduct idParam) :=
  hidden_withProduct _ _ _ _
    (fun _ => returns_last (fun _ => hidden_respond _ rfl))

theorem hidden_restoreProduct (idParam : String) :
    Hidden (restoreProduct idParam) :=
  hidden_withProduct _ _ _ _
    (fun _ => returns_last (fun _ => hidden_respond _ rfl))

theorem hidden_getAllProducts (page : PageQuery) :
    Hidden (getAllProducts page) :=
  returns_tryCatch (returns_last (fun _ => returns_pure rfl))
    (fun _ => hidden_respond _ rfl)

theorem hidden_searchProducts (text : Option String) :
    Hidden (searchProducts text) := by
  unfold searchProducts
  split
  · exact hidden_respond _ rfl
  · exact returns_tryCatch (returns_last (fun _ => hidden_respond _ rfl))
      (fun _ => hidden_respond _ rfl)

theorem hidden_getAllCustomers (page : PageQuery) :
    Hidden (getAllCustomers page) := by
  refine returns_tryCatch (returns_last (fun found => returns_pure ?_))
    (fun _ => hidden_respond _ rfl)
  show List.any (List.map _ _) showsCustomer = false
  rw [List.any_map, List.any_eq_false]
  intro c _
  exact Bool.false_ne_true

theorem hidden_withCustomer (customerId : Int) (idParam error : String)
    (paranoid : Bool) {next : Customer -> Act Response}
    (h : forall c, Hidden (next c)) :
    Hidden (ownData customerId idParam (tryCatch (do
        let id ← integerParam idParam
        let found : Option Customer ← query false (.customerByPk id paranoid)
        match found with
        | none => respond 404 (.error "Customer not found")
        | some customer => next customer)
      (fun _ => respond 500 (.error error)))) := by
  unfold ownData
  split
  · exact hidden_respond _ rfl
  · refine returns_tryCatch (returns_last (fun id => ?_))
      (fun _ => hidden_respond _ rfl)
    refine returns_last (fun found => ?_)
    cases found with
    | none => exact hidden_respond _ rfl
    | some customer => exact h customer

theorem hidden_getCustomerById (customerId : Int) (idParam : String) :
    Hidden (getCustomerById customerId idParam) :=
  hidden_withCustomer _ _ _ _ (fun _ => hidden_respond _ rfl)

theorem hidden_saveCustomer (message : String) (customerId : Int)
    (idParam : String) (body : CustomerBody) :
    Hidden (saveCustomer message customerId idParam body) :=
  hidden_withCustomer _ _ _ _
    (fun _ => returns_last (fun _ => hidden_respond _ rfl))

theorem hidden_softDeleteCustomer (customerId : Int) (idParam : String) :
    Hidden (softDeleteCustomer customerId idParam) :=
  hidden_withCustomer _ _ _ _ (fun _ => returns_throw _)

theorem hidden_restoreCustomer (customerId : Int) (idParam : String) :
    Hidden (restoreCustomer customerId idParam) := by
  unfold restoreCustomer
  split
  · exact hidden_respond _ rfl
  · refine returns_tryCatch (returns_last (fun id => ?_))
      (fun _ => hidden_respond _ rfl)
    refine returns_last (fun found => ?_)
    cases found with
    | none => exact hidden_respond _ rfl
    | some customer => exact returns_last (fun _ => hidden_respond _ rfl)

/-- The requests that may be answered with a password. -/
def mayShow : Request -> Bool
  | .getAllOrders _ _ => true
  | .getOrderById _ _ => true
  | .getProductById _ => true
  | _ => false

theorem hidden_handle {req : Request} (h : mayShow req = false) :
    Hidden (handle req) := by
  cases req with
  | createOrder =>
      exact hidden_authenticated (fun _ => hidden_createOrder _ _) _ _ _ _
  | getOrdersByStatus =>
      exact hidden_authenticated (fun _ => hidden_getOrdersByStatus _ _ _)
        _ _ _ _
  | getOrdersByCustomer =>
      exact hidden_authenticated (fun _ => hidden_getOrdersByCustomer _ _ _)
        _ _ _ _
  | updateOrder =>
      exact hidden_authenticated (fun _ => hidden_updateOrder _ _ _) _ _ _ _
  | patchOrderStatus =>
      exact hidden_authenticated (fun _ => hidden_patchOrderStatus _ _)
        _ _ _ _
  | softDeleteOrder =>
      exact hidden_authenticated (fun _ => hidden_softDeleteOrder _) _ _ _ _
  | restoreOrder =>
      exact hidden_authenticated (fun _ => hidden_restoreOrder _) _ _ _ _
  | createProduct =>
      exact hidden_validateRequest (hidden_createProduct _) _
  | getAllProducts => exact hidden_getAllProducts _
  | updateProduct =>
      exact hidden_validateRequest (hidden_saveProduct _ _ _) _
  | patchProduct =>
      exact hidden_validateRequest (hidden_saveProduct _ _ _) _
  | softDeleteProduct =>
      exact hidden_validateRequest (hidden_softDeleteProduct _) _
  | restoreProduct =>
      exact hidden_validateRequest (hidden_restoreProduct _) _
  | searchProducts => exact hidden_searchProducts _
  | getAllCustomers => exact hidden_getAllCustomers _
  | getCustomerById =>
      exact hidden_validateRequest (hidden_authenticated
        (fun _ => hidden_getCustomerById _ _) _ _ _ _) _
  | updateCustomer =>
      exact returns_last (fun _ => hidden_validateRequest
        (hidden_authenticated (fun _ => hidden_saveCustomer _ _ _ _)
          _ _ _ _) _)
  | patchCustomer =>
      exact returns_last (fun _ => hidden_validateRequest
        (hidden_authenticated (fun _ => hidden_saveCustomer _ _ _ _)
          _ _ _ _) _)
  | softDeleteCustomer =>
      exact hidden_validateRequest (hidden_authenticated
        (fun _ => hidden_softDeleteCustomer _ _) _ _ _ _) _
  | restoreCustomer =>
      exact hidden_validateRequest (hidden_authenticated
        (fun _ => hidden_restoreCustomer _ _) _ _ _ _) _
  | registerCustomer body =>
      refine returns_tryCatch ?_ (fun _ => hidden_respond _ rfl)
      split
      · refine returns_last (fun existing => ?_)
        cases existing with
        | none => exact returns_last (fun _ => hidden_respond _ rfl)
        | some c => exact hidden_respond _ rfl
      · exact hidden_respond _ rfl
  | loginCustomer body =>
      refine returns_tryCatch ?_ (fun _ => hidden_respond _ rfl)
      split
      · refine returns_last (fun found => ?_)
        cases found with
        | none => exact hidden_respond _ rfl
        | some c =>
            refine returns_last (fun isMatch => ?_)
            split
            · exact hidden_respond _ rfl
            · exact hidden_respond _ rfl
      · exact hidden_respond _ rfl
  | getAllOrders | getOrderById | getProductById => cases h

end Secrecy
end ExpressEcommerce
