import ExpressEcommerce.Secrecy.Responses

/-!
# Serving a request in the disguised world

Login, registration and updates that submit a password apart, every request is
answered in the disguised world by the disguised response, and leaves the
disguised world behind.
-/

namespace ExpressEcommerce
namespace Secrecy

open Foundation
open Store
open Service
open Foundation.Action

variable (f : String -> String)

/-- The second handler answers the disguised response of the first one. -/
abbrev Masked (x y : Act Response) : Prop :=
  Lockstep (Paired f) (fun res res' => res' = maskResponse f res) x y

theorem masked_respond (status : Nat) {body : Body}
    (h : shows body = false) :
    Masked f (respond status body) (respond status body) := by
  refine lockstep_pure ?_
  unfold maskResponse
  rw [mask_hidden f h]

theorem masked_plain {x : Act Response} (hplain : Plain x)
    (hhidden : Hidden x) : Masked f x x := by
  refine lockstep_mono ?_ (Lockstep.returns (lockstep_of_plain f hplain)
    hhidden)
  intro res res' h
  rcases h with ⟨heq, hnone⟩
  subst heq
  unfold maskResponse
  rw [mask_hidden f hnone]

theorem lockstep_query {q : Query} :
    Lockstep (Paired f) (fun found found' => found' = maskFound f q found)
      (query false q) (query false q) := by
  refine lockstep_perform (.same _ (fun r r' => r' = maskReply f _ r) rfl
    (fun _ _ => rfl)) ?_
  intro r r' h
  subst h
  cases r <;> exact rfl

theorem masked_authenticated {next : Customer -> Act Response}
    (h : forall c, Masked f (next c) (next (maskCustomer f c)))
    (token : Token) (noToken badToken noCustomer : String) :
    Masked f (authenticated token noToken badToken noCustomer next)
      (authenticated token noToken badToken noCustomer next) := by
  cases token with
  | missing => exact masked_respond f _ rfl
  | invalid => exact masked_respond f _ rfl
  | valid id =>
      refine lockstep_bind (Q := fun found found' =>
        found' = Except.map (Option.map (maskCustomer f)) found) ?_ ?_
      · refine lockstep_tryCatch (lockstep_bind (lockstep_query f) ?_)
          (fun _ => lockstep_pure rfl)
        intro found found' hfound
        refine lockstep_pure ?_
        rw [hfound]
        rfl
      · intro found found' hfound
        subst hfound
        rcases found with e | ⟨_ | c⟩
        · exact masked_respond f _ rfl
        · exact masked_respond f _ rfl
        · exact h c

theorem masked_byId (next : Int -> Act Response)
    (h : forall id, Masked f (next id) (next id))
    (token : Token) (noToken badToken noCustomer : String) :
    Masked f
      (authenticated token noToken badToken noCustomer (fun c => next c.id))
      (authenticated token noToken badToken noCustomer (fun c => next c.id)) :=
  masked_authenticated f (fun c => h c.id) token noToken badToken noCustomer

theorem masked_validateRequest {x : Act Response} (h : Masked f x x)
    (errors : List (String × String)) :
    Masked f (validateRequest errors x) (validateRequest errors x) := by
  unfold validateRequest
  split
  · exact h
  · exact masked_respond f _ rfl

theorem masked_integerParam (text : String)
    {next : Int -> Act Response} (h : forall id, Masked f (next id) (next id)) :
    Masked f (integerParam text >>= next) (integerParam text >>= next) := by
  unfold integerParam
  split
  · exact lockstep_throw _
  · exact h _

/-!
# Orders
-/

theorem renderOrder_mask {serial : Customer -> CustomerJson}
    (h : forall c, serial (maskCustomer f c) = maskCustomerJson f (serial c))
    (product : Product -> ProductJson) (graph : OrderGraph) :
    renderOrder (some serial) product (maskGraph f graph) =
      maskOrderJson f (renderOrder (some serial) product graph) := by
  rcases graph with ⟨order, customer, items⟩
  cases customer with
  | none => rfl
  | some c =>
      show OrderJson.mk order (some (some (serial (maskCustomer f c)))) _ = _
      rw [h]
      rfl

theorem fullOrder_mask (graph : OrderGraph) :
    fullOrder (maskGraph f graph) = maskOrderJson f (fullOrder graph) :=
  renderOrder_mask f (fun _ => rfl) _ graph

theorem masked_orderPage {serial : OrderGraph -> OrderJson}
    (h : forall g, serial (maskGraph f g) = maskOrderJson f (serial g))
    (dataKey : String) (filter : OrderFilter) (incl : Include)
    (page : PageQuery) {failed : String -> Act Response}
    (hfailed : forall e, Masked f (failed e) (failed e)) :
    Masked f
      (tryCatch (do
        let window := paginate page
        let found : Nat × List OrderGraph ← query false
          (.orderPage filter incl window.limit window.offset)
        pure (sendPaginatedResponse dataKey (.orders (found.2.map serial))
          found.1 window.limit window.page)) failed)
      (tryCatch (do
        let window := paginate page
        let found : Nat × List OrderGraph ← query false
          (.orderPage filter incl window.limit window.offset)
        pure (sendPaginatedResponse dataKey (.orders (found.2.map serial))
          found.1 window.limit window.page)) failed) := by
  refine lockstep_tryCatch (lockstep_bind (lockstep_query f) ?_) hfailed
  intro found found' hfound
  subst hfound
  refine lockstep_pure ?_
  have hrows : (found.2.map (maskGraph f)).map serial =
      (found.2.map serial).map (maskOrderJson f) := by
    rw [List.map_map, List.map_map]
    exact List.map_congr_left (fun g _ => h g)
  show sendPaginatedResponse dataKey
    (.orders ((found.2.map (maskGraph f)).map serial)) found.1 _ _ = _
  rw [hrows]
  rfl

theorem masked_getAllOrders (page : PageQuery) :
    Masked f (getAllOrders page) (getAllOrders page) :=
  masked_orderPage f (fullOrder_mask f) _ _ _ _
    (fun _ => masked_respond f _ rfl)

theorem masked_getOrdersByStatus (customerId : Int) (status : String)
    (page : PageQuery) :
    Masked f (getOrdersByStatus customerId status page)
      (getOrdersByStatus customerId status page) := by
  unfold getOrdersByStatus
  split
  · exact masked_respond f _ rfl
  · exact masked_orderPage f (renderOrder_mask f (fun _ => rfl) _) _ _ _ _
      (fun _ => masked_respond f _ rfl)

theorem masked_getOrdersByCustomer (customerId : Int) (idParam : String)
    (page : PageQuery) :
    Masked f (getOrdersByCustomer customerId idParam page)
      (getOrdersByCustomer customerId idParam page) := by
  unfold getOrdersByCustomer
  split
  · exact masked_respond f _ rfl
  · refine lockstep_tryCatch (masked_integerParam f idParam (fun id => ?_))
      (fun _ => masked_respond f _ rfl)
    refine lockstep_bind (lockstep_query f) ?_
    intro customer customer' hcustomer
    subst hcustomer
    cases customer with
    | none => exact masked_respond f _ rfl
    | some c =>
        refine masked_plain f
          (keeps_bind (plain_perform rfl) (fun _ => keeps_pure _)) ?_
        refine returns_last (fun found => returns_pure ?_)
        show List.any (List.map _ _) showsOrder = false
        rw [List.any_map, List.any_eq_false]
        intro graph _
        rw [Function.comp_apply, (showsOrder_render _ graph).left]
        exact Bool.false_ne_true

theorem lockstep_redisGet (key : String) :
    Lockstep (Paired f)
      (fun found found' => found' = Option.map (maskValue f) found)
      (perform (I := service) (Cmd.redisGet key))
      (perform (I := service) (Cmd.redisGet key)) := by
  refine lockstep_perform (.same _ (fun r r' => r' = maskReply f _ r) rfl
    (fun _ _ => rfl)) ?_
  intro r r' h
  subst h
  cases r <;> exact rfl

theorem lockstep_redisSet (key : String) (value : CacheValue) :
    Lockstep (Paired f) (fun _ _ => True)
      (perform (I := service) (Cmd.redisSet key value))
      (perform (I := service) (Cmd.redisSet key (maskValue f value))) := by
  refine lockstep_perform (.stored key value) ?_
  intro r r' h
  subst h
  cases r
  · exact rfl
  · trivial

theorem masked_getOrderById (customerId : Int) (orderId : String) :
    Masked f (getOrderById customerId orderId)
      (getOrderById customerId orderId) := by
  refine lockstep_tryCatch (lockstep_bind (lockstep_redisGet f _) ?_)
    (fun _ => masked_respond f _ rfl)
  intro cached cached' hcached
  subst hcached
  rcases cached with _ | parsed | parsed
  · refine masked_integerParam f orderId (fun id => ?_)
    refine lockstep_bind (lockstep_query f) ?_
    intro found found' hfound
    subst hfound
    cases found with
    | none => exact masked_respond f _ rfl
    | some graph =>
        show Masked f (if graph.order.customerId ≠ customerId then _ else _)
          (if graph.order.customerId ≠ customerId then _ else _)
        split
        · exact masked_respond f _ rfl
        · rw [fullOrder_mask]
          refine lockstep_bind (lockstep_redisSet f _ _) (fun _ _ _ => ?_)
          exact lockstep_pure rfl
  · show Masked f (if parsed.order.customerId ≠ customerId then _ else _)
      (if parsed.order.customerId ≠ customerId then _ else _)
    split
    · exact masked_respond f _ rfl
    · exact lockstep_pure rfl
  · exact masked_respond f _ rfl

theorem masked_getProductById (idParam : String) :
    Masked f (getProductById idParam) (getProductById idParam) := by
  refine lockstep_tryCatch (lockstep_bind (lockstep_redisGet f _) ?_)
    (fun _ => masked_respond f _ rfl)
  intro cached cached' hcached
  subst hcached
  rcases cached with _ | parsed | parsed
  · refine masked_integerParam f idParam (fun id => ?_)
    refine lockstep_bind (lockstep_of_plain f (plain_perform rfl)) ?_
    intro found found' hfound
    subst hfound
    cases found with
    | none => exact masked_respond f _ rfl
    | some product =>
        exact lockstep_bind (lockstep_redisSet f _ (.product product.toJSON))
          (fun _ _ _ => masked_respond f _ rfl)
  · exact lockstep_pure rfl
  · exact masked_respond f _ rfl

/-!
# Customers
-/

theorem masked_getAllCustomers (page : PageQuery) :
    Masked f (getAllCustomers page) (getAllCustomers page) := by
  refine lockstep_tryCatch (lockstep_bind (lockstep_query f) ?_)
    (fun _ => masked_respond f _ rfl)
  intro found found' hfound
  subst hfound
  refine lockstep_pure ?_
  have hrows : (found.2.map (maskCustomer f)).map Customer.toJSON =
      (found.2.map Customer.toJSON).map (maskCustomerJson f) := by
    rw [List.map_map, List.map_map]
    exact List.map_congr_left (fun c _ => rfl)
  show sendPaginatedResponse "customers"
    (.customers ((found.2.map (maskCustomer f)).map Customer.toJSON))
    found.1 _ _ = _
  rw [hrows]
  rfl

theorem masked_findCustomer (idParam error : String) (notFound : Body)
    (hnotFound : shows notFound = false) (paranoid : Bool)
    {next : Customer -> Act Response}
    (h : forall c, Masked f (next c) (next (maskCustomer f c))) :
    Masked f
      (tryCatch (do
        let id ← integerParam idParam
        let found : Option Customer ← query false (.customerByPk id paranoid)
        match found with
        | none => respond 404 notFound
        | some customer => next customer)
        (fun _ => respond 500 (.error error)))
      (tryCatch (do
        let id ← integerParam idParam
        let found : Option Customer ← query false (.customerByPk id paranoid)
        match found with
        | none => respond 404 notFound
        | some customer => next customer)
        (fun _ => respond 500 (.error error))) := by
  refine lockstep_tryCatch (masked_integerParam f idParam (fun id => ?_))
    (fun _ => masked_respond f _ rfl)
  refine lockstep_bind (lockstep_query f) ?_
  intro found found' hfound
  subst hfound
  cases found with
  | none => exact masked_respond f _ hnotFound
  | some c => exact h c

theorem masked_ownData {x : Act Response} (h : Masked f x x)
    (customerId : Int) (idParam : String) :
    Masked f (ownData customerId idParam x) (ownData customerId idParam x) := by
  unfold ownData
  split
  · exact masked_respond f _ rfl
  · exact h

theorem masked_getCustomerById (customerId : Int) (idParam : String) :
    Masked f (getCustomerById customerId idParam)
      (getCustomerById customerId idParam) :=
  masked_ownData f
    (masked_findCustomer f _ _ _ rfl _ (fun _ => lockstep_pure rfl)) _ _

theorem masked_softDeleteCustomer (customerId : Int) (idParam : String) :
    Masked f (softDeleteCustomer customerId idParam)
      (softDeleteCustomer customerId idParam) :=
  masked_ownData f
    (masked_findCustomer f _ _ _ rfl _ (fun _ => lockstep_throw _)) _ _

theorem changed_mask {body : CustomerBody} (h : body.password = none)
    (c : Customer) :
    Customer.changed (maskCustomer f c) body = Customer.changed c body := by
  unfold Customer.changed
  rw [h]
  rfl

theorem masked_customerUpdate {body : CustomerBody}
    (h : body.password = none) (c : Customer) :
    Lockstep (Paired f) (fun c c' => c' = maskCustomer f c)
      (Customer.update c body) (Customer.update (maskCustomer f c) body) := by
  have hnone : (Customer.changed c body).password = none := by
    unfold Customer.changed
    rw [h]
    rfl
  unfold Customer.update
  rw [changed_mask f h]
  split
  · exact lockstep_pure rfl
  · have hhook : Customer.beforeUpdate (Customer.changed c body) =
        pure (Customer.changed c body) := by
      unfold Customer.beforeUpdate
      rw [hnone]
    rw [hhook]
    refine lockstep_bind (Q := fun patch patch' =>
      patch' = patch ∧ patch.password = none) (lockstep_pure ⟨rfl, hnone⟩) ?_
    intro patch patch' hpatch
    rcases hpatch with ⟨heq, hpatch⟩
    subst heq
    have hblind : plain (.update false (.customerFields c.id patch')) = true :=
      Option.isNone_iff_eq_none.mpr hpatch
    refine lockstep_bind (lockstep_of_plain f (plain_perform hblind)) ?_
    intro now now' hnow
    subst hnow
    refine lockstep_pure ?_
    unfold maskCustomer Customer.patch
    rw [hpatch]
    rfl

theorem masked_saveCustomer (message : String) (customerId : Int)
    (idParam : String) {body : CustomerBody} (h : body.password = none) :
    Masked f (saveCustomer message customerId idParam body)
      (saveCustomer message customerId idParam body) := by
  refine masked_ownData f (masked_findCustomer f _ _ _ rfl _ (fun c => ?_)) _ _
  refine lockstep_bind (masked_customerUpdate f h c) ?_
  intro c c' hc
  subst hc
  exact lockstep_pure rfl

theorem masked_restoreCustomer (customerId : Int) (idParam : String) :
    Masked f (restoreCustomer customerId idParam)
      (restoreCustomer customerId idParam) := by
  unfold restoreCustomer
  split
  · exact masked_respond f _ rfl
  · refine masked_findCustomer f _ _ _ rfl _ (fun c => ?_)
    refine lockstep_bind (Q := fun c c' => c' = maskCustomer f c) ?_ ?_
    · show Lockstep _ _ (if c.deletedAt.isSome = true then _ else _)
        (if c.deletedAt.isSome = true then _ else _)
      split
      · refine lockstep_bind (lockstep_of_plain f (plain_perform rfl)) ?_
        intro now now' hnow
        subst hnow
        exact lockstep_pure rfl
      · exact lockstep_pure rfl
    · intro c c' hc
      subst hc
      exact lockstep_pure rfl

/-!
# All requests
-/

/-- Login, registration, and the updates that submit a password. -/
def submitsPassword : Request -> Bool
  | .registerCustomer _ => true
  | .loginCustomer _ => true
  | .updateCustomer _ _ body => body.password.isSome
  | .patchCustomer _ _ body => body.password.isSome
  | _ => false

theorem masked_emailVerdict (body : CustomerBody) {next : Bool -> Act Response}
    (h : forall verdict, Masked f (next verdict) (next verdict)) :
    Masked f (emailVerdict body >>= next) (emailVerdict body >>= next) := by
  refine lockstep_bind (Q := Eq) ?_ ?_
  · unfold emailVerdict
    split
    · exact lockstep_pure rfl
    · exact lockstep_of_plain f (plain_perform rfl)
  · intro verdict verdict' heq
    subst heq
    exact h verdict

theorem masked_handle {req : Request} (h : submitsPassword req = false) :
    Masked f (handle req) (handle req) := by
  cases req with
  | createOrder token items =>
      exact masked_byId f (createOrder · items)
        (fun _ => masked_plain f (keeps_createOrder stockParts_plain _ _)
          (hidden_createOrder _ _)) _ _ _ _
  | getAllOrders token page =>
      exact masked_byId f (fun _ => getAllOrders page)
        (fun _ => masked_getAllOrders f _) _ _ _ _
  | getOrdersByStatus token status page =>
      exact masked_byId f (getOrdersByStatus · status page)
        (fun _ => masked_getOrdersByStatus f _ _ _) _ _ _ _
  | getOrderById token id =>
      exact masked_byId f (getOrderById · id)
        (fun _ => masked_getOrderById f _ _) _ _ _ _
  | getOrdersByCustomer token id page =>
      exact masked_byId f (getOrdersByCustomer · id page)
        (fun _ => masked_getOrdersByCustomer f _ _ _) _ _ _ _
  | updateOrder token id status =>
      exact masked_byId f (updateOrder · id status)
        (fun _ => masked_plain f (keeps_updateOrder statusParts_plain _ _ _)
          (hidden_updateOrder _ _ _)) _ _ _ _
  | patchOrderStatus token id status =>
      exact masked_byId f (fun _ => patchOrderStatus id status)
        (fun _ => masked_plain f (keeps_patchOrderStatus statusParts_plain _ _)
          (hidden_patchOrderStatus _ _)) _ _ _ _
  | softDeleteOrder token id =>
      exact masked_byId f (fun _ => softDeleteOrder id)
        (fun _ => masked_plain f (keeps_softDeleteOrder stockParts_plain _)
          (hidden_softDeleteOrder _)) _ _ _ _
  | restoreOrder token id =>
      exact masked_byId f (fun _ => restoreOrder id)
        (fun _ => masked_plain f (keeps_restoreOrder stockParts_plain _)
          (hidden_restoreOrder _)) _ _ _ _
  | createProduct body =>
      exact masked_validateRequest f (masked_plain f
        (keeps_createProduct plain_productCreate _)
        (hidden_createProduct _)) _
  | getProductById id =>
      exact masked_validateRequest f (masked_getProductById f _) _
  | getAllProducts page =>
      exact masked_plain f (plain_getAllProducts _) (hidden_getAllProducts _)
  | updateProduct id body =>
      exact masked_validateRequest f (masked_plain f (plain_saveProduct _ _ _)
        (hidden_saveProduct _ _ _)) _
  | patchProduct id body =>
      exact masked_validateRequest f (masked_plain f (plain_saveProduct _ _ _)
        (hidden_saveProduct _ _ _)) _
  | softDeleteProduct id =>
      exact masked_validateRequest f (masked_plain f
        (plain_softDeleteProduct _) (hidden_softDeleteProduct _)) _
  | restoreProduct id =>
      exact masked_validateRequest f (masked_plain f (plain_restoreProduct _)
        (hidden_restoreProduct _)) _
  | searchProducts text =>
      exact masked_plain f (plain_searchProducts _) (hidden_searchProducts _)
  | getAllCustomers page => exact masked_getAllCustomers f _
  | getCustomerById token id =>
      exact masked_validateRequest f (masked_byId f (getCustomerById · id)
        (fun _ => masked_getCustomerById f _ _) _ _ _ _) _
  | updateCustomer token id body =>
      have hnone : body.password = none :=
        Option.not_isSome_iff_eq_none.mp (Bool.eq_false_iff.mp h)
      exact masked_emailVerdict f _ (fun _ => masked_validateRequest f
        (masked_byId f (updateCustomer · id body)
          (fun _ => masked_saveCustomer f _ _ _ hnone) _ _ _ _) _)
  | patchCustomer token id body =>
      have hnone : body.password = none :=
        Option.not_isSome_iff_eq_none.mp (Bool.eq_false_iff.mp h)
      exact masked_emailVerdict f _ (fun _ => masked_validateRequest f
        (masked_byId f (patchCustomer · id body)
          (fun _ => masked_saveCustomer f _ _ _ hnone) _ _ _ _) _)
  | softDeleteCustomer token id =>
      exact masked_validateRequest f (masked_byId f (softDeleteCustomer · id)
        (fun _ => masked_softDeleteCustomer f _ _) _ _ _ _) _
  | restoreCustomer token id =>
      exact masked_validateRequest f (masked_byId f (restoreCustomer · id)
        (fun _ => masked_restoreCustomer f _ _) _ _ _ _) _
  | registerCustomer body => cases h
  | loginCustomer body => cases h

/-!
# Answers

A request is served from its first command to its last in one environment: the
clock, bcrypt, the e-mail check and the search do not change on the way.
-/

def responseOf : Except String Response -> Response
  | .ok res => res
  | .error e => ⟨500, .error e⟩

def served (env : Env) (w : World) (req : Request) : Response × World :=
  let final := Action.eval (exec env) (handle req) (w, none)
  (responseOf final.1, final.2.1)

theorem executes_served (env : Env) (w : World) (req : Request) :
    Executes (fun e => e = env) w (.request req)
      (.response (served env w req).1) (served env w req).2 := by
  have hexec : forall c s,
      Next (fun e => e = env) s c (exec env c s).1 (exec env c s).2 :=
    fun c s => ⟨env, rfl, rfl⟩
  refine ⟨(Prog.eval (exec env) (handle req) (w, none)).2.2,
    Prog.runs_bind (Prog.runs_eval hexec (handle req) (w, none)) ?_⟩
  show Prog.Runs _ _ _ (Outcome.response (responseOf
    (Prog.eval (exec env) (handle req) (w, none)).1)) _
  generalize (Prog.eval (exec env) (handle req) (w, none)).1 = r
  cases r <;> exact Prog.Runs.ret _ _

theorem responseOf_mask {r r' : Except String Response}
    (h : BothEnd (I := service) (fun res res' => res' = maskResponse f res)
      r r') : responseOf r' = maskResponse f (responseOf r) := by
  cases r with
  | ok res =>
      cases r' with
      | ok res' => exact h
      | error e' => exact h.elim
  | error e =>
      cases r' with
      | ok res' => exact h.elim
      | error e' =>
          have heq : e = e' := h
          rw [heq]
          rfl

theorem served_mask {req : Request} (h : submitsPassword req = false)
    (env : Env) (w : World) :
    served env (maskWorld f w) req =
      (maskResponse f (served env w req).1,
        maskWorld f (served env w req).2) := by
  have hstart : Disguised f (w, none) (maskWorld f w, none) :=
    ⟨rfl, fun _ hx => nomatch hx⟩
  rcases Prog.Lockstep.eval (disguised_exec f env) (masked_handle f h)
    hstart with ⟨hres, hworld, _⟩
  exact Prod.ext (responseOf_mask f hres) (congrArg Prod.fst hworld)

theorem hidden_eval {x : Act Response} (h : Hidden x) (env : Env)
    (s : World × Tx) :
    shows (responseOf (Action.eval (exec env) x s).1).body = false := by
  have hret := Prog.Ends.eval h (exec env) s
  show shows (responseOf (Prog.eval (exec env) x s).1).body = false
  revert hret
  generalize (Prog.eval (exec env) x s).1 = r
  intro hret
  cases r with
  | ok res => exact hret
  | error e => rfl

theorem hidden_served {req : Request} (h : mayShow req = false) (env : Env)
    (w : World) : shows (served env w req).1.body = false :=
  hidden_eval (hidden_handle h) env (w, none)

/-!
# Worlds that differ only in passwords
-/

/-- The world without its passwords. -/
def erased (w : World) : World :=
  maskWorld (fun _ => "") w

theorem maskValue_maskValue (g : String -> String) (value : CacheValue) :
    maskValue f (maskValue g value) = maskValue (fun text => f (g text)) value := by
  cases value with
  | product value => rfl
  | order value =>
      rcases value with ⟨order, customer, items⟩
      rcases customer with _ | _ | c
      · rfl
      · rfl
      · rcases c with ⟨id, name, email, password, _, _, _⟩
        cases password <;> rfl

theorem maskWorld_maskWorld (g : String -> String) (w : World) :
    maskWorld f (maskWorld g w) = maskWorld (fun text => f (g text)) w := by
  have hdb : maskDb f (maskDb g w.db) =
      maskDb (fun text => f (g text)) w.db := by
    refine Database.ext (Table.ext ?_ rfl) rfl rfl rfl
    show (w.db.customers.rows.map (maskCustomer g)).map (maskCustomer f) =
      w.db.customers.rows.map (maskCustomer (fun text => f (g text)))
    rw [List.map_map]
    rfl
  have hcache : maskCache f (maskCache g w.cache) =
      maskCache (fun text => f (g text)) w.cache := by
    unfold maskCache
    rw [List.map_map]
    apply List.map_congr_left
    intro e _
    exact congrArg (Prod.mk e.1) (maskValue_maskValue f g e.2)
  unfold maskWorld
  rw [hdb, hcache]

theorem erased_maskWorld (w : World) : erased (maskWorld f w) = erased w :=
  maskWorld_maskWorld (fun _ => "") f w

/-- Worlds that differ only in passwords still do so after the same request. -/
theorem erased_served {req : Request} (h : submitsPassword req = false)
    (env : Env) {w w' : World} (heq : erased w' = erased w) :
    erased (served env w' req).2 = erased (served env w req).2 := by
  have hside : forall v, erased (served env v req).2 =
      (served env (erased v) req).2 := by
    intro v
    unfold erased
    rw [served_mask _ h]
  rw [hside, hside, heq]

/-- The world after earlier requests, each with its environment. -/
def servedAll (earlier : List (Env × Request)) (w : World) : World :=
  earlier.foldl (fun v e => (served e.1 v e.2).2) w

theorem erased_servedAll {earlier : List (Env × Request)}
    (h : forall e, e ∈ earlier -> submitsPassword e.2 = false) {w w' : World}
    (heq : erased w' = erased w) :
    erased (servedAll earlier w') = erased (servedAll earlier w) := by
  induction earlier generalizing w w' with
  | nil => exact heq
  | cons e rest ih =>
      exact ih (fun x hx => h x (List.mem_cons_of_mem _ hx))
        (erased_served (h e List.mem_cons_self) e.1 heq)

theorem servedAll_mask {earlier : List (Env × Request)}
    (h : forall e, e ∈ earlier -> submitsPassword e.2 = false) (w : World) :
    servedAll earlier (maskWorld f w) = maskWorld f (servedAll earlier w) := by
  induction earlier generalizing w with
  | nil => rfl
  | cons e rest ih =>
      show servedAll rest (served e.1 (maskWorld f w) e.2).2 = _
      rw [served_mask f (h e List.mem_cons_self)]
      exact ih (fun x hx => h x (List.mem_cons_of_mem _ hx)) _

/-!
A world is compared with others that differ from it only in passwords, the
disguised ones among them.
-/

structure Others (w : World) (other : World -> Prop) : Prop where
  masks : forall f, other (maskWorld f w)
  alike : forall w', other w' -> erased w' = erased w

/-- Answers are the same in all the other worlds exactly if the answer in this
one shows no password. -/
theorem same_answers_iff_hidden {req : Request}
    (h : submitsPassword req = false) (env : Env) {w : World}
    {other : World -> Prop} (hother : Others w other) :
    (forall w', other w' -> (served env w' req).1 = (served env w req).1) <->
      shows (served env w req).1.body = false := by
  have hmask : forall v, maskResponse (fun _ => "") (served env v req).1 =
      (served env (erased v) req).1 := by
    intro v
    unfold erased
    rw [served_mask _ h]
  constructor
  · intro hsame
    have hmore := hsame _ (hother.masks (fun text => text ++ "x"))
    rw [served_mask _ h] at hmore
    refine hidden_of_mask ?_ (congrArg Response.body hmore)
    intro text heq
    have hlen := congrArg String.length heq
    rw [String.length_append] at hlen
    simp at hlen
  · intro hhidden w' hw'
    have hsame : maskResponse (fun _ => "") (served env w' req).1 =
        maskResponse (fun _ => "") (served env w req).1 := by
      rw [hmask, hmask, hother.alike w' hw']
    have hfix : forall res : Response, shows res.body = false ->
        maskResponse (fun _ => "") res = res := by
      intro res hres
      unfold maskResponse
      rw [mask_hidden _ hres]
    have hhidden' : shows (served env w' req).1.body = false := by
      have hbody := congrArg (fun res => shows res.body) hsame
      simp only [maskResponse, shows_mask] at hbody
      rw [hbody, hhidden]
    rw [hfix _ hhidden, hfix _ hhidden'] at hsame
    exact hsame

end Secrecy
end ExpressEcommerce
