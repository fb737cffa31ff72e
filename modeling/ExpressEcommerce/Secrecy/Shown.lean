import ExpressEcommerce.Secrecy.Served

/-!
# Requests that disclose a password

The listing of all orders and the view of one order embed the customer with
every attribute.  An update that submits the stored hash as the new password
and changes nothing else is not written, so that its answer keeps the old
stamp.  This module says which requests these are in a given world, and that
the first two kinds are the ones whose answers show a password.
-/

namespace ExpressEcommerce
namespace Secrecy

open Foundation
open Store
open Service
open Foundation.Action

/-!
# What the answers are made from
-/

def signedIn (w : World) : Token -> Option Customer
  | .valid id => w.db.customers.find? id
  | _ => none

def refusal (noToken badToken noCustomer : String) : Token -> String
  | .missing => noToken
  | .invalid => badToken
  | .valid _ => noCustomer

def listsCustomer (db : Database) (page : PageQuery) : Bool :=
  (Query.orderPage .all everything (paginate page).limit
      (paginate page).offset).accepted &&
    (Query.eval db (.orderPage .all everything (paginate page).limit
      (paginate page).offset)).2.any (fun g => g.customer.isSome)

/-- The order is shown to its customer, from the cache or from the store, with
the row of a customer. -/
def viewsCustomer (w : World) (customerId : Int) (id : String) : Bool :=
  match w.cache.get ("order:" ++ id) with
  | some (.order parsed) =>
      decide (parsed.order.customerId = customerId) && showsOrder parsed
  | some (.product _) => false
  | none =>
      (pgInteger? id).any (fun n =>
        (Query.eval w.db (.orderByPk n true everything)).any (fun g =>
          decide (g.order.customerId = customerId) && g.customer.isSome))

def account (w : World) (token : Token) (id : String) : Option Customer :=
  (signedIn w token).bind (fun c =>
    if jsInteger? id = some c.id then
      (pgInteger? id).bind (fun n => w.db.customer? n true)
    else none)

/-- A password is submitted, and nothing else that differs from the row. -/
def onlyPassword (body : CustomerBody) (c : Customer) : Bool :=
  body.password.isSome && body.name.all (fun v => decide (v = c.name)) &&
    body.email.all (fun v => decide (v = c.email))

def discloses (env : Env) (w : World) : Request -> Bool
  | .getAllOrders token page =>
      (signedIn w token).any (fun _ => listsCustomer w.db page)
  | .getOrderById token id =>
      (signedIn w token).any (fun c => viewsCustomer w c.id id)
  | .getProductById id =>
      decide (idRule id "Invalid product ID" = []) &&
        (match w.cache.get ("product:" ++ id) with
        | some (.order parsed) => showsOrder parsed
        | _ => false)
  | .updateCustomer token id body =>
      decide (idRule id "Invalid customer ID" ++
          fullUpdateCustomerRules body (body.email.all env.isEmail) = []) &&
        (account w token id).any (onlyPassword body)
  | .patchCustomer token id body =>
      decide (idRule id "Invalid customer ID" ++
          updateCustomerRules body (body.email.all env.isEmail) = []) &&
        (account w token id).any (onlyPassword body)
  | _ => false

/-- Nothing fails, digests fit their column, and the clock has moved on since
the customers were written. -/
structure Steady (env : Env) (w : World) : Prop where
  healthy : env.fault = false
  digests : forall password, Database.fitsText 255 (env.hash password) = true
  later : forall c, c ∈ w.db.customers.rows -> c.updatedAt ≠ env.now

/-!
# Executing the handlers
-/

section Eval

variable {env : Env} (hfault : env.fault = false) (w : World) (tx : Tx)

include hfault

theorem eval_query (q : Query) :
    eval (exec env) (query false q) (w, tx) =
      if q.accepted then (.ok (q.eval w.db), (w, tx))
      else (.error q.refusal, (w, tx)) := by
  show exec env (.query false q) (w, tx) = _
  dsimp only [exec]
  rw [hfault]
  rfl

theorem eval_query_ok {q : Query} (h : q.accepted = true) :
    eval (exec env) (query false q) (w, tx) = (.ok (q.eval w.db), (w, tx)) := by
  rw [eval_query hfault, if_pos h]

theorem eval_redisGet (key : String) :
    eval (exec env) (perform (I := service) (Cmd.redisGet key)) (w, tx) =
      (.ok (w.cache.get key), (w, tx)) := by
  show exec env (.redisGet key) (w, tx) = _
  dsimp only [exec]
  rw [hfault]
  rfl

theorem eval_lookup (id : Int) :
    eval (exec env)
        (tryCatch
          (do
            let found : Option Customer ← query false (.customerByPk id false)
            pure (.ok found))
          (fun e => pure (.error e)) :
          Act (Except String (Option Customer))) (w, tx) =
      (.ok (.ok (w.db.customers.find? id)), (w, tx)) := by
  have hfound : eval (exec env) (query false (.customerByPk id false))
      (w, tx) = (.ok (w.db.customers.find? id), (w, tx)) := by
    rw [eval_query_ok hfault w tx rfl]
    exact congrArg (fun a => (Except.ok a, (w, tx)))
      (Database.customer?_false w.db id)
  refine eval_tryCatch_of_ok _ ?_
  exact eval_bind_of_ok _ hfound

theorem eval_authenticated_of_some {token : Token} {c : Customer}
    (h : signedIn w token = some c) (noToken badToken noCustomer : String)
    (next : Customer -> Act Response) :
    eval (exec env) (authenticated token noToken badToken noCustomer next)
        (w, tx) =
      eval (exec env) (next c) (w, tx) := by
  cases token with
  | missing => cases h
  | invalid => cases h
  | valid id =>
      refine (eval_bind_of_ok _ (eval_lookup hfault w tx id)).trans ?_
      rw [show w.db.customers.find? id = some c from h]

theorem eval_authenticated_of_none {token : Token}
    (h : signedIn w token = none) (noToken badToken noCustomer : String)
    (next : Customer -> Act Response) :
    eval (exec env) (authenticated token noToken badToken noCustomer next)
        (w, tx) =
      (.ok ⟨401, .error (refusal noToken badToken noCustomer token)⟩,
        (w, tx)) := by
  cases token with
  | missing => rfl
  | invalid => rfl
  | valid id =>
      refine (eval_bind_of_ok _ (eval_lookup hfault w tx id)).trans ?_
      rw [show w.db.customers.find? id = none from h]
      rfl

end Eval

/-!
# The handlers that may show a password
-/

def answer (env : Env) (x : Act Response) (w : World) : Response :=
  responseOf (eval (exec env) x (w, none)).1

theorem answer_of_eval {env : Env} {x y : Act Response} {w w' : World}
    (h : eval (exec env) x (w, none) = eval (exec env) y (w', none)) :
    answer env x w = answer env y w' := by
  unfold answer
  rw [h]

theorem answer_bind {env : Env} {x : Act alpha} {f : alpha -> Act Response}
    {w w' : World} {a : alpha}
    (h : eval (exec env) x (w, none) = (.ok a, (w', none))) :
    answer env (x >>= f) w = answer env (f a) w' :=
  answer_of_eval (eval_bind_of_ok _ h)

/-- The handler's answer shows a password. -/
def shown (env : Env) (x : Act Response) (w : World) : Bool :=
  shows (answer env x w).body

theorem shown_tryCatch {x : Act Response} {f : String -> Act Response}
    (h : forall e, Hidden (f e)) (env : Env) (w : World) :
    shown env (tryCatch x f) w = shown env x w := by
  unfold shown answer
  rcases hx : eval (exec env) x (w, none) with ⟨r, w', tx'⟩
  cases r with
  | ok res => rw [eval_tryCatch_of_ok _ hx, hx]
  | error e =>
      rw [eval_tryCatch_of_error _ hx, hx]
      exact hidden_eval (h e) env (w', tx')

theorem shown_bind {env : Env} {x : Act alpha} {f : alpha -> Act Response}
    {w w' : World} {a : alpha}
    (h : eval (exec env) x (w, none) = (.ok a, (w', none))) :
    shown env (x >>= f) w = shown env (f a) w' := by
  unfold shown
  rw [answer_bind h]

theorem shown_integerParam (env : Env) (text : String)
    (f : Int -> Act Response) (w : World) :
    shown env (integerParam text >>= f) w =
      (pgInteger? text).any (fun id => shown env (f id) w) := by
  unfold integerParam
  cases pgInteger? text <;> rfl

section Shown

variable {env : Env} (hfault : env.fault = false) (w : World)

include hfault

theorem shown_authenticated (token : Token)
    (noToken badToken noCustomer : String)
    (next : Customer -> Act Response) :
    shown env (authenticated token noToken badToken noCustomer next) w =
      (signedIn w token).any (fun c => shown env (next c) w) := by
  cases h : signedIn w token with
  | none =>
      unfold shown answer
      rw [eval_authenticated_of_none hfault w none h]
      rfl
  | some c =>
      unfold shown answer
      rw [eval_authenticated_of_some hfault w none h]
      rfl

omit hfault in
theorem showsOrder_fullOrder (g : OrderGraph) :
    showsOrder (fullOrder g) = g.customer.isSome := by
  rcases g with ⟨order, customer, items⟩
  cases customer <;> rfl

theorem shown_getAllOrders (page : PageQuery) :
    shown env (getAllOrders page) w = listsCustomer w.db page := by
  have hquery := eval_query hfault w none (.orderPage .all everything
    (paginate page).limit (paginate page).offset)
  unfold getAllOrders listsCustomer
  rw [shown_tryCatch (fun _ => hidden_respond _ rfl)]
  cases haccept : (Query.orderPage .all everything (paginate page).limit
      (paginate page).offset).accepted with
  | false =>
      rw [haccept] at hquery
      unfold shown answer
      rw [eval_bind_of_error _ hquery]
      rfl
  | true =>
      rw [haccept] at hquery
      rw [shown_bind hquery, Bool.true_and]
      show List.any (List.map fullOrder _) showsOrder = _
      rw [List.any_map]
      exact congrArg _ (funext showsOrder_fullOrder)

theorem shown_order (key : String) (g : OrderGraph) :
    shown env (do
        Action.perform (I := service)
          (Cmd.redisSet key (.order (fullOrder g)))
        respond 200 (.order (fullOrder g))) w = g.customer.isSome := by
  have hset : eval (exec env) (Action.perform (I := service)
      (Cmd.redisSet key (.order (fullOrder g)))) (w, none) = (.ok (),
        ({ w with cache := w.cache.set key (.order (fullOrder g)) }, none)) := by
    show exec env (.redisSet key _) (w, none) = _
    dsimp only [exec]
    rw [hfault]
    rfl
  rw [shown_bind hset]
  exact showsOrder_fullOrder g

theorem shown_getOrderById (customerId : Int) (id : String) :
    shown env (getOrderById customerId id) w =
      viewsCustomer w customerId id := by
  unfold getOrderById viewsCustomer
  rw [shown_tryCatch (fun _ => hidden_respond _ rfl),
    shown_bind (eval_redisGet hfault w none _)]
  rcases w.cache.get ("order:" ++ id) with _ | parsed | parsed
  · dsimp only
    rw [shown_integerParam]
    congr 1
    funext n
    rw [shown_bind (eval_query_ok hfault w none rfl)]
    rcases Query.eval w.db (.orderByPk n true everything) with _ | g
    · rfl
    · dsimp only [Option.any_some]
      by_cases howner : g.order.customerId = customerId
      · rw [if_neg (not_not_intro howner), shown_order hfault,
          decide_eq_true howner, Bool.true_and]
      · rw [if_pos howner, decide_eq_false howner, Bool.false_and]
        rfl
  · dsimp only
    by_cases howner : parsed.order.customerId = customerId
    · rw [if_neg (not_not_intro howner), decide_eq_true howner,
        Bool.true_and]
      rfl
    · rw [if_pos howner, decide_eq_false howner, Bool.false_and]
      rfl
  · rfl

theorem shown_getProductById (id : String) :
    shown env (getProductById id) w =
      (match w.cache.get ("product:" ++ id) with
      | some (.order parsed) => showsOrder parsed
      | _ => false) := by
  unfold getProductById
  rw [shown_tryCatch (fun _ => hidden_respond _ rfl),
    shown_bind (eval_redisGet hfault w none _)]
  rcases w.cache.get ("product:" ++ id) with _ | parsed | parsed
  · refine hidden_eval (returns_last (fun n => returns_last (fun found => ?_)))
      env (w, none)
    cases found with
    | none => exact hidden_respond _ rfl
    | some product => exact returns_last (fun _ => hidden_respond _ rfl)
  · rfl
  · rfl

end Shown

theorem shown_validateRequest (env : Env) (errors : List (String × String))
    (next : Act Response) (w : World) :
    shown env (validateRequest errors next) w =
      (decide (errors = []) && shown env next w) := by
  unfold validateRequest
  by_cases h : errors = []
  · rw [if_pos h, decide_eq_true h, Bool.true_and]
  · rw [if_neg h, decide_eq_false h, Bool.false_and]
    rfl

theorem any_onlyPassword_of_none {body : CustomerBody}
    (h : body.password.isSome = false) (found : Option Customer) :
    found.any (onlyPassword body) = false := by
  cases found with
  | none => rfl
  | some c =>
      show onlyPassword body c = false
      unfold onlyPassword
      rw [h, Bool.false_and, Bool.false_and]

theorem shows_served {env : Env} (hfault : env.fault = false) (w : World)
    {req : Request} (h : submitsPassword req = false) :
    shows (served env w req).1.body = discloses env w req := by
  cases hreq : mayShow req with
  | false =>
      rw [hidden_served hreq]
      cases req with
      | updateCustomer token id body =>
          have hnone : (account w token id).any (onlyPassword body) = false :=
            any_onlyPassword_of_none h _
          unfold discloses
          simp only [hnone, Bool.and_false]
      | patchCustomer token id body =>
          have hnone : (account w token id).any (onlyPassword body) = false :=
            any_onlyPassword_of_none h _
          unfold discloses
          simp only [hnone, Bool.and_false]
      | getAllOrders | getOrderById | getProductById => cases hreq
      | _ => rfl
  | true =>
      cases req with
      | getAllOrders token page =>
          refine (shown_authenticated hfault w token _ _ _ _).trans ?_
          simp only [shown_getAllOrders hfault]
          rfl
      | getOrderById token id =>
          refine (shown_authenticated hfault w token _ _ _ _).trans ?_
          simp only [shown_getOrderById hfault]
          rfl
      | getProductById id =>
          refine (shown_validateRequest env _ _ w).trans ?_
          rw [shown_getProductById hfault]
          rfl
      | _ => cases hreq

end Secrecy
end ExpressEcommerce
