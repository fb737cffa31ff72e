import ExpressEcommerce.Service.Routes
import Mathlib.Data.Countable.Basic
import Mathlib.Logic.Equiv.List

/-!
# Tokens

`loginCustomer` signs the id and the address of the customer for a day.  The two
middlewares take the text of the token out of the `Authorization` header in
different ways and let `jwt.verify` check it.
-/

namespace ExpressEcommerce
namespace Sessions

open Service

/-- The payload of a token; times are in seconds. -/
structure Claims where
  id : Int
  email : String
  iat : Nat
  exp : Nat
  deriving DecidableEq, Repr

/-- `jsonwebtoken` with the secret of the service.  `decode` checks the
signature only.  A token is three parts in base64url, joined by dots. -/
structure Signer where
  sign : Claims -> String
  decode : String -> Option Claims
  decode_sign : forall c, decode (sign c) = some c
  compact : forall c, ' ' ∉ (sign c).toList
  nonempty : forall c, sign c ≠ ""

theorem exists_code : exists f : Claims -> Nat, Function.Injective f := by
  have hinj : Function.Injective (fun c : Claims =>
      (c.id, c.email.toList.map Char.toNat, c.iat, c.exp)) := by
    intro c c' h
    simp only [Prod.mk.injEq] at h
    rcases h with ⟨hid, hemail, hiat, hexp⟩
    have htext : c.email = c'.email := String.toList_inj.mp
      (List.map_injective_iff.mpr (fun _ _ => Char.toNat_inj.mp) hemail)
    cases c
    cases c'
    simp_all
  have := hinj.countable
  exact exists_injective_nat Claims

/-- There are such functions. -/
theorem exists_signer : Nonempty Signer := by
  classical
  rcases exists_code with ⟨f, hf⟩
  let sign : Claims -> String :=
    fun c => String.ofList (List.replicate (f c + 1) 'x')
  have hsign : Function.Injective sign := by
    intro c c' h
    have hlength := congrArg (fun text => text.toList.length) h
    simp only [sign, String.toList_ofList, List.length_replicate] at hlength
    exact hf (Nat.succ_injective hlength)
  refine ⟨⟨sign, fun text => if h : exists c, sign c = text then some h.choose
    else none, fun c => ?_, fun c => ?_, fun c => ?_⟩⟩
  · have hex : exists c', sign c' = sign c := ⟨c, rfl⟩
    rw [dif_pos hex]
    exact congrArg some (hsign hex.choose_spec)
  · simp [sign]
  · simp [sign]

/-- `expiresIn: "1d"`. -/
def lifetime : Nat := 86400

def Claims.fresh (id : Int) (email : String) (now : Nat) : Claims :=
  ⟨id, email, now, now + lifetime⟩

def Signer.verify (J : Signer) (text : String) (now : Nat) : Option Claims :=
  (J.decode text).filter (fun c => decide (now < c.exp))

theorem Signer.verify_eq_some {J : Signer} {text : String} {now : Nat}
    {c : Claims} :
    J.verify text now = some c <-> J.decode text = some c ∧ now < c.exp := by
  unfold Signer.verify
  rw [Option.filter_eq_some_iff, decide_eq_true_iff]

theorem Signer.verify_sign (J : Signer) (c : Claims) (now : Nat) :
    J.verify (J.sign c) now = if now < c.exp then some c else none := by
  unfold Signer.verify
  rw [J.decode_sign]
  simp only [Option.filter, decide_eq_true_iff]

/-!
# Headers
-/

def bearer : List Char :=
  "Bearer ".toList

/-- `authHeader.split(' ')[1]`, behind the check of `startsWith('Bearer ')`. -/
def splitToken (header : String) : Option String :=
  if bearer.isPrefixOf header.toList then
    some (String.ofList ((header.toList.splitOn ' ').getD 1 []))
  else none

/-- `replace` with a text replaces the first occurrence only. -/
def withoutFirst (pattern : List Char) : List Char -> List Char
  | [] => []
  | c :: rest =>
      if pattern.isPrefixOf (c :: rest) then (c :: rest).drop pattern.length
      else c :: withoutFirst pattern rest

/-- `replace("Bearer ", "")`, where an empty rest counts as no token. -/
def replacedToken (header : String) : Option String :=
  let text := String.ofList (withoutFirst bearer header.toList)
  if text = "" then none else some text

/-- The two middlewares of `authMiddleware.js`. -/
inductive Middleware where
  | authenticateCustomer
  | allowSoftDeletedCustomer
  deriving DecidableEq, Repr

namespace Middleware

/-- The text that is given to `jwt.verify`, if the header gets so far. -/
def text (m : Middleware) (header : Option String) : Option String :=
  match m with
  | authenticateCustomer => header.bind splitToken
  | allowSoftDeletedCustomer => header.bind replacedToken

def token (m : Middleware) (J : Signer) (now : Nat)
    (header : Option String) : Token :=
  match m.text header with
  | none => .missing
  | some text =>
      match J.verify text now with
      | none => .invalid
      | some c => .valid c.id

theorem token_eq_valid {m : Middleware} {J : Signer} {now : Nat}
    {header : Option String} {id : Int} :
    m.token J now header = .valid id <->
      exists text c, m.text header = some text ∧ J.decode text = some c ∧
        now < c.exp ∧ c.id = id := by
  unfold token
  cases htext : m.text header with
  | none => simp
  | some text =>
      dsimp only
      cases hverify : J.verify text now with
      | none =>
          constructor
          · rintro ⟨⟩
          · rintro ⟨_, c, ⟨⟩, hdecode, hexp, _⟩
            have hsome := Signer.verify_eq_some.mpr ⟨hdecode, hexp⟩
            rw [hverify] at hsome
            cases hsome
      | some c =>
          rcases Signer.verify_eq_some.mp hverify with ⟨hdecode, hexp⟩
          constructor
          · rintro ⟨⟩
            exact ⟨text, c, rfl, hdecode, hexp, rfl⟩
          · rintro ⟨_, c', ⟨⟩, hdecode', _, rfl⟩
            rw [hdecode] at hdecode'
            cases hdecode'
            rfl

end Middleware

/-!
Both middlewares find the token that a login has answered with.
-/

theorem splitToken_bearer {text : String} (h : ' ' ∉ text.toList) :
    splitToken ("Bearer " ++ text) = some text := by
  have hchars : ("Bearer " ++ text).toList =
      "Bearer".toList ++ ' ' :: text.toList := by
    rw [String.toList_append]
    rfl
  have hfirst : forall x, x ∈ "Bearer".toList -> (x == ' ') = false := by
    simp
  have hrest : forall x, x ∈ text.toList -> (x == ' ') = false := by
    intro x hx
    refine beq_eq_false_iff_ne.mpr ?_
    rintro rfl
    exact h hx
  have hsplit : ("Bearer " ++ text).toList.splitOn ' ' =
      ["Bearer".toList, text.toList] := by
    rw [hchars]
    unfold List.splitOn
    rw [List.splitOnP_append_cons_of_forall_mem hfirst _ rfl,
      List.splitOnP_eq_singleton hrest]
  have hstarts : bearer.isPrefixOf ("Bearer " ++ text).toList = true := by
    rw [List.isPrefixOf_iff_prefix, String.toList_append]
    exact List.prefix_append _ _
  unfold splitToken
  rw [if_pos hstarts, hsplit]
  exact congrArg some String.ofList_toList

theorem replacedToken_bearer {text : String} (h : text ≠ "") :
    replacedToken ("Bearer " ++ text) = some text := by
  have hrest : withoutFirst bearer ("Bearer " ++ text).toList =
      text.toList := by
    rw [String.toList_append]
    rfl
  unfold replacedToken
  rw [hrest, String.ofList_toList]
  exact if_neg h

theorem Middleware.text_sign (m : Middleware) (J : Signer) (c : Claims) :
    m.text (some ("Bearer " ++ J.sign c)) = some (J.sign c) := by
  cases m with
  | authenticateCustomer =>
      dsimp only [Middleware.text, Option.bind_some]
      rw [splitToken_bearer (J.compact c)]
  | allowSoftDeletedCustomer =>
      dsimp only [Middleware.text, Option.bind_some]
      rw [replacedToken_bearer (J.nonempty c)]

theorem Middleware.token_sign (m : Middleware) (J : Signer) (c : Claims)
    (now : Nat) :
    m.token J now (some ("Bearer " ++ J.sign c)) =
      if now < c.exp then .valid c.id else .invalid := by
  unfold Middleware.token
  rw [m.text_sign]
  dsimp only
  rw [J.verify_sign]
  by_cases hexp : now < c.exp
  · rw [if_pos hexp, if_pos hexp]
  · rw [if_neg hexp, if_neg hexp]

/-!
# Requests with their headers
-/

/-- The request as its route runs it, with the token that the middleware of the
route has read. -/
def present (read : Middleware -> Token) : Request -> Request
  | .createOrder _ items => .createOrder (read .authenticateCustomer) items
  | .getAllOrders _ page => .getAllOrders (read .authenticateCustomer) page
  | .getOrdersByStatus _ status page =>
      .getOrdersByStatus (read .authenticateCustomer) status page
  | .getOrderById _ id => .getOrderById (read .authenticateCustomer) id
  | .getOrdersByCustomer _ id page =>
      .getOrdersByCustomer (read .authenticateCustomer) id page
  | .updateOrder _ id status =>
      .updateOrder (read .authenticateCustomer) id status
  | .patchOrderStatus _ id status =>
      .patchOrderStatus (read .authenticateCustomer) id status
  | .softDeleteOrder _ id => .softDeleteOrder (read .authenticateCustomer) id
  | .restoreOrder _ id => .restoreOrder (read .authenticateCustomer) id
  | .getCustomerById _ id => .getCustomerById (read .authenticateCustomer) id
  | .updateCustomer _ id body =>
      .updateCustomer (read .authenticateCustomer) id body
  | .patchCustomer _ id body =>
      .patchCustomer (read .authenticateCustomer) id body
  | .softDeleteCustomer _ id =>
      .softDeleteCustomer (read .authenticateCustomer) id
  | .restoreCustomer _ id =>
      .restoreCustomer (read .allowSoftDeletedCustomer) id
  | req => req

end Sessions
end ExpressEcommerce
