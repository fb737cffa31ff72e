import ExpressEcommerce.Accounts.Credentials
import ExpressEcommerce.Service.Kinds

/-!
# What a task may do to the customers

A registration may insert one customer, with the name and the address that were
submitted.  The three requests that change an account may write the row of the
customer in their token.  No other task writes a customer, no task does so in a
transaction, and every password that is written came from bcrypt.
-/

namespace ExpressEcommerce
namespace Accounts

open Foundation
open Store
open Service
open Foundation.Action

inductive Right where
  | none
  | register (name email : String)
  | own (id : Int)
  deriving DecidableEq, Repr

/-- The right of a task, what bcrypt has returned to it, and the customer it has
inserted. -/
structure Hand where
  right : Right
  digests : List String := []
  made : Option Int := none

namespace Hand

def may (hand : Hand) : Cmd -> Prop
  | .insert inTx (.customer name email password) =>
      inTx = false ∧ hand.right = .register name email ∧ hand.made = none ∧
        password ∈ hand.digests
  | .update inTx (.customerFields id patch) =>
      inTx = false ∧ hand.right = .own id ∧
        forall password, patch.password = some password ->
          password ∈ hand.digests
  | .update inTx (.customerDeleted id deleted) =>
      inTx = false ∧ deleted = false ∧ hand.right = .own id
  | _ => True

def next (hand : Hand) : (c : Cmd) -> service.Reply c -> Hand -> Prop
  | .query _ (.customerByPk id _), .ok found, hand' =>
      hand' = hand ∧ forall c, found = some c -> c.id = id
  | .bcryptHash _, .ok digest, hand' =>
      hand' = { hand with digests := digest :: hand.digests }
  | .insert _ (.customer _ _ _), .ok inserted, hand' =>
      hand' = { hand with made := some inserted.1 }
  | _, _, hand' => hand' = hand

end Hand

def hands : Protocol service Hand where
  may := Hand.may
  next := Hand.next

def rightOf : Task -> Right
  | .request (.registerCustomer body) =>
      match given body.name, given body.email with
      | some name, some email => .register name email
      | _, _ => .none
  | .request (.updateCustomer (.valid id) _ _) => .own id
  | .request (.patchCustomer (.valid id) _ _) => .own id
  | .request (.restoreCustomer (.valid id) _) => .own id
  | _ => .none

def handOf (task : Task) : Hand :=
  { right := rightOf task }

/-- A registration has inserted the customer that its answer shows, and none if
it does not answer 201. -/
def Reported (out : Outcome) (hand : Hand) : Prop :=
  forall id, hand.made = some id <->
    exists message json, out = .response ⟨201, .messageCustomer message json⟩ ∧
      json.id = id

def isRegistration : Task -> Bool
  | .request (.registerCustomer _) => true
  | _ => false

structure Settled (task : Task) (out : Outcome) (hand : Hand) : Prop where
  right : hand.right = rightOf task
  reported : isRegistration task = true -> Reported out hand
  none : isRegistration task = false -> hand.made = none

/-!
# Tasks of the other kinds
-/

def touchesCustomer : Cmd -> Bool
  | .insert _ (.customer _ _ _) => true
  | .update _ (.customerFields _ _) => true
  | .update _ (.customerDeleted _ _) => true
  | _ => false

theorem not_touchesCustomer_of_issues {kind : Kind} (hkind : kind ≠ .account)
    {c : Cmd} (h : kind.issues c = true) : touchesCustomer c = false := by
  cases c with
  | insert inTx row =>
      cases row with
      | customer => cases kind <;> first | cases h | exact absurd rfl hkind
      | _ => rfl
  | update inTx u =>
      cases u with
      | customerFields | customerDeleted =>
          cases kind <;> first | cases h | exact absurd rfl hkind
      | _ => rfl
  | _ => rfl

theorem may_of_not_touches {c : Cmd} (h : touchesCustomer c = false)
    (hand : Hand) : hand.may c := by
  cases c with
  | insert inTx row =>
      cases row with
      | customer => cases h
      | _ => trivial
  | update inTx u =>
      cases u with
      | customerFields | customerDeleted => cases h
      | _ => trivial
  | _ => trivial

theorem next_of_not_touches {c : Cmd} (h : touchesCustomer c = false)
    {hand hand' : Hand} {r : service.Reply c} (hnext : hand.next c r hand') :
    hand'.right = hand.right ∧ hand'.made = hand.made := by
  have hsame : hand' = hand ->
      hand'.right = hand.right ∧ hand'.made = hand.made := by
    rintro rfl
    exact ⟨rfl, rfl⟩
  cases c with
  | query inTx q =>
      cases q with
      | customerByPk id paranoid =>
          cases r with
          | error e => exact hsame hnext
          | ok found => exact hsame hnext.left
      | _ => cases r <;> exact hsame hnext
  | insert inTx row =>
      cases row with
      | customer => cases h
      | _ => cases r <;> exact hsame hnext
  | bcryptHash password =>
      cases r with
      | error e => exact hsame hnext
      | ok digest =>
          rw [show hand' = _ from hnext]
          exact ⟨rfl, rfl⟩
  | _ => cases r <;> exact hsame hnext

def Idle (right : Right) (hand : Hand) : Prop :=
  hand.right = right ∧ hand.made = none

section Idle

variable {right : Right}

theorem idle_command {c : Cmd} (hc : touchesCustomer c = false) :
    Keeps hands (Idle right) (perform (I := service) c) := by
  refine keeps_command (fun hand _ => may_of_not_touches hc hand) ?_
  rintro hand r hand' ⟨hright, hmade⟩ h
  rcases next_of_not_touches hc h with ⟨hright', hmade'⟩
  exact ⟨hright'.trans hright, hmade'.trans hmade⟩

theorem idle_allowed {kind : Kind} (hkind : kind ≠ .account) :
    kind.Allowed hands (Idle right) :=
  fun _ hc => idle_command (not_touchesCustomer_of_issues hkind hc)

theorem calm_idle : Calm hands (Idle right) :=
  (idle_allowed (by decide : Kind.looking ≠ .account)).calm

/-!
# Accounts
-/

variable {hand : Hand} {E : String -> Hand -> Prop}

theorem wp_findCustomer {id : Int} {paranoid : Bool}
    {Q : Option Customer -> Hand -> Prop}
    (hok : forall found, (forall c, found = some c -> c.id = id) ->
      Q found hand)
    (herr : forall e, E e hand) :
    wp hands (query false (.customerByPk id paranoid)) Q E hand := by
  refine wp_command trivial ?_ ?_
  · rintro found _ ⟨rfl, hid⟩
    exact hok found hid
  · rintro e _ rfl
    exact herr e

theorem wp_hash {password : String} {Q : String -> Hand -> Prop}
    (hok : forall digest,
      Q digest { hand with digests := digest :: hand.digests })
    (herr : forall e, E e hand) :
    wp hands (bcryptHash password) Q E hand := by
  refine wp_command trivial ?_ ?_
  · rintro digest _ rfl
    exact hok digest
  · rintro e _ rfl
    exact herr e

theorem wp_beforeUpdate {patch : CustomerPatch}
    {Q : CustomerPatch -> Hand -> Prop} (hidle : Idle right hand)
    (hok : forall patch hand', Idle right hand' ->
      (forall v, patch.password = some v -> v ∈ hand'.digests) ->
        Q patch hand')
    (herr : forall e, E e hand) :
    wp hands (Customer.beforeUpdate patch) Q E hand := by
  unfold Customer.beforeUpdate
  split
  · rename_i hnone
    refine hok patch hand hidle ?_
    intro v hv
    rw [hnone] at hv
    cases hv
  · refine (wp_bind _ _ _).mpr (wp_hash (fun digest => ?_) herr)
    refine hok _ { hand with digests := digest :: hand.digests } hidle ?_
    rintro v ⟨⟩
    exact List.mem_cons_self

theorem wp_ownUpdate {u : Change} {Q : Nat -> Hand -> Prop}
    (hmay : hand.may (.update false u)) (hok : forall now, Q now hand)
    (herr : forall e, E e hand) :
    wp hands (Service.update false u) Q E hand := by
  have hnext : forall r hand', hand.next (.update false u) r hand' ->
      hand' = hand := by
    intro r hand' h
    cases r <;> exact h
  refine wp_command hmay ?_ ?_
  · intro now hand' h
    rw [hnext (.ok now) hand' h]
    exact hok now
  · intro e hand' h
    rw [hnext (.error e) hand' h]
    exact herr e

theorem wp_ownRow {customerId : Int} {idParam : String} {paranoid : Bool}
    {next : Option Customer -> Act Response} {Q : Response -> Hand -> Prop}
    (hown : ¬ jsInteger? idParam ≠ some customerId)
    (herr : forall e, E e hand) (hnone : wp hands (next none) Q E hand)
    (hsome : forall c : Customer, c.id = customerId ->
      wp hands (next (some c)) Q E hand) :
    wp hands (integerParam idParam >>= fun id =>
      query false (.customerByPk id paranoid) >>= next) Q E hand := by
  refine wp_integerParam (fun _ => herr) (fun id hid => ?_)
  -- the parameter names the row of the token
  have hsame : id = customerId := by
    rw [jsInteger?_of_pgInteger? hid] at hown
    simpa using hown
  refine (wp_bind _ _ _).mpr (wp_findCustomer (fun found hfound => ?_) herr)
  cases found with
  | none => exact hnone
  | some c => exact hsome c ((hfound c rfl).trans hsame)

theorem idle_saveCustomer (message : String) (customerId : Int)
    (idParam : String) (body : CustomerBody) :
    Keeps hands (Idle (.own customerId))
      (saveCustomer message customerId idParam body) := by
  unfold saveCustomer ownData
  split
  · exact keeps_respond _ _
  rename_i hown
  refine keeps_tryCatch ?_ (fun _ => keeps_respond _ _)
  intro hand hidle
  refine wp_ownRow hown (fun _ => hidle) hidle (fun customer hcustomer => ?_)
  refine (wp_bind _ _ _).mpr ?_
  unfold Customer.update
  split
  · exact hidle
  refine (wp_bind _ _ _).mpr (wp_beforeUpdate hidle ?_ (fun _ => hidle))
  intro patch hand' hidle' hdigest
  refine (wp_bind _ _ _).mpr
    (wp_ownUpdate ?_ (fun _ => hidle') (fun _ => hidle'))
  rw [hcustomer]
  exact ⟨rfl, hidle'.left, hdigest⟩

theorem idle_restoreCustomer (customerId : Int) (idParam : String) :
    Keeps hands (Idle (.own customerId))
      (restoreCustomer customerId idParam) := by
  unfold restoreCustomer
  split
  · exact keeps_respond _ _
  rename_i hown
  refine keeps_tryCatch ?_ (fun _ => keeps_respond _ _)
  intro hand hidle
  refine wp_ownRow hown (fun _ => hidle) hidle (fun customer hcustomer => ?_)
  refine (wp_bind _ _ _).mpr ?_
  unfold Customer.restore
  split
  · refine (wp_bind _ _ _).mpr
      (wp_ownUpdate ?_ (fun _ => hidle) (fun _ => hidle))
    rw [hcustomer]
    exact ⟨rfl, rfl, hidle.left⟩
  · exact hidle

theorem idle_authenticated {next : Customer -> Act Response} {token : Token}
    {noToken badToken noCustomer : String} (hright : forall id,
      token = .valid id -> right = .own id)
    (h : forall c, Keeps hands (Idle (.own c.id)) (next c)) :
    Keeps hands (Idle right)
      (authenticated token noToken badToken noCustomer next) := by
  intro hand hidle
  cases token with
  | missing => exact hidle
  | invalid => exact hidle
  | valid id =>
      cases hright id rfl
      refine (wp_bind _ _ _).mpr ((wp_tryCatch _ _ _).mpr
        ((wp_bind _ _ _).mpr (wp_findCustomer (fun found hfound => ?_)
          (fun _ => hidle))))
      cases found with
      | none => exact hidle
      | some customer =>
          have hid := hfound customer rfl
          subst hid
          exact h customer hand hidle

end Idle

theorem reported_of_none {status : Nat} {body : Body} {hand : Hand}
    (hmade : hand.made = none)
    (hbody : forall message json, body ≠ .messageCustomer message json) :
    Reported (.response ⟨status, body⟩) hand := by
  intro id
  constructor
  · intro hsome
    rw [hmade] at hsome
    cases hsome
  · rintro ⟨message, json, heq, _⟩
    cases heq
    exact absurd rfl (hbody message json)

theorem registers {body : CustomerBody} {hand : Hand}
    (hidle : Idle (rightOf (.request (.registerCustomer body))) hand) :
    wp hands (registerCustomer body)
      (fun r => Settled (.request (.registerCustomer body)) (.response r))
      (fun e => Settled (.request (.registerCustomer body))
        (.response ⟨500, .error e⟩)) hand := by
  have hrefused : forall status text (hand' : Hand),
      Idle (rightOf (.request (.registerCustomer body))) hand' ->
      Settled (.request (.registerCustomer body))
        (.response ⟨status, .error text⟩) hand' :=
    fun _ _ _ h => ⟨h.left, fun _ =>
      reported_of_none h.right (fun _ _ h => nomatch h), fun h => nomatch h⟩
  unfold registerCustomer
  refine (wp_tryCatch _ _ _).mpr ?_
  split
  · rename_i name email password hname hemail hpassword
    have hright : hand.right = .register name email := by
      rw [hidle.left]
      dsimp only [rightOf]
      rw [hname, hemail]
    have hfull : ¬ password.isEmpty = true := by
      rw [String.isEmpty_iff]
      exact (given_eq_some hpassword).right
    refine (wp_bind _ _ _).mpr (wp_command trivial ?_ ?_)
    · rintro existing _ rfl
      cases existing with
      | some customer => exact hrefused _ _ _ hidle
      | none =>
          unfold Customer.create
          rw [if_neg hfull]
          refine (wp_bind _ _ _).mpr ((wp_bind _ _ _).mpr
            (wp_hash (fun digest => ?_) (fun e => hrefused _ _ _ hidle)))
          refine (wp_bind _ _ _).mpr (wp_command
            ⟨rfl, hright, hidle.right, List.mem_cons_self⟩ ?_ ?_)
          · rintro ⟨id, now⟩ _ rfl
            refine ⟨hidle.left, fun _ other => ?_, fun h => nomatch h⟩
            constructor
            · rintro ⟨⟩
              exact ⟨_, _, rfl, rfl⟩
            · rintro ⟨message, json, heq, rfl⟩
              cases heq
              rfl
          · rintro e _ rfl
            exact hrefused _ _ _ hidle
    · rintro e _ rfl
      exact hrefused _ _ _ hidle
  · exact hrefused _ _ _ hidle

/-!
# Tasks
-/

theorem settled_of_idle {task : Task} (hkind : isRegistration task = false)
    {hand : Hand} (h : task.code.wp hands
      (fun _ => Idle (rightOf task)) hand) :
    task.code.wp hands (Settled task) hand := by
  refine Prog.wp_mono (fun out hand' hidle => ?_) _ h
  refine ⟨hidle.left, fun hreg => ?_, fun _ => hidle.right⟩
  rw [hkind] at hreg
  cases hreg

theorem idle_saves {token : Token} {right : Right}
    (hright : forall id, token = .valid id -> right = .own id)
    (message id : String) (body : CustomerBody)
    (errors : Bool -> List (String × String)) :
    Keeps hands (Idle right) (do
      let emailOk ← emailVerdict body
      validateRequest (errors emailOk)
        (authenticateCustomer token
          (fun c => saveCustomer message c.id id body))) :=
  keeps_bind (keeps_emailVerdict calm_idle _) (fun _ =>
    keeps_validateRequest (idle_authenticated hright
      (fun _ => idle_saveCustomer _ _ _ _)) _)

/-- Every task keeps to its right. -/
theorem wp_hands (task : Task) :
    task.code.wp hands (Settled task) (handOf task) := by
  have hidle : Idle (rightOf task) (handOf task) := ⟨rfl, rfl⟩
  by_cases hkind : kindOf task = .account
  · cases task with
    | statusJob job => cases hkind
    | cancelJob orderId => cases hkind
    | request req =>
        cases req with
        | registerCustomer body => exact wp_settle.mpr (registers hidle)
        | updateCustomer token id body =>
            refine settled_of_idle rfl
              (wp_settle.mpr (idle_saves ?_ _ _ _ _ _ hidle))
            rintro id rfl
            rfl
        | patchCustomer token id body =>
            refine settled_of_idle rfl
              (wp_settle.mpr (idle_saves ?_ _ _ _ _ _ hidle))
            rintro id rfl
            rfl
        | restoreCustomer token id =>
            refine settled_of_idle rfl
              (wp_settle.mpr (keeps_validateRequest (idle_authenticated ?_
                (fun _ => idle_restoreCustomer _ _)) _ _ hidle))
            rintro id rfl
            rfl
        | _ => cases hkind
  · refine settled_of_idle ?_ (wp_task (idle_allowed hkind) hidle)
    cases task with
    | request req =>
        cases req with
        | registerCustomer body => exact absurd rfl hkind
        | _ => rfl
    | _ => rfl

end Accounts
end ExpressEcommerce
