import ExpressEcommerce.Secrecy.Shown

/-!
# Updates that submit a password

The answer to an update of customer data, as a function of the row that is
found.  It depends on the stored password only through the test whether
anything has changed, and that test depends on it only if nothing but a
password is submitted.
-/

namespace ExpressEcommerce
namespace Secrecy

open Foundation
open Store
open Service
open Foundation.Action

def digested (env : Env) (patch : CustomerPatch) : CustomerPatch :=
  { patch with password := patch.password.map env.hash }

def saved (env : Env) (db : Database) (message error : String)
    (body : CustomerBody) (c : Customer) : Response :=
  let patch := digested env (Customer.changed c body)
  if Customer.changed c body = {} then
    ⟨200, .messageCustomer message c.toJSON⟩
  else if db.acceptsChange (.customerFields c.id patch) then
    ⟨200, .messageCustomer message
      ({ c.patch patch with updatedAt := env.now } : Customer).toJSON⟩
  else ⟨500, .error error⟩

section Saved

variable {env : Env} (hfault : env.fault = false) (w : World)

include hfault

theorem eval_beforeUpdate (patch : CustomerPatch) :
    eval (exec env) (Customer.beforeUpdate patch) (w, none) =
      (.ok (digested env patch), (w, none)) := by
  rcases patch with ⟨name, email, password⟩
  cases password with
  | none => rfl
  | some text =>
      have hhash : eval (exec env) (bcryptHash text) (w, none) =
          (.ok (env.hash text), (w, none)) := by
        show exec env (.bcryptHash text) (w, none) = _
        dsimp only [exec]
        rw [hfault]
        rfl
      exact eval_bind_of_ok _ hhash

theorem eval_update (change : Change) :
    eval (exec env) (Service.update false change) (w, none) =
      if w.db.acceptsChange change then
        (.ok env.now, w.record none false (.update change env.now))
      else (.error "constraint violated", (w, none)) := by
  show exec env (.update false change) (w, none) = _
  dsimp only [exec]
  rw [hfault]
  rfl

theorem answer_update (message error : String) (body : CustomerBody)
    (c : Customer) :
    answer env
      (tryCatch
        (do
          let customer ← Customer.update c body
          respond 200 (.messageCustomer message customer.toJSON))
        (fun _ => respond 500 (.error error))) w =
      saved env w.db message error body c := by
  unfold saved answer Customer.update
  by_cases hsame : Customer.changed c body = {}
  · rw [if_pos hsame, if_pos hsame]
    rfl
  · rw [if_neg hsame, if_neg hsame]
    have hwrite := eval_update hfault w
      (.customerFields c.id (digested env (Customer.changed c body)))
    have hhash := eval_beforeUpdate hfault w (Customer.changed c body)
    by_cases haccept : w.db.acceptsChange (.customerFields c.id
        (digested env (Customer.changed c body))) = true
    · rw [if_pos haccept] at hwrite ⊢
      rw [eval_tryCatch_of_ok _ (eval_bind_of_ok _
        ((eval_bind_of_ok _ hhash).trans (eval_bind_of_ok _ hwrite)))]
      rfl
    · rw [if_neg haccept] at hwrite ⊢
      rw [eval_tryCatch_of_error _ (eval_bind_of_error _
        ((eval_bind_of_ok _ hhash).trans (eval_bind_of_error _ hwrite)))]
      rfl

theorem answer_saveCustomer (message : String) (customerId : Int)
    (id : String) (body : CustomerBody) :
    answer env (saveCustomer message customerId id body) w =
      if jsInteger? id ≠ some customerId then
        ⟨403, .error "Access denied: Not your data"⟩
      else
        match pgInteger? id with
        | none => ⟨500, .error "Failed to update customer"⟩
        | some n =>
            match w.db.customer? n true with
            | none => ⟨404, .error "Customer not found"⟩
            | some c =>
                saved env w.db message "Failed to update customer" body c := by
  unfold saveCustomer ownData
  split
  · rfl
  · unfold integerParam
    cases pgInteger? id with
    | none => rfl
    | some n =>
        have hfound : eval (exec env) (query false (.customerByPk n true))
            (w, none) = (.ok (w.db.customer? n true), (w, none)) :=
          eval_query_ok hfault w none rfl
        refine (answer_of_eval (eval_tryCatch_congr _
          (eval_bind_of_ok _ hfound))).trans ?_
        dsimp only
        cases w.db.customer? n true with
        | none => rfl
        | some c => exact answer_update hfault w _ _ body c

omit hfault in
theorem alike_cases {mask : Customer -> Customer} {found found' : Option Customer}
    (h : found'.map mask = found.map mask) :
    (found = none ∧ found' = none) ∨
      exists c c', found = some c ∧ found' = some c' ∧ mask c' = mask c := by
  cases found with
  | none =>
      cases found' with
      | none => exact Or.inl ⟨rfl, rfl⟩
      | some c' => cases h
  | some c =>
      cases found' with
      | none => cases h
      | some c' => exact Or.inr ⟨c, c', rfl, rfl, Option.some.inj h⟩

omit hfault in
theorem id_alike {c c' : Customer}
    (h : maskCustomer (fun _ => "") c' = maskCustomer (fun _ => "") c) :
    c'.id = c.id := by
  have hid : (maskCustomer (fun _ => "") c').id =
      (maskCustomer (fun _ => "") c).id :=
    congrArg Customer.id h
  exact hid

omit hfault in
theorem signedIn_alike {w w' : World} (h : erased w' = erased w)
    (token : Token) :
    (signedIn w' token).map (maskCustomer (fun _ => "")) =
      (signedIn w token).map (maskCustomer (fun _ => "")) := by
  have hdb : maskDb (fun _ => "") w'.db = maskDb (fun _ => "") w.db :=
    congrArg World.db h
  cases token with
  | missing => rfl
  | invalid => rfl
  | valid id =>
      show (w'.db.customers.find? id).map _ = (w.db.customers.find? id).map _
      rw [← find?_maskCustomers, ← find?_maskCustomers]
      exact congrArg (fun db => db.customers.find? id) hdb

omit hfault in
theorem customer?_alike {w w' : World} (h : erased w' = erased w) (id : Int)
    (paranoid : Bool) :
    (w'.db.customer? id paranoid).map (maskCustomer (fun _ => "")) =
      (w.db.customer? id paranoid).map (maskCustomer (fun _ => "")) := by
  rw [← customer?_mask, ← customer?_mask]
  exact congrArg (fun v => v.db.customer? id paranoid) h

theorem answers_save {w w' : World} (h : erased w' = erased w)
    (message : String) (token : Token) (id : String) (body : CustomerBody)
    (noToken badToken noCustomer : String) :
    (account w token id = none ∧
      answer env (authenticated token noToken badToken noCustomer
          (fun c => saveCustomer message c.id id body)) w' =
        answer env (authenticated token noToken badToken noCustomer
          (fun c => saveCustomer message c.id id body)) w) ∨
    exists c c', account w token id = some c ∧
      account w' token id = some c' ∧
      maskCustomer (fun _ => "") c' = maskCustomer (fun _ => "") c ∧
      answer env (authenticated token noToken badToken noCustomer
          (fun c => saveCustomer message c.id id body)) w =
        saved env w.db message "Failed to update customer" body c ∧
      answer env (authenticated token noToken badToken noCustomer
          (fun c => saveCustomer message c.id id body)) w' =
        saved env w'.db message "Failed to update customer" body c' := by
  unfold account
  rcases alike_cases (signedIn_alike h token) with
    ⟨hnone, hnone'⟩ | ⟨c, c', hc, hc', hmask⟩
  · refine Or.inl ⟨by rw [hnone]; rfl, ?_⟩
    unfold answer
    rw [eval_authenticated_of_none hfault w none hnone,
      eval_authenticated_of_none hfault w' none hnone']
  · have hid : c'.id = c.id := id_alike hmask
    rw [answer_of_eval (eval_authenticated_of_some hfault w none hc _ _ _ _),
      answer_of_eval (eval_authenticated_of_some hfault w' none hc' _ _ _ _),
      answer_saveCustomer hfault, answer_saveCustomer hfault, hc, hc', hid]
    dsimp only [Option.bind_some]
    rw [hid]
    by_cases hown : jsInteger? id = some c.id
    · rw [if_neg (not_not_intro hown), if_neg (not_not_intro hown),
        if_pos hown, if_pos hown]
      cases pgInteger? id with
      | none => exact Or.inl ⟨rfl, rfl⟩
      | some n =>
          dsimp only [Option.bind_some]
          rcases alike_cases (customer?_alike h n true) with
            ⟨hnone, hnone'⟩ | ⟨r, r', hr, hr', hrow⟩
          · rw [hnone, hnone']
            exact Or.inl ⟨rfl, rfl⟩
          · rw [hr, hr']
            exact Or.inr ⟨r, r', rfl, rfl, hrow, rfl, rfl⟩
    · rw [if_pos hown, if_pos hown, if_neg hown]
      exact Or.inl ⟨rfl, rfl⟩

omit hfault in
theorem account_mask (f : String -> String) (w : World) (token : Token)
    (id : String) :
    account (maskWorld f w) token id =
      (account w token id).map (maskCustomer f) := by
  have hsigned : signedIn (maskWorld f w) token =
      (signedIn w token).map (maskCustomer f) := by
    cases token with
    | missing => rfl
    | invalid => rfl
    | valid n => exact find?_maskCustomers f w.db.customers n
  unfold account
  rw [hsigned]
  cases signedIn w token with
  | none => rfl
  | some c =>
      show (if jsInteger? id = some c.id then _ else none) =
        Option.map _ (if jsInteger? id = some c.id then _ else none)
      split
      · cases pgInteger? id with
        | none => rfl
        | some n => exact customer?_mask f w.db n true
      · rfl

end Saved

/-!
An answer to an update is made from the row without its password, from the
fields other than the password, and from the test whether anything changed.
-/

section Blind

variable {env : Env}
  (hdigests : forall text, Database.fitsText 255 (env.hash text) = true)

def named (body : CustomerBody) (c : Customer) : CustomerPatch :=
  { Customer.changed c body with password := none }

include hdigests

theorem acceptsChange_digested (db : Database) (id : Int)
    (patch : CustomerPatch) :
    db.acceptsChange (.customerFields id (digested env patch)) =
      db.acceptsChange (.customerFields id { patch with password := none }) := by
  have hfits : (patch.password.map env.hash).all (Database.fitsText 255) =
      true := by
    cases patch.password with
    | none => rfl
    | some text => exact hdigests text
  unfold Database.acceptsChange digested
  dsimp only
  rw [hfits]
  rfl

theorem saved_eq (db : Database) (message error : String)
    (body : CustomerBody) (c : Customer) :
    saved env db message error body c =
      if Customer.changed c body = {} then
        ⟨200, .messageCustomer message (maskCustomer (fun _ => "") c).toJSON⟩
      else if db.acceptsChange (.customerFields c.id
          (named body (maskCustomer (fun _ => "") c))) then
        ⟨200, .messageCustomer message
          ({ (maskCustomer (fun _ => "") c).patch
            (named body (maskCustomer (fun _ => "") c)) with
            updatedAt := env.now } : Customer).toJSON⟩
      else ⟨500, .error error⟩ := by
  unfold saved
  dsimp only
  rw [acceptsChange_digested hdigests]
  rfl

theorem saved_alike {w w' : World} (h : erased w' = erased w)
    {c c' : Customer}
    (hrow : maskCustomer (fun _ => "") c' = maskCustomer (fun _ => "") c)
    {body : CustomerBody}
    (hsame : Customer.changed c' body = {} <-> Customer.changed c body = {})
    (message error : String) :
    saved env w'.db message error body c' =
      saved env w.db message error body c := by
  have haccept : forall change,
      w'.db.acceptsChange change = w.db.acceptsChange change := by
    intro change
    rw [← acceptsChange_mask (fun _ => "") w.db,
      ← acceptsChange_mask (fun _ => "") w'.db]
    exact congrArg (fun v => v.db.acceptsChange change) h
  rw [saved_eq hdigests, saved_eq hdigests, hrow, haccept, id_alike hrow]
  by_cases hempty : Customer.changed c body = {}
  · rw [if_pos hempty, if_pos (hsame.mpr hempty)]
  · rw [if_neg hempty, if_neg (fun h => hempty (hsame.mp h))]

omit hdigests in
theorem filter_ne_eq_none_iff {given : Option String} {stored : String} :
    given.filter (fun v => decide (v ≠ stored)) = none <->
      given.all (fun v => decide (v = stored)) = true := by
  cases given with
  | none => simp
  | some v => simp

omit hdigests in
theorem named_eq_empty_iff {body : CustomerBody} {c : Customer} :
    named body c = {} <->
      body.name.all (fun v => decide (v = c.name)) = true ∧
        body.email.all (fun v => decide (v = c.email)) = true := by
  unfold named Customer.changed
  rw [CustomerPatch.mk.injEq, filter_ne_eq_none_iff, filter_ne_eq_none_iff]
  simp only [and_true]

omit hdigests in
theorem changed_eq_empty_iff {body : CustomerBody} {c : Customer} :
    Customer.changed c body = {} <->
      named body c = {} ∧
        body.password.all (fun v => decide (v = c.password)) = true := by
  rw [named_eq_empty_iff]
  unfold Customer.changed
  rw [CustomerPatch.mk.injEq, filter_ne_eq_none_iff, filter_ne_eq_none_iff,
    filter_ne_eq_none_iff, and_assoc]

omit hdigests in
theorem onlyPassword_iff {body : CustomerBody} {c : Customer} :
    onlyPassword body c = true <->
      body.password.isSome = true ∧ named body c = {} := by
  unfold onlyPassword
  rw [Bool.and_eq_true, Bool.and_eq_true, named_eq_empty_iff, and_assoc]

omit hdigests in
theorem named_alike {c c' : Customer}
    (hrow : maskCustomer (fun _ => "") c' = maskCustomer (fun _ => "") c)
    (body : CustomerBody) : named body c' = named body c := by
  have hnamed : named body (maskCustomer (fun _ => "") c') =
      named body (maskCustomer (fun _ => "") c) :=
    congrArg (named body) hrow
  exact hnamed

theorem saved_alike_of_named {w w' : World} (h : erased w' = erased w)
    {c c' : Customer}
    (hrow : maskCustomer (fun _ => "") c' = maskCustomer (fun _ => "") c)
    {body : CustomerBody} (honly : onlyPassword body c = false)
    (message error : String) :
    saved env w'.db message error body c' =
      saved env w.db message error body c := by
  refine saved_alike hdigests h hrow ?_ message error
  rw [changed_eq_empty_iff, changed_eq_empty_iff, named_alike hrow]
  by_cases hnamed : named body c = {}
  · have hnone : body.password = none := by
      cases hpass : body.password with
      | none => rfl
      | some text =>
          have : onlyPassword body c = true :=
            onlyPassword_iff.mpr ⟨by rw [hpass]; rfl, hnamed⟩
          rw [this] at honly
          cases honly
    rw [hnone]
    exact Iff.rfl
  · exact ⟨fun hboth => absurd hboth.left hnamed,
      fun hboth => absurd hboth.left hnamed⟩

theorem saved_only {body : CustomerBody} {c : Customer} {text : String}
    (htext : body.password = some text) (hnamed : named body c = {})
    (db : Database) (message error : String) :
    saved env db message error body c =
      ⟨200, .messageCustomer message ({ c with
        updatedAt := if text = c.password then c.updatedAt else env.now } :
          Customer).toJSON⟩ := by
  rw [saved_eq hdigests]
  have hempty : Customer.changed c body = {} <-> text = c.password := by
    rw [changed_eq_empty_iff, htext]
    simp [hnamed]
  by_cases hsame : text = c.password
  · rw [if_pos (hempty.mpr hsame), if_pos hsame]
    rfl
  · have hnamed' : named body (maskCustomer (fun _ => "") c) = {} := hnamed
    rw [if_neg (fun h => hsame (hempty.mp h)), if_neg hsame, hnamed']
    rfl

end Blind

theorem mem_of_account {w : World} {token : Token} {id : String}
    {c : Customer} (h : account w token id = some c) :
    c ∈ w.db.customers.rows := by
  rcases Option.bind_eq_some_iff.mp h with ⟨c0, _, hown⟩
  split at hown
  · rcases Option.bind_eq_some_iff.mp hown with ⟨n, _, hrow⟩
    have hfind := (Option.filter_eq_some_iff.mp hrow).left
    exact (Table.find?_eq_some_iff.mp hfind).left
  · cases hown

def turn (text password : String) : String -> String :=
  fun stored => if text = password then stored ++ "x" else text

theorem turn_eq_iff (text password : String) :
    text = turn text password password <-> ¬ text = password := by
  unfold turn
  split
  · rename_i heq
    constructor
    · intro hsame
      have hlen := congrArg String.length hsame
      rw [String.length_append, heq] at hlen
      simp at hlen
    · intro hne
      exact absurd heq hne
  · rename_i hne
    exact ⟨fun _ => hne, fun _ => rfl⟩

theorem same_save_iff {env : Env} {w : World} (hsteady : Steady env w)
    {other : World -> Prop} (hother : Others w other)
    (message : String) (token : Token) (id : String) (body : CustomerBody)
    (noToken badToken noCustomer : String) :
    (forall w', other w' ->
        answer env (authenticated token noToken badToken noCustomer
            (fun c => saveCustomer message c.id id body)) w' =
          answer env (authenticated token noToken badToken noCustomer
            (fun c => saveCustomer message c.id id body)) w) <->
      (account w token id).any (onlyPassword body) = false := by
  constructor
  · intro hsame
    cases hc : account w token id with
    | none => rfl
    | some c =>
        show onlyPassword body c = false
        rw [Bool.eq_false_iff]
        intro honly
        rcases onlyPassword_iff.mp honly with ⟨hpass, hnamed⟩
        rcases Option.isSome_iff_exists.mp hpass with ⟨text, htext⟩
        -- in the other world the row holds the submitted text exactly if it
        -- does not in this one
        rcases answers_save hsteady.healthy
          (erased_maskWorld (turn text c.password) w) message token id body
          noToken badToken noCustomer with
          ⟨hnone, _⟩ | ⟨r, r', hr, hr', hrow, hw, hw'⟩
        · rw [hnone] at hc
          cases hc
        · have hstep := hsame _ (hother.masks (turn text c.password))
          have heq : r = c := Option.some.inj (hr.symm.trans hc)
          rw [account_mask, hc] at hr'
          have heq' : r' = maskCustomer (turn text c.password) c :=
            (Option.some.inj hr').symm
          have hnamed' : named body (maskCustomer (turn text c.password) c) =
              {} := hnamed
          rw [hw, hw', heq, heq', saved_only hsteady.digests htext hnamed,
            saved_only hsteady.digests htext hnamed'] at hstep
          have hstamp : (if text = turn text c.password c.password then
              c.updatedAt else env.now) =
              if text = c.password then c.updatedAt else env.now := by
            have hjson := (Body.messageCustomer.inj
              (congrArg Response.body hstep)).right
            exact Option.some.inj (congrArg CustomerJson.updatedAt hjson)
          have hlater := hsteady.later c (mem_of_account hc)
          simp only [turn_eq_iff] at hstamp
          by_cases hstored : text = c.password
          · rw [if_neg (not_not_intro hstored), if_pos hstored] at hstamp
            exact hlater hstamp.symm
          · rw [if_pos hstored, if_neg hstored] at hstamp
            exact hlater hstamp
  · intro hnot w' hw'
    have h := hother.alike w' hw'
    rcases answers_save hsteady.healthy h message token id body noToken
      badToken noCustomer with
      ⟨_, hsame⟩ | ⟨c, c', hc, _, hrow, hanswer, hanswer'⟩
    · exact hsame
    · rw [hc] at hnot
      rw [hanswer, hanswer']
      exact saved_alike_of_named hsteady.digests h hrow hnot _ _

end Secrecy
end ExpressEcommerce
