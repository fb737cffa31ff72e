import ExpressEcommerce.Orders.Symbolic

/-!
# Registrations and changes of an account

What one request does to the rows of the customers and to the password of the
account: nothing, or one row is written.  A password that is new to the stored
row is hashed by a hook; one that equals the stored hash counts as unchanged.
-/

namespace ExpressEcommerce
namespace Accounts

open Foundation
open Store
open Service
open Orders
open Foundation.Action

inductive AccountTask where
  | register (body : CustomerBody)
  | update (token : Token) (id : String) (body : CustomerBody)
  | patch (token : Token) (id : String) (body : CustomerBody)
  deriving DecidableEq, Repr

namespace AccountTask

def request : AccountTask -> Request
  | register body => .registerCustomer body
  | update token id body => .updateCustomer token id body
  | patch token id body => .patchCustomer token id body

def body : AccountTask -> CustomerBody
  | register body => body
  | update _ _ body => body
  | patch _ _ body => body

/-- Whose row a request works on: a registration makes a new one. -/
def Targets (db : Database) (id : Int) : AccountTask -> Prop
  | register _ => db.customers.find? id = none
  | update _ text _ => pgInteger? text = some id
  | patch _ text _ => pgInteger? text = some id

end AccountTask

/-- The password that a request has submitted with success, and for whom: the
answer carries the customer. -/
def submitted (t : AccountTask) : Outcome -> Option (Int × String)
  | .response ⟨status, .messageCustomer _ json⟩ =>
      if status < 300 then t.body.password.map (fun v => (json.id, v))
      else none
  | _ => none

/-- What has become of the password in the row that was written. -/
inductive Stored (ok : Env -> Prop) (db : Database) (c : Customer) :
    Option (Int × String) -> Prop where
  | hashed {v : String} {env : Env} (henv : ok env) (hv : v ≠ "")
      (hnew : forall old, db.customers.find? c.id = some old ->
        old.password ≠ v)
      (hdigest : c.password = env.hash v) : Stored ok db c (some (c.id, v))
  | kept {old : Customer} (hold : db.customers.find? c.id = some old)
      (hdigest : c.password = old.password) : Stored ok db c none
  | repeated {old : Customer} (hold : db.customers.find? c.id = some old)
      (hv : old.password ≠ "") (hdigest : c.password = old.password) :
      Stored ok db c (some (c.id, old.password))

def Mailed (db : Database) (c : Customer) : Prop :=
  (exists old, db.customers.find? c.id = some old ∧ c.email = old.email) ∨
    c.email ≠ "" ∧ db.emailFree c.id c.email = true

/-- How a request ends. -/
inductive AccountEnds (ok : Env -> Prop) (t : AccountTask) (w : World)
    (out : Outcome) (w' : World) : Prop where
  | declined (hrows : w'.db.customers.rows = w.db.customers.rows)
      (hnone : submitted t out = none)
  | wrote {c : Customer} (htarget : t.Targets w.db c.id)
      (hfind : forall id, w'.db.customers.find? id =
        if id = c.id then some c else w.db.customers.find? id)
      (hbefore : forall old, w.db.customers.find? c.id = some old ->
        old.deletedAt = none)
      (hlive : c.deletedAt = none) (hmailed : Mailed w.db c)
      (hstored : Stored ok w.db c (submitted t out))

theorem given_eq_some {text : Option String} {s : String}
    (h : given text = some s) : text = some s ∧ s ≠ "" := by
  unfold given at h
  rcases Option.filter_eq_some_iff.mp h with ⟨htext, hfull⟩
  refine ⟨htext, ?_⟩
  intro hempty
  rw [hempty] at hfull
  cases hfull

section Walk

variable {ok : Env -> Prop} {w : World}

/-!
# Registration
-/

theorem registered {body : CustomerBody} {name email password : String}
    {now : Nat} {message : String} (env : Env) (henv : ok env)
    (hbody : body.password = some password) (hv : password ≠ "")
    (hmail : email ≠ "")
    (haccepts : ((reserved w (.customer name email (env.hash password))).view
      none false).accepts (.insertCustomer ⟨w.db.customers.seq, name, email,
        env.hash password, now, now, none⟩) = true) :
    AccountEnds ok (.register body) w
      (.response ⟨201, .messageCustomer message
        (Customer.idNameEmail ⟨w.db.customers.seq, name, email,
          env.hash password, now, now, none⟩)⟩)
      ((reserved w (.customer name email (env.hash password))).record none
        false (.insertCustomer ⟨w.db.customers.seq, name, email,
          env.hash password, now, now, none⟩)).1 := by
  have hnone : w.db.customers.reserve.find? w.db.customers.seq = none := by
    rw [Table.reserve_find?]
    exact Table.find?_seq _
  have hlt : w.db.customers.seq < w.db.customers.reserve.seq := by
    rw [Table.reserve_seq]
    omega
  refine .wrote (c := ⟨w.db.customers.seq, name, email, env.hash password,
    now, now, none⟩) (Table.find?_seq _) ?_ ?_ rfl (Or.inr ⟨hmail, ?_⟩) ?_
  · intro id
    exact Table.find?_insert_of_fresh hlt hnone id
  · intro old hold
    rw [Table.find?_seq] at hold
    cases hold
  · exact (Bool.and_eq_true_iff.mp haccepts).right
  · have hsub : submitted (.register body) (.response ⟨201,
        .messageCustomer message (Customer.idNameEmail ⟨w.db.customers.seq,
          name, email, env.hash password, now, now, none⟩)⟩) =
        some (w.db.customers.seq, password) := by
      unfold submitted AccountTask.body
      rw [hbody]
      rfl
    rw [hsub]
    refine .hashed henv hv ?_ rfl
    intro old hold
    rw [Table.find?_seq] at hold
    cases hold

theorem walk_register {body : CustomerBody}
    {E : String -> World × Tx -> Prop} :
    Action.wp (direct (fun _ => ok)) (registerCustomer body)
      (fun r s => AccountEnds ok (.register body) w (.response r) s.1) E
      (w, none) := by
  unfold registerCustomer
  refine (wp_tryCatch _ _ _).mpr ?_
  split
  · rename_i name email password hname hemail hpassword
    rcases given_eq_some hpassword with ⟨hbody, hv⟩
    rcases given_eq_some hemail with ⟨_, hmail⟩
    refine (wp_bind _ _ _).mpr (direct_query rfl (fun _ => ?_) ?_)
    · split
      · exact .declined rfl rfl
      · have hfull : ¬ password.isEmpty = true := by
          rw [String.isEmpty_iff]
          exact hv
        unfold Customer.create
        rw [if_neg hfull]
        refine (wp_bind _ _ _).mpr ((wp_bind _ _ _).mpr
          (direct_bcryptHash ?_ ?_))
        · intro env henv
          refine (wp_bind _ _ _).mpr (direct_insert ?_ ?_ ?_)
          · intro now _ haccepts
            exact registered env henv hbody hv hmail haccepts
          · intro now _ e
            exact .declined rfl rfl
          · intro _ e
            exact .declined rfl rfl
        · intro _ e
          exact .declined rfl rfl
    · intro _ e
      exact .declined rfl rfl
  · exact .declined rfl rfl

/-!
# Changes
-/

structure Full (body : CustomerBody) : Prop where
  email : forall e, body.email = some e -> e ≠ ""
  password : forall v, body.password = some v -> v ≠ ""

inductive Hooked (ok : Env -> Prop) (old : Customer) (body : CustomerBody) :
    CustomerPatch -> Prop where
  | same (hnone : (Customer.changed old body).password = none) :
      Hooked ok old body (Customer.changed old body)
  | hashed {v : String} {env : Env} (henv : ok env)
      (hsome : (Customer.changed old body).password = some v) :
      Hooked ok old body
        { Customer.changed old body with password := some (env.hash v) }

theorem Hooked.email {old : Customer} {body : CustomerBody}
    {patch : CustomerPatch} (h : Hooked ok old body patch) :
    patch.email = (Customer.changed old body).email := by
  cases h <;> rfl

theorem walk_beforeUpdate {old : Customer} {body : CustomerBody}
    {Q : CustomerPatch -> World × Tx -> Prop}
    {E : String -> World × Tx -> Prop}
    (hok : forall patch, Hooked ok old body patch -> Q patch (w, none))
    (hfail : forall e, E e (w, none)) :
    Action.wp (direct (fun _ => ok))
      (Customer.beforeUpdate (Customer.changed old body)) Q E (w, none) := by
  unfold Customer.beforeUpdate
  split
  · rename_i hnone
    exact hok _ (.same hnone)
  · rename_i v hsome
    refine (wp_bind _ _ _).mpr (direct_bcryptHash ?_ (fun _ => hfail))
    intro env henv
    exact hok _ (.hashed henv hsome)

theorem changed_password {old : Customer} {body : CustomerBody} :
    (Customer.changed old body).password =
      body.password.filter (fun v => decide (v ≠ old.password)) := rfl

theorem stored_of_hooked {old : Customer} {body : CustomerBody}
    {patch : CustomerPatch} {now : Nat}
    (hold : w.db.customers.find? old.id = some old) (hfull : Full body)
    (h : Hooked ok old body patch) :
    Stored ok w.db { old.patch patch with updatedAt := now }
      (body.password.map (fun v => (old.id, v))) := by
  cases h with
  | same hnone =>
      have hdigest : (old.patch (Customer.changed old body)).password =
          old.password := by
        unfold Customer.patch
        rw [hnone]
        rfl
      cases hbody : body.password with
      | none => exact .kept hold hdigest
      | some v =>
          rw [changed_password, hbody] at hnone
          have hsame : v = old.password := by
            by_contra hne
            simp [hne] at hnone
          subst hsame
          exact .repeated hold (hfull.password _ hbody) hdigest
  | @hashed v env henv hsome =>
      rw [changed_password] at hsome
      rcases Option.filter_eq_some_iff.mp hsome with ⟨hbody, hne⟩
      rw [hbody]
      refine .hashed henv (hfull.password v hbody) ?_ rfl
      intro r hr
      have hsame : r = old := by
        have hid : ({ old.patch { Customer.changed old body with
          password := some (env.hash v) } with updatedAt := now } :
            Customer).id = old.id := rfl
        rw [hid, hold] at hr
        exact (Option.some.inj hr).symm
      rw [hsame]
      exact fun heq => of_decide_eq_true hne heq.symm

theorem mailed_of_hooked {old : Customer} {body : CustomerBody}
    {patch : CustomerPatch} {now : Nat}
    (hold : w.db.customers.find? old.id = some old) (hfull : Full body)
    (h : Hooked ok old body patch)
    (haccepts : w.db.acceptsChange (.customerFields old.id patch) = true) :
    Mailed w.db { old.patch patch with updatedAt := now } := by
  cases hpatch : patch.email with
  | none =>
      refine Or.inl ⟨old, hold, ?_⟩
      unfold Customer.patch
      rw [hpatch]
      rfl
  | some e =>
      right
      have hemail : ({ old.patch patch with updatedAt := now } :
          Customer).email = e := by
        unfold Customer.patch
        rw [hpatch]
        rfl
      rw [hemail]
      have hchanged := h.email
      rw [hpatch] at hchanged
      have hbody : body.email = some e :=
        (Option.filter_eq_some_iff.mp hchanged.symm).left
      refine ⟨hfull.email e hbody, ?_⟩
      dsimp only [Database.acceptsChange] at haccepts
      rw [hpatch] at haccepts
      simp only [Bool.and_eq_true, Option.all_some] at haccepts
      exact haccepts.left.right.right

theorem submitted_saved (t : AccountTask) (message : String)
    (c : Customer) :
    submitted t (.response ⟨200, .messageCustomer message c.toJSON⟩) =
      t.body.password.map (fun v => (c.id, v)) := rfl

theorem live_of_find? {id : Int} {c : Customer}
    (hc : w.db.customers.find? id = some c) (hlive : c.deletedAt = none)
    (old : Customer) (hold : w.db.customers.find? id = some old) :
    old.deletedAt = none := by
  rw [hc] at hold
  cases hold
  exact hlive

theorem ends_unchanged {t : AccountTask} {message : String} {old : Customer}
    (htarget : t.Targets w.db old.id)
    (hold : w.db.customers.find? old.id = some old)
    (hlive : old.deletedAt = none) (hfull : Full t.body)
    (hsame : Customer.changed old t.body = {}) :
    AccountEnds ok t w
      (.response ⟨200, .messageCustomer message old.toJSON⟩) w := by
  refine .wrote (c := old) htarget ?_ (live_of_find? hold hlive) hlive
    (Or.inl ⟨old, hold, rfl⟩) ?_
  · intro id
    split
    · rename_i hid
      rw [hid]
      exact hold
    · rfl
  · rw [submitted_saved]
    have hnone : (Customer.changed old t.body).password = none := by
      rw [hsame]
    cases hbody : t.body.password with
    | none => exact .kept hold rfl
    | some v =>
        rw [changed_password, hbody] at hnone
        have heq : v = old.password := by
          by_contra hne
          simp [hne] at hnone
        subst heq
        exact .repeated hold (hfull.password _ hbody) rfl

theorem walk_customerUpdate {t : AccountTask} (message : String)
    {old : Customer} (htarget : t.Targets w.db old.id)
    (hold : w.db.customers.find? old.id = some old)
    (hlive : old.deletedAt = none) (hfull : Full t.body) :
    Action.wp (direct (fun _ => ok)) (Customer.update old t.body)
      (fun c s => AccountEnds ok t w
        (.response ⟨200, .messageCustomer message c.toJSON⟩) s.1)
      (fun _ s => s.1 = w) (w, none) := by
  unfold Customer.update
  split
  · rename_i hsame
    exact ends_unchanged htarget hold hlive hfull hsame
  · refine (wp_bind _ _ _).mpr (walk_beforeUpdate ?_ (fun _ => rfl))
    intro patch hpatch
    refine (wp_bind _ _ _).mpr (direct_update ?_ (fun _ _ => rfl)
      (fun _ _ => rfl))
    intro now _ haccepts
    refine .wrote (c := { old.patch patch with updatedAt := now }) htarget ?_
      (live_of_find? hold hlive) hlive
      (mailed_of_hooked hold hfull hpatch haccepts) ?_
    · intro id
      refine (Database.find?_update_customerFields w.db old.id patch now
        id).trans ?_
      have hid : ({ old.patch patch with updatedAt := now } : Customer).id =
          old.id := rfl
      rw [hid]
      split
      · rename_i heq
        rw [heq, hold]
        rfl
      · rfl
    · rw [submitted_saved]
      exact stored_of_hooked hold hfull hpatch

theorem walk_saveCustomer {t : AccountTask} {message text : String}
    {customerId : Int} {E : String -> World × Tx -> Prop}
    (htarget : forall id, pgInteger? text = some id -> t.Targets w.db id)
    (hfull : Full t.body) :
    Action.wp (direct (fun _ => ok))
      (saveCustomer message customerId text t.body)
      (fun r s => AccountEnds ok t w (.response r) s.1) E (w, none) := by
  unfold saveCustomer ownData
  split
  · exact .declined rfl rfl
  · refine (wp_tryCatch _ _ _).mpr (wp_integerParam
      (fun _ _ => .declined rfl rfl) (fun id htext => ?_))
    refine (wp_bind _ _ _).mpr (direct_query rfl (fun _ => ?_)
      (fun _ _ => .declined rfl rfl))
    have hanswer : Query.eval (w.view none false)
        (.customerByPk id true) = w.db.customer? id true := rfl
    rw [hanswer]
    cases hfound : w.db.customer? id true with
    | none => exact .declined rfl rfl
    | some old =>
        rcases Option.filter_eq_some_iff.mp hfound with ⟨hfind, hkeep⟩
        have hlive : old.deletedAt = none := by
          cases hdel : old.deletedAt with
          | none => rfl
          | some at_ =>
              rw [hdel] at hkeep
              cases hkeep
        rw [← Database.customer?_key hfound] at hfind htext
        refine (wp_bind _ _ _).mpr (wp_mono ?_ ?_
          (walk_customerUpdate message (htarget _ htext) hfind hlive hfull))
        · intro c s hends
          exact hends
        · intro e s hsame
          refine .declined ?_ rfl
          rw [hsame]

/-!
# Requests
-/

theorem full_of_updateRules {body : CustomerBody} {text : String}
    {emailOk : Bool} (hempty : body.email = some "" -> emailOk = false)
    (h : idRule text "Invalid customer ID" ++
      updateCustomerRules body emailOk = []) : Full body := by
  have hrules := ruleErrors_eq_nil_iff.mp (List.append_eq_nil_iff.mp h).right
  constructor
  · intro e he hno
    subst hno
    have hrule : (body.email.isNone || emailOk) = true :=
      hrules (body.email.isNone || emailOk, "email",
        "Please provide a valid email address.") (by simp)
    rw [he, hempty he] at hrule
    cases hrule
  · intro v hv hno
    subst hno
    have hrule : body.password.all (fun s => decide (6 <= s.length)) = true :=
      hrules (body.password.all (fun s => decide (6 <= s.length)),
        "password", "Password must be at least 6 characters.") (by simp)
    rw [hv] at hrule
    cases hrule

theorem full_of_fullUpdateRules {body : CustomerBody} {text : String}
    {emailOk : Bool}
    (h : idRule text "Invalid customer ID" ++
      fullUpdateCustomerRules body emailOk = []) : Full body := by
  have hrules := ruleErrors_eq_nil_iff.mp (List.append_eq_nil_iff.mp h).right
  constructor
  · intro e he hno
    subst hno
    have hrule : body.email.any (fun s => !s.isEmpty) = true :=
      hrules (body.email.any (fun s => !s.isEmpty), "email",
        "Email is required.") (by simp)
    rw [he] at hrule
    cases hrule
  · intro v hv hno
    subst hno
    have hrule : body.password.any (fun s => !s.isEmpty) = true :=
      hrules (body.password.any (fun s => !s.isEmpty), "password",
        "Password is required.") (by simp)
    rw [hv] at hrule
    cases hrule

theorem walk_emailVerdict {body : CustomerBody}
    {Q : Bool -> World × Tx -> Prop} {E : String -> World × Tx -> Prop}
    (hempty : forall env, ok env -> env.isEmail "" = false)
    (hok : forall emailOk, (body.email = some "" -> emailOk = false) ->
      Q emailOk (w, none)) :
    Action.wp (direct (fun _ => ok)) (emailVerdict body) Q E (w, none) := by
  unfold emailVerdict
  cases hemail : body.email with
  | none =>
      refine hok true ?_
      intro hno
      rw [hemail] at hno
      cases hno
  | some text =>
      refine direct_isEmail ?_
      intro env henv
      refine hok _ ?_
      intro hno
      rw [hemail] at hno
      cases hno
      exact hempty env henv

theorem walk_change {t : AccountTask} {message text : String} {token : Token}
    {errors : List (String × String)} {E : String -> World × Tx -> Prop}
    (htarget : forall id, pgInteger? text = some id -> t.Targets w.db id)
    (hfull : errors = [] -> Full t.body) :
    Action.wp (direct (fun _ => ok))
      (validateRequest errors (authenticateCustomer token (fun c =>
        saveCustomer message c.id text t.body)))
      (fun r s => AccountEnds ok t w (.response r) s.1) E (w, none) := by
  unfold validateRequest
  split
  · rename_i hnone
    refine direct_authenticate ?_ ?_
    · intro r hstatus _
      refine .declined rfl ?_
      rcases r with ⟨status, body⟩
      cases hstatus
      cases body <;> rfl
    · intro c _
      exact walk_saveCustomer htarget (hfull hnone)
  · exact .declined rfl rfl

theorem accountEnds_of_executes {t : AccountTask} {w' : World}
    {out : Outcome} (hempty : forall env, ok env -> env.isEmail "" = false)
    (h : Executes ok w (.request t.request) out w') :
    AccountEnds ok t w out w' := by
  have hin : ExecutesIn (fun _ => ok) w (.request t.request) out w' := h
  have hwp : (Task.request t.request).code.wp (direct (fun _ => ok))
      (fun out s => AccountEnds ok t w out s.1) (w, none) := by
    refine wp_settle.mpr ?_
    cases t with
    | register body => exact walk_register
    | update token text body =>
        refine (wp_bind _ _ _).mpr (walk_emailVerdict hempty ?_)
        intro emailOk _
        exact walk_change (t := .update token text body) (fun _ h => h)
          full_of_fullUpdateRules
    | patch token text body =>
        refine (wp_bind _ _ _).mpr (walk_emailVerdict hempty ?_)
        intro emailOk hverdict
        exact walk_change (t := .patch token text body) (fun _ h => h)
          (full_of_updateRules hverdict)
  rcases executes_of_wp hwp hin with ⟨_, hend⟩
  exact hend

end Walk

end Accounts
end ExpressEcommerce
