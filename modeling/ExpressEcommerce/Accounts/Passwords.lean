import ExpressEcommerce.Accounts.Credentials
import Mathlib.Logic.Function.Basic
import Mathlib.Logic.Relation

/-!
# Logging in with the last password

Along a run the passwords that were submitted with success are remembered next
to the store.  The login accepts the remembered password and no other, as long
as nobody submits the stored hash itself: the change detection of Sequelize
takes it for no change, and the hook does not hash it.
-/

namespace ExpressEcommerce
namespace Accounts

open Foundation
open Store
open Service
open Orders
open Foundation.Action

/-- A salted hash that only its own password opens. -/
structure Bcrypt where
  hash : Nat -> String -> String
  compare : String -> String -> Bool
  opens : forall salt password text,
    compare text (hash salt password) = true <-> text = password

/-- The environment hashes and compares with `b`; the e-mail check of
validator.js does not accept the empty text. -/
structure Bcrypt.Serves (b : Bcrypt) (env : Env) : Prop where
  hash : exists salt, env.hash = b.hash salt
  compare : env.compare = b.compare
  isEmail : env.isEmail "" = false

def Bcrypt.Calm (b : Bcrypt) (env : Env) : Prop :=
  Healthy env ∧ b.Serves env

def succeeds : Outcome -> Bool
  | .response r => decide (r.status = 200)
  | _ => false

def login (email password : String) : Task :=
  .request (.loginCustomer { email := some email, password := some password })

/-- The passwords that were submitted last, by customer. -/
abbrev History : Type := Int -> Option String

def remember (last : History) : Option (Int × String) -> History
  | none => last
  | some (id, v) => Function.update last id (some v)

/-- Every live customer logs in with the last password and with no other. -/
def LoginFollows (b : Bcrypt) (w : World) (last : History) : Prop :=
  forall c text out w', w.db.customers.find? c.id = some c ->
    c.deletedAt = none -> Executes b.Calm w (login c.email text) out w' ->
    (succeeds out = true <-> last c.id = some text)

/-- The request does not submit the stored hash of its customer, unless that
hash happens to open itself. -/
def Unstored (b : Bcrypt) (db : Database) (t : AccountTask) : Prop :=
  forall c, t.Targets db c.id -> db.customers.find? c.id = some c ->
    c.deletedAt = none -> t.body.password = some c.password ->
    b.compare c.password c.password = true

/-!
# Addresses
-/

structure Mails (db : Database) : Prop where
  full : forall c, db.customers.find? c.id = some c -> c.email ≠ ""
  unique : forall a c, db.customers.find? a.id = some a ->
    db.customers.find? c.id = some c -> a.email = c.email -> a = c

theorem find?_of_rows {db db' : Database}
    (h : db'.customers.rows = db.customers.rows) (id : Int) :
    db'.customers.find? id = db.customers.find? id := by
  unfold Table.find?
  rw [h]

theorem eq_of_emailFree {db : Database} {id : Int} {email : String}
    {r : Customer} (h : db.emailFree id email = true)
    (hr : db.customers.find? r.id = some r) (hemail : r.email = email) :
    r.id = id := by
  have hmem := (Table.find?_eq_some_iff.mp hr).left
  have hrow := List.all_eq_true.mp h r hmem
  rcases of_decide_eq_true hrow with hne | hid
  · exact absurd hemail hne
  · exact hid

theorem owner_of_mailed {db : Database} {c r : Customer} (hmails : Mails db)
    (hmailed : Mailed db c) (hr : db.customers.find? r.id = some r)
    (hemail : r.email = c.email) : r.id = c.id := by
  rcases hmailed with ⟨old, hold, hsame⟩ | ⟨_, hfree⟩
  · have hid : old.id = c.id := (Table.find?_eq_some_iff.mp hold).right
    rw [← hid] at hold ⊢
    rw [hmails.unique r old hr hold (hemail.trans hsame)]
  · exact eq_of_emailFree hfree hr hemail

theorem mails_wrote {db db' : Database} {c : Customer} (h : Mails db)
    (hmailed : Mailed db c)
    (hfind : forall id, db'.customers.find? id =
      if id = c.id then some c else db.customers.find? id) : Mails db' := by
  have hrow : forall r, db'.customers.find? r.id = some r ->
      r = c ∨ r.id ≠ c.id ∧ db.customers.find? r.id = some r := by
    intro r hr
    rw [hfind] at hr
    split at hr
    · exact Or.inl (Option.some.inj hr).symm
    · exact Or.inr ⟨by assumption, hr⟩
  constructor
  · intro r hr
    rcases hrow r hr with rfl | ⟨_, hold⟩
    · rcases hmailed with ⟨old, hold, hsame⟩ | ⟨hfull, _⟩
      · have hid : old.id = r.id := (Table.find?_eq_some_iff.mp hold).right
        rw [← hid] at hold
        rw [hsame]
        exact h.full old hold
      · exact hfull
    · exact h.full r hold
  · intro x y hx hy hemail
    rcases hrow x hx with rfl | ⟨hxne, hxold⟩
    · rcases hrow y hy with rfl | ⟨hyne, hyold⟩
      · rfl
      · exact absurd (owner_of_mailed h hmailed hyold hemail.symm) hyne
    · rcases hrow y hy with rfl | ⟨_, hyold⟩
      · exact absurd (owner_of_mailed h hmailed hxold hemail) hxne
      · exact h.unique x y hxold hyold hemail

/-!
# The login
-/

theorem find?_email {db : Database} {c : Customer} (h : Mails db)
    (hc : db.customers.find? c.id = some c) :
    db.customers.rows.find? (fun r => decide (r.email = c.email)) =
      some c := by
  cases hfind : db.customers.rows.find?
      (fun r => decide (r.email = c.email)) with
  | none =>
      have hmem := (Table.find?_eq_some_iff.mp hc).left
      have hno := List.find?_eq_none.mp hfind c hmem
      exact absurd (decide_eq_true rfl) hno
  | some r =>
      have hemail : r.email = c.email := by
        simpa using List.find?_some hfind
      have hr := Table.find?_of_mem (List.mem_of_find?_eq_some hfind)
      rw [h.unique r c hr hc hemail]

theorem given_some {s : String} (h : s ≠ "") : given (some s) = some s := by
  unfold given
  refine Option.filter_eq_some_iff.mpr ⟨rfl, ?_⟩
  cases hempty : s.isEmpty with
  | true => exact absurd (String.isEmpty_iff.mp hempty) h
  | false => rfl

theorem not_mayFail_calm {b : Bcrypt} : ¬ MayFail b.Calm := by
  intro h
  rcases h with ⟨env, hcalm, hfault⟩
  exact not_mayFail_healthy ⟨env, hcalm.left, hfault⟩

theorem walk_login {b : Bcrypt} {w : World} {c : Customer} {text : String}
    {E : String -> World × Tx -> Prop} (hmails : Mails w.db)
    (hc : w.db.customers.find? c.id = some c) (hlive : c.deletedAt = none) :
    Action.wp (direct (fun _ => b.Calm))
      (loginCustomer { email := some c.email, password := some text })
      (fun r _ => succeeds (.response r) = true <->
        text ≠ "" ∧ b.compare text c.password = true) E (w, none) := by
  unfold loginCustomer
  refine (wp_tryCatch _ _ _).mpr ?_
  dsimp only
  rw [given_some (hmails.full c hc)]
  by_cases htext : text = ""
  · subst htext
    constructor
    · intro hno
      cases hno
    · intro hno
      exact absurd rfl hno.left
  · rw [given_some htext]
    refine (wp_bind _ _ _).mpr (direct_query rfl (fun _ => ?_)
      (fun hmay => absurd hmay not_mayFail_calm))
    have hanswer : Query.eval (w.view none false)
        (.customerByEmail c.email true) = some c := by
      show (w.db.customers.rows.find? _).filter _ = some c
      rw [find?_email hmails hc]
      refine Option.filter_eq_some_iff.mpr ⟨rfl, ?_⟩
      rw [hlive]
      rfl
    rw [hanswer]
    refine (wp_bind _ _ _).mpr (direct_bcryptCompare ?_
      (fun hmay => absurd hmay not_mayFail_calm))
    intro env henv
    rw [henv.right.compare]
    cases hmatch : b.compare text c.password with
    | true => exact ⟨fun _ => ⟨htext, rfl⟩, fun _ => rfl⟩
    | false =>
        constructor
        · intro hno
          cases hno
        · intro hno
          cases hno.right

theorem login_iff {b : Bcrypt} {w w' : World} {c : Customer} {text : String}
    {out : Outcome} (hmails : Mails w.db)
    (hc : w.db.customers.find? c.id = some c) (hlive : c.deletedAt = none)
    (h : Executes b.Calm w (login c.email text) out w') :
    succeeds out = true <->
      text ≠ "" ∧ b.compare text c.password = true := by
  have hin : ExecutesIn (fun _ => b.Calm) w (login c.email text) out w' := h
  have hwp : (login c.email text).code.wp (direct (fun _ => b.Calm))
      (fun out _ => succeeds out = true <->
        text ≠ "" ∧ b.compare text c.password = true) (w, none) := by
    exact wp_settle.mpr (walk_login hmails hc hlive)
  rcases executes_of_wp hwp hin with ⟨_, hend⟩
  exact hend

/-!
# Remembered passwords
-/

/-- The stored hash is opened by the remembered password and no other. -/
def Remembers (b : Bcrypt) (db : Database) (last : History) : Prop :=
  forall c, db.customers.find? c.id = some c ->
    exists v, last c.id = some v ∧ v ≠ "" ∧
      forall text, b.compare text c.password = true <-> text = v

theorem loginFollows_of_remembers {b : Bcrypt} {w : World} {last : History}
    (hmails : Mails w.db) (h : Remembers b w.db last) :
    LoginFollows b w last := by
  intro c text out w' hc hlive hexec
  rcases h c hc with ⟨v, hlast, hv, hopens⟩
  rw [login_iff hmails hc hlive hexec, hopens text, hlast]
  constructor
  · intro hboth
    rw [hboth.right]
  · intro hsame
    cases hsame
    exact ⟨hv, rfl⟩

section Step

variable {b : Bcrypt} {w w' : World} {last : History} {t : AccountTask}
  {out : Outcome}

theorem mails_step (hmails : Mails w.db)
    (h : AccountEnds b.Serves t w out w') : Mails w'.db := by
  cases h with
  | declined hrows _ =>
      have hfind := find?_of_rows hrows
      constructor
      · intro c hc
        rw [hfind] at hc
        exact hmails.full c hc
      · intro x y hx hy
        rw [hfind] at hx hy
        exact hmails.unique x y hx hy
  | wrote _ hfind _ _ hmailed _ => exact mails_wrote hmails hmailed hfind

theorem submitted_eq_some {id : Int} {v : String}
    (h : submitted t out = some (id, v)) : t.body.password = some v := by
  unfold submitted at h
  split at h
  · split at h
    · rcases Option.map_eq_some_iff.mp h with ⟨_, hbody, heq⟩
      cases heq
      exact hbody
    · cases h
  · cases h

theorem remembers_wrote {c : Customer} {v : String} (hold : Remembers b w.db last)
    (hfind : forall id, w'.db.customers.find? id =
      if id = c.id then some c else w.db.customers.find? id)
    {entry : Option (Int × String)}
    (hothers : forall id, id ≠ c.id -> remember last entry id = last id)
    (hlast : remember last entry c.id = some v) (hv : v ≠ "")
    (hopens : forall text, b.compare text c.password = true <-> text = v) :
    Remembers b w'.db (remember last entry) := by
  intro r hr
  rw [hfind] at hr
  split at hr
  · cases hr
    exact ⟨v, hlast, hv, hopens⟩
  · rename_i hne
    rw [hothers r.id hne]
    exact hold r hr

theorem remember_self (id : Int) (v : String) :
    remember last (some (id, v)) id = some v :=
  Function.update_self _ _ _

theorem remember_other {id other : Int} (v : String) (h : other ≠ id) :
    remember last (some (id, v)) other = last other :=
  Function.update_of_ne h _ _

theorem remembers_step (hold : Remembers b w.db last)
    (hunstored : Unstored b w.db t) (h : AccountEnds b.Serves t w out w') :
    Remembers b w'.db (remember last (submitted t out)) := by
  cases h with
  | declined hrows hnone =>
      rw [hnone]
      intro c hc
      rw [find?_of_rows hrows] at hc
      exact hold c hc
  | @wrote c htarget hfind hbefore _ _ hstored =>
      generalize hentry : submitted t out = entry at hstored
      cases hstored with
      | @hashed v env henv hv _ hdigest =>
          rcases henv.hash with ⟨salt, hhash⟩
          refine remembers_wrote hold hfind ?_ (remember_self c.id v) hv ?_
          · intro id hne
            exact remember_other v hne
          · intro text
            rw [hdigest, hhash]
            exact b.opens salt v text
      | @kept old hrow hdigest =>
          have hid : old.id = c.id := (Table.find?_eq_some_iff.mp hrow).right
          rw [← hid] at hrow
          rcases hold old hrow with ⟨v, hlast, hv, hopens⟩
          refine remembers_wrote hold hfind (fun _ _ => rfl) ?_ hv ?_
          · rw [← hid]
            exact hlast
          · rw [hdigest]
            exact hopens
      | @repeated old hrow hv hdigest =>
          have hid : old.id = c.id := (Table.find?_eq_some_iff.mp hrow).right
          have hlive := hbefore old hrow
          rw [← hid] at hrow htarget
          have hself := hunstored old htarget hrow hlive
            (submitted_eq_some hentry)
          rcases hold old hrow with ⟨v, _, hv', hopens⟩
          have hsame : old.password = v := (hopens old.password).mp hself
          refine remembers_wrote hold hfind ?_
            (remember_self c.id old.password) hv ?_
          · intro id hne
            exact remember_other old.password hne
          · rw [hdigest, hsame]
            rw [hsame] at hopens
            exact hopens

end Step

/-!
# Runs
-/

def AccountStep (b : Bcrypt) (t : AccountTask) (out : Outcome)
    (s s' : World × History) : Prop :=
  Executes b.Serves s.1 (.request t.request) out s'.1 ∧
    s'.2 = remember s.2 (submitted t out)

/-- Runs in which no request submits the stored hash. -/
def AccountRun (b : Bcrypt) : World × History -> World × History -> Prop :=
  Relation.ReflTransGen (fun s s' => exists t out,
    Unstored b s.1.db t ∧ AccountStep b t out s s')

structure Followed (b : Bcrypt) (s : World × History) : Prop where
  mails : Mails s.1.db
  remembers : Remembers b s.1.db s.2

section Runs

variable {b : Bcrypt} {s s' : World × History} {t : AccountTask}
  {out : Outcome}

theorem accountEnds_of_step (h : AccountStep b t out s s') :
    AccountEnds b.Serves t s.1 out s'.1 :=
  accountEnds_of_executes (fun _ henv => henv.isEmail) h.left

theorem followed_step (hold : Followed b s) (hunstored : Unstored b s.1.db t)
    (h : AccountStep b t out s s') : Followed b s' := by
  have hends := accountEnds_of_step h
  constructor
  · exact mails_step hold.mails hends
  · rw [h.right]
    exact remembers_step hold.remembers hunstored hends

theorem followed_run (hstart : Followed b s) (hrun : AccountRun b s s') :
    Followed b s' := by
  refine invariant_of_steps ?_ hstart hrun
  rintro s s' hmid ⟨t, out, hunstored, hlast⟩
  exact followed_step hmid hunstored hlast

theorem isEmail_empty : ({} : Env).isEmail "" = false := by
  simp

theorem exists_login (b : Bcrypt) (w : World) (email text : String) :
    exists out w', Executes b.Calm w (login email text) out w' := by
  have hcalm : b.Calm { hash := b.hash 0, compare := b.compare } := by
    constructor
    · rfl
    · exact ⟨⟨0, rfl⟩, rfl, isEmail_empty⟩
  exact executesIn_exists (fun _ => ⟨_, hcalm⟩) (login email text) w

theorem target_unique {db : Database} {x y : Int} {c : Customer}
    (hx : t.Targets db x) (hy : t.Targets db y)
    (hc : db.customers.find? x = some c) : x = y := by
  cases t with
  | register body =>
      have hnone : db.customers.find? x = none := hx
      rw [hc] at hnone
      cases hnone
  | update token text body => exact Option.some.inj (hx.symm.trans hy)
  | patch token text body => exact Option.some.inj (hx.symm.trans hy)

theorem unstored_of_follows (hold : Followed b s)
    (h : AccountStep b t out s s') (hsome : (submitted t out).isSome = true)
    (hfollows : LoginFollows b s'.1 s'.2) : Unstored b s.1.db t := by
  intro c htarget hc hlive hbody
  have hends := accountEnds_of_step h
  have hmails' := mails_step hold.mails hends
  cases hends with
  | declined _ hnone =>
      rw [hnone] at hsome
      cases hsome
  | @wrote r hrtarget hfind _ hrlive _ hstored =>
      have hid := target_unique htarget hrtarget hc
      generalize hentry : submitted t out = entry at hstored
      cases hstored with
      | @hashed v env _ _ hnew _ =>
          have hv := submitted_eq_some hentry
          rw [hbody] at hv
          rw [hid] at hc
          exact absurd (Option.some.inj hv) (hnew c hc)
      | kept _ _ =>
          rw [hentry] at hsome
          cases hsome
      | @repeated old hrow _ hdigest =>
          rw [← hid, hc] at hrow
          cases hrow
          rcases exists_login b s'.1 r.email c.password with ⟨o, v, hlogin⟩
          have hself : s'.1.db.customers.find? r.id = some r := by
            rw [hfind, if_pos rfl]
          have hlast : s'.2 r.id = some c.password := by
            rw [h.right, hentry]
            exact remember_self r.id c.password
          have hok := (hfollows r c.password o v hself hrlive hlogin).mpr hlast
          rw [login_iff hmails' hself hrlive hlogin, hdigest] at hok
          exact hok.right

end Runs

/-- Along runs that never submit a stored hash the login follows the last
password, and one more password that is taken keeps it so exactly when it is
not the stored hash either. -/
theorem login_follows_iff_unstored {b : Bcrypt} {start w : World}
    {first last : History} (hstart : Followed b (start, first))
    (hrun : AccountRun b (start, first) (w, last)) :
    LoginFollows b w last ∧
      forall t out w', Executes b.Serves w (.request t.request) out w' ->
        (submitted t out).isSome = true ->
        (LoginFollows b w' (remember last (submitted t out)) <->
          Unstored b w.db t) := by
  have hold := followed_run hstart hrun
  constructor
  · exact loginFollows_of_remembers hold.mails hold.remembers
  · intro t out w' h hsome
    have hstep : AccountStep b t out (w, last)
        (w', remember last (submitted t out)) := ⟨h, rfl⟩
    constructor
    · exact unstored_of_follows hold hstep hsome
    · intro hunstored
      have hnew := followed_step hold hunstored hstep
      exact loginFollows_of_remembers hnew.mails hnew.remembers

/-- The hash function of the environment where nothing fails. -/
def plain : Bcrypt where
  hash := fun _ password => "bcrypt:" ++ password
  compare := fun password digest => decide (digest = "bcrypt:" ++ password)
  opens := by
    intro _ password text
    simp [eq_comm]

/-- That environment, with the simplest check of addresses. -/
def counter : Env :=
  { isEmail := fun text => decide (text ≠ "") }

theorem plain_calm : plain.Calm counter := by
  constructor
  · rfl
  · exact ⟨⟨0, rfl⟩, rfl, rfl⟩

/-- What a request answers and leaves behind in this environment. -/
def submit (w : World) (t : AccountTask) : Outcome × World :=
  let final := (Task.request t.request).code.eval (exec counter) (w, none)
  (final.1, final.2.1)

theorem executes_submit (w : World) (t : AccountTask) :
    Executes plain.Serves w (.request t.request) (submit w t).1
      (submit w t).2 :=
  executes_eval plain_calm.right (.request t.request) w

theorem plain_step (w : World) (last : History) (t : AccountTask) :
    AccountStep plain t (submit w t).1 (w, last)
      ((submit w t).2, remember last (submitted t (submit w t).1)) :=
  ⟨executes_submit w t, rfl⟩

theorem followed_of_no_customers {b : Bcrypt} {w : World} (last : History)
    (h : w.db.customers.rows = []) : Followed b (w, last) := by
  have hnone : forall id c, w.db.customers.find? id ≠ some c := by
    intro id c hc
    rw [Table.find?_eq_some_iff, h] at hc
    cases hc.left
  constructor
  · constructor
    · intro c hc
      exact absurd hc (hnone c.id c)
    · intro a c ha _ _
      exact absurd ha (hnone a.id a)
  · intro c hc
    exact absurd hc (hnone c.id c)

def opening : World where
  db := Database.empty
  queue := []
  cache := []
  index := []

def signUp : AccountTask :=
  .register { name := some "buyer", email := some "buyer@shop",
              password := some "secret1" }

def setPassword (text : String) : AccountTask :=
  .patch (.valid 1) "1" { password := some text }

/-- The shop with one customer. -/
def signedUp : World :=
  (submit opening signUp).2

/-- The run: a registration with `secret1`, then the hash of it. -/
theorem submitted_hash_not_accepted :
    let stored := "bcrypt:secret1"
    let final := submit signedUp (setPassword stored)
    let last := remember (remember (fun _ => none)
      (submitted signUp (submit opening signUp).1))
      (submitted (setPassword stored) final.1)
    Followed plain (opening, fun _ => none) ∧
      Executes plain.Serves opening (.request signUp.request)
        (submit opening signUp).1 signedUp ∧
      Executes plain.Serves signedUp (.request (setPassword stored).request)
        final.1 final.2 ∧
      succeeds final.1 = true ∧ last 1 = some stored ∧
      ((login "buyer@shop" stored).code.eval (exec counter)
        (final.2, none)).1 =
          .response ⟨400, .error "Invalid password"⟩ ∧
      succeeds ((login "buyer@shop" "secret1").code.eval (exec counter)
        (final.2, none)).1 = true := by
  intro stored final last
  refine ⟨followed_of_no_customers _ rfl, executes_submit _ _,
    executes_submit _ _, ?_, ?_, ?_, ?_⟩
  · decide +kernel
  · decide +kernel
  · decide +kernel
  · decide +kernel

/-- A password that is not the hash is the one to log in with. -/
theorem submitted_password_accepted :
    let start : World × History := (opening, fun _ => none)
    let first := remember start.2 (submitted signUp (submit opening signUp).1)
    let final := submit signedUp (setPassword "secret2")
    (submitted (setPassword "secret2") final.1).isSome = true ∧
      Unstored plain signedUp.db (setPassword "secret2") ∧
      LoginFollows plain final.2
        (remember first (submitted (setPassword "secret2") final.1)) := by
  intro start first final
  have hsome : (submitted (setPassword "secret2") final.1).isSome = true := by
    decide +kernel
  have hunstored : Unstored plain signedUp.db (setPassword "secret2") := by
    intro c htarget hc _ hbody
    have hid : c.id = 1 := (Option.some.inj htarget).symm
    rw [hid] at hc
    have hrow : signedUp.db.customers.find? 1 = some
        ⟨1, "buyer", "buyer@shop", "bcrypt:secret1", 0, 0, none⟩ := by
      decide +kernel
    rw [hrow] at hc
    cases hc
    exact absurd (Option.some.inj hbody) (by decide)
  have hrun : AccountRun plain start (signedUp, first) := by
    refine Relation.ReflTransGen.single
      ⟨signUp, (submit opening signUp).1, ?_, plain_step _ _ _⟩
    intro c _ hc
    cases hc
  refine ⟨hsome, hunstored, ?_⟩
  exact ((login_follows_iff_unstored (followed_of_no_customers _ rfl)
    hrun).right _ _ _ (executes_submit _ _) hsome).mpr hunstored

end Accounts
end ExpressEcommerce
