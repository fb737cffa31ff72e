import ExpressEcommerce.Foundation.History
import ExpressEcommerce.Service.Execution

/-!
# What a login has checked

Before `loginCustomer` answers with a token it has read a live customer with the
submitted address, and bcrypt has accepted the submitted password for the hash
in that row.
-/

namespace ExpressEcommerce
namespace Sessions

open Foundation
open Store
open Service
open Foundation.Action

/-- How far a login has come.  Other tasks are not followed. -/
inductive Login where
  | none
  | asking
  | read (email : String) (c : Customer)
  | matched (email password : String) (c : Customer)

namespace Login

def may : Login -> Cmd -> Prop
  | asking, .query inTx (.customerByEmail _ paranoid) =>
      inTx = false ∧ paranoid = true
  | read _ c, .bcryptCompare _ digest => digest = c.password
  | _, _ => True

def next : Login -> (c : Cmd) -> service.Reply c -> Login -> Prop
  | asking, .query _ (.customerByEmail email _), .ok (some c), g =>
      g = read email c
  | read email c, .bcryptCompare password _, .ok true, g =>
      g = matched email password c
  | g, _, _, g' => g' = g

end Login

def logins : Protocol service Login where
  may := Login.may
  next := Login.next

def loginOf : Task -> Login
  | .request (.loginCustomer _) => .asking
  | _ => .none

def Checked : Task -> Outcome -> Login -> Prop
  | .request (.loginCustomer body), out, g =>
      forall status message id email,
        out = .response ⟨status, .token message id email⟩ ->
        exists asked password c, g = .matched asked password c ∧
          c.id = id ∧ c.email = email ∧ given body.email = some asked ∧
          given body.password = some password
  | _, _, _ => True

/-!
# The programs
-/

theorem wp_unfollowed (p : Prog service Outcome) :
    p.wp logins (fun _ _ => True) .none := by
  induction p with
  | ret out => trivial
  | call c k ih =>
      refine ⟨trivial, ?_⟩
      rintro r _ rfl
      exact ih r

theorem wp_loginCustomer (body : CustomerBody) :
    wp logins (loginCustomer body)
      (fun r g => Checked (.request (.loginCustomer body)) (.response r) g)
      (fun _ _ => False) .asking := by
  have hno : forall {status : Nat} {text : String} {g : Login},
      Checked (.request (.loginCustomer body))
        (.response ⟨status, .error text⟩) g := by
    rintro status text g _ _ _ _ ⟨⟩
  refine (wp_tryCatch _ _ _).mpr ?_
  cases hemail : given body.email with
  | none => exact hno
  | some email =>
      cases hpassword : given body.password with
      | none => exact hno
      | some password =>
          refine (wp_bind _ _ _).mpr (wp_command ⟨rfl, rfl⟩ ?_ ?_)
          · rintro (_ | c) _ rfl
            · exact hno
            · refine (wp_bind _ _ _).mpr (wp_command rfl ?_ ?_)
              · rintro (_ | _) _ rfl
                · exact hno
                · rintro _ _ _ _ ⟨⟩
                  exact ⟨email, password, c, rfl, rfl, rfl, hemail, hpassword⟩
              · rintro e _ rfl
                exact hno
          · rintro e _ rfl
            exact hno

theorem wp_logins (task : Task) :
    task.code.wp logins (Checked task) (loginOf task) := by
  have hother : (forall out g, Checked task out g) -> loginOf task = .none ->
      task.code.wp logins (Checked task) (loginOf task) := by
    intro hchecked hnone
    rw [hnone]
    exact Prog.wp_mono (fun out g _ => hchecked out g) _ (wp_unfollowed _)
  cases task with
  | request req =>
      cases req with
      | loginCustomer body =>
          exact wp_settle.mpr (wp_mono (fun _ _ h => h)
            (fun _ _ h => h.elim) (wp_loginCustomer body))
      | _ => exact hother (fun _ _ => trivial) rfl
  | _ => exact hother (fun _ _ => trivial) rfl

/-!
# Runs
-/

def Registered (email : String) (c : Customer) (w : World) : Prop :=
  c ∈ w.db.customers.rows ∧ c.email = email ∧ c.deletedAt = none

/-- bcrypt may accept the password for the hash. -/
def Opens (ok : Env -> Prop) (password digest : String) : Prop :=
  exists env, ok env ∧ env.compare password digest = true

def LoginSound (ok : Env -> Prop) (s : World × List World) : Login -> Prop
  | .read email c => Once (Registered email c) s
  | .matched email password c =>
      Once (Registered email c) s ∧ Opens ok password c.password
  | _ => True

section Run

variable {ok : Env -> Prop} {s s' : World × List World} {g : Login}

theorem LoginSound.later (h : LoginSound ok s g) (hpast : s'.2 = s.1 :: s.2) :
    LoginSound ok s' g := by
  cases g with
  | none => trivial
  | asking => trivial
  | read email c => exact Once.later h hpast
  | matched email password c => exact ⟨h.left.later hpast, h.right⟩

theorem registered_of_eval {w : World} {tx : Tx} {email : String} {c : Customer}
    (h : (Query.customerByEmail email true).eval (w.view tx false) = some c) :
    Registered email c w := by
  rcases Option.filter_eq_some_iff.mp h with ⟨hfind, hlive⟩
  refine ⟨List.mem_of_find?_eq_some hfind, ?_, ?_⟩
  · simpa using List.find?_some hfind
  · simpa using hlive

theorem login_step {w w' : World} {tx tx' : Tx} {past : List World} {c : Cmd}
    {r : service.Reply c} (hmay : g.may c)
    (hsound : LoginSound ok (w, past) g) (h : Next ok (w, tx) c r (w', tx')) :
    exists g', g.next c r g' ∧ LoginSound ok (w, past) g' := by
  have hsame : g.next c r g -> exists g', g.next c r g' ∧
      LoginSound ok (w, past) g' := fun hnext => ⟨g, hnext, hsound⟩
  cases g with
  | none => exact hsame rfl
  | matched => exact hsame rfl
  | asking =>
      cases c with
      | query inTx q =>
          cases q with
          | customerByEmail email paranoid =>
              rcases hmay with ⟨rfl, rfl⟩
              rcases (next_query h).right with rfl | ⟨⟨e, rfl⟩, _⟩
              · cases hfound : (Query.customerByEmail email true).eval
                  (w.view tx false) with
                | none => exact ⟨_, rfl, trivial⟩
                | some c => exact ⟨_, rfl, once_now (registered_of_eval hfound)⟩
              · exact hsame rfl
          | _ => exact hsame rfl
      | _ => exact hsame rfl
  | read email row =>
      cases c with
      | bcryptCompare password digest =>
          cases hmay
          rcases h with ⟨env, henv, hexec⟩
          dsimp only [exec] at hexec
          split at hexec <;> cases hexec
          · exact hsame rfl
          · cases hmatch : env.compare password row.password with
            | false => exact ⟨_, rfl, hsound⟩
            | true => exact ⟨_, rfl, hsound, env, henv, hmatch⟩
      | _ => exact hsame rfl

theorem preserves_logins (ok : Env -> Prop) :
    Pool.Preserves (system ok).recorded logins
      (Pool.Jointly (fun _ _ => True) (fun s g _ => LoginSound ok s g)
        (fun _ _ => True)) := by
  refine Pool.preserves_jointly (fun _ => trivial) ?_
  rintro s s' ghosts i g here here' c r others _ _ hsound hmay _
    ⟨hnext, hpast⟩
  rcases login_step hmay hsound hnext with ⟨g', hg', hsound'⟩
  exact ⟨g', hg', trivial, hsound'.later hpast,
    fun other there _ hother _ => ⟨hother.later hpast, trivial⟩⟩

theorem loginSound_start (task : Task) : LoginSound ok s (loginOf task) := by
  unfold loginOf
  split <;> trivial

/-- A login that has answered with a token has checked the password of a live
customer. -/
theorem login_checked {start : World} {tasks : List Task} {pool : Tasks}
    {past : List World}
    (hreach : Pool.Reaches (system ok).recorded
      ((startPool start tasks).recorded []) (pool.recorded past))
    {i : Nat} {body : CustomerBody} {tx : Tx} {status : Nat}
    {message email : String} {id : Int}
    (htask : tasks[i]? = some (.request (.loginCustomer body)))
    (hend : pool.threads[i]? =
      some ⟨tx, .ret (.response ⟨status, .token message id email⟩)⟩) :
    exists password c, given body.email = some email ∧
      given body.password = some password ∧ c.id = id ∧
      Once (Registered email c) (pool.shared, past) ∧
      Opens ok password c.password := by
  rcases Pool.reaches_jointly (preserves_logins ok) wp_logins trivial
    (fun task _ => loginSound_start task) (fun _ _ => trivial) hreach with
    ⟨ghosts, hjoint, hcovered⟩
  rcases hcovered.follows hend with ⟨g, hi, task, htask', hchecked⟩
  rw [htask] at htask'
  cases htask'
  rcases hchecked status message id email rfl with
    ⟨asked, password, c, rfl, hid, hemail, hasked, hpassword⟩
  rcases hjoint.each hi with ⟨honce, hopens⟩
  have hsame : asked = email := by
    rcases honce with ⟨_, _, hregistered⟩
    exact hregistered.right.left.symm.trans hemail
  rw [hsame] at hasked honce
  exact ⟨password, c, hasked, hpassword, hid, honce, hopens⟩

end Run

end Sessions
end ExpressEcommerce
