import ExpressEcommerce.Accounts.Interleaved
import ExpressEcommerce.Checkout.Prices
import ExpressEcommerce.Runs.Sequential
import ExpressEcommerce.Sessions.Doors
import ExpressEcommerce.Sessions.Logins

/-!
# What a login is needed for

A token is the only way to act as a customer, and a login is the only way to a
token.  So behind every change of an account and behind every order there is a
login of that customer, at most a day old, whatever the clients send and however
their requests interleave.  In the other direction a token cannot be taken back:
it is good for a whole day, even if the password changes or the account is
deleted.
-/

namespace ExpressEcommerce
namespace Sessions

open Foundation
open Store
open Service

section Authority

variable {J : Signer} {ok : Env -> Prop} {w : World} {start : Nat}
variable {site site' : Site}

/-- The password of a login was checked against a row that the live customer of
the token had at some moment of the run. -/
def PasswordChecked (J : Signer) (ok : Env -> Prop) (w : World) (site : Site)
    (c : Claims) (body : CustomerBody) : Prop :=
  exists past password row,
    Pool.Reaches (system ok).recorded
      ((startPool w (site.visits.map (Visit.task J))).recorded [])
      (site.pool.recorded past) ∧
    given body.email = some c.email ∧ given body.password = some password ∧
    row.id = c.id ∧ Once (Registered c.email row) (site.pool.shared, past) ∧
    Opens ok password row.password

/-- A token of the customer was signed less than a day before, in the answer to
a login whose password had been checked. -/
def LoggedIn (J : Signer) (ok : Env -> Prop) (w : World) (site : Site)
    (id : Int) (now : Nat) : Prop :=
  exists c body, c ∈ site.front.issued ∧ c.id = id ∧ c.iat ≤ now ∧
    now < c.iat + lifetime ∧ GrantedBy site c body ∧
    PasswordChecked J ok w site c body

theorem passwordChecked_of_granted (h : Serves J ok w start site) {c : Claims}
    {body : CustomerBody} (hby : GrantedBy site c body) :
    PasswordChecked J ok w site c body := by
  rcases hby with ⟨j, header, arrival, _, hvisit, _, tx, status, message, hend⟩
  rcases Pool.reaches_recorded (reaches_of_serves h) with ⟨past, hpast⟩
  have htask : (site.visits.map (Visit.task J))[j]? =
      some (.request (.loginCustomer body)) := by
    rw [List.getElem?_map, hvisit]
    rfl
  rcases login_checked hpast htask hend with ⟨password, row, hrest⟩
  exact ⟨past, password, row, hpast, hrest⟩

/-- Whoever acts as a customer has a login of the customer. -/
theorem loggedIn_of_token (h : Serves J ok w start site) {req : Request}
    {header : Option String} {now : Nat}
    (hvisit : .call req header now ∈ site.visits) {m : Middleware} {id : Int}
    (htoken : m.token J now header = .valid id) :
    LoggedIn J ok w site id now := by
  have hguarded := guarded_of_serves h
  rcases Middleware.token_eq_valid.mp htoken with
    ⟨text, c, htext, hdecode, hexp, rfl⟩
  rcases (hguarded.arrived req header now hvisit).right m text c htext hdecode
    with ⟨hissued, hiat⟩
  rcases hguarded.issued c hissued with ⟨hlife, _, body, hby⟩
  rw [hlife] at hexp
  exact ⟨c, body, hissued, rfl, hiat, hexp, hby,
    passwordChecked_of_granted h hby⟩

/-!
# A day in the shop

The buyer logs in, orders two pens and changes their name.
-/

def buyerEnv : Env :=
  { compare := fun password digest =>
      decide (password = "secret") && decide (digest = "digest") }

def BuyerEnv (env : Env) : Prop :=
  env.compare = buyerEnv.compare

def buyerClaims : Claims :=
  Claims.fresh 1 "buyer@shop" 5

def buyerHeader (J : Signer) : Option String :=
  some ("Bearer " ++ J.sign buyerClaims)

def buyerVisits (J : Signer) : List Visit :=
  [.call (.loginCustomer
      { email := some "buyer@shop", password := some "secret" }) none 0,
    .call (.createOrder .missing [⟨1, 2⟩]) (buyerHeader J) 100,
    .call (.patchCustomer .missing "1" { name := some "Ann" })
      (buyerHeader J) 200]

def buyerKnown : Tasks :=
  (startPool Runs.shop [.request (.loginCustomer
    { email := some "buyer@shop", password := some "secret" })]).schedule
    (exec buyerEnv) free [0, 0]

def buyerArrived : Tasks :=
  ⟨buyerKnown.shared, buyerKnown.threads ++
    [⟨none, (Task.request (.createOrder (.valid 1) [⟨1, 2⟩])).code⟩] ++
    [⟨none, (Task.request (.patchCustomer (.valid 1) "1"
      { name := some "Ann" })).code⟩]⟩

def buyerServed : Tasks :=
  buyerArrived.schedule (exec buyerEnv) free
    (List.replicate 25 1 ++ List.replicate 10 2)

def buyerDay (J : Signer) : Site :=
  ⟨⟨200, [buyerClaims]⟩, buyerServed, buyerVisits J, [0]⟩

theorem buyerDay_pool (J : Signer) : (buyerDay J).pool = buyerServed := by
  rw [buyerDay]

theorem unforged_buyer (J : Signer) :
    Unforged J [buyerClaims] (buyerHeader J) := by
  intro m text c htext hdecode
  rw [buyerHeader, m.text_sign] at htext
  cases htext
  rw [J.decode_sign] at hdecode
  cases hdecode
  exact List.mem_cons_self

theorem buyer_token (m : Middleware) (J : Signer) {now : Nat}
    (hnow : now < 5 + lifetime) :
    m.token J now (buyerHeader J) = .valid 1 := by
  rw [buyerHeader, m.token_sign]
  exact if_pos hnow

theorem arrived_buyer (J : Signer) :
    (⟨buyerKnown.shared, buyerKnown.threads ++
      [⟨none, (Visit.task J (.call (.createOrder .missing [⟨1, 2⟩])
        (buyerHeader J) 100)).code⟩] ++
      [⟨none, (Visit.task J (.call (.patchCustomer .missing "1"
        { name := some "Ann" }) (buyerHeader J) 200)).code⟩]⟩ : Tasks) =
    buyerArrived := by
  dsimp only [Visit.task, present]
  rw [buyer_token _ _ (by decide), buyer_token _ _ (by decide)]
  rfl

theorem serves_buyerDay (J : Signer) :
    Serves J BuyerEnv Runs.shop 0 (buyerDay J) := by
  have hrun : forall (pool : Tasks) (turns : List Nat),
      Pool.Reaches (system BuyerEnv) pool
        (pool.schedule (exec buyerEnv) free turns) :=
    fun pool turns => Pool.reaches_schedule (S := system BuyerEnv)
      (fun _ _ => ⟨buyerEnv, rfl, rfl⟩) (fun _ _ h => enabled_of_free h)
      pool turns
  have hentered : Serves J BuyerEnv Runs.shop 0
      ⟨⟨0, []⟩, startPool Runs.shop [.request (.loginCustomer
        { email := some "buyer@shop", password := some "secret" })],
        (buyerVisits J).take 1, []⟩ := by
    have hdoor : (door J).enters Runs.shop [] ⟨0, []⟩ (.call (.loginCustomer
        { email := some "buyer@shop", password := some "secret" }) none 0)
        ⟨0, []⟩ := by
      refine ⟨le_refl 0, ?_, rfl⟩
      intro m text c htext
      cases m <;> cases htext
    have hstep : Server.Step (system BuyerEnv) (door J) none
        (fun v => (v.task J).code) (Server.opened ⟨0, []⟩ Runs.shop) _ :=
      .enter hdoor
    exact Relation.ReflTransGen.single hstep
  have hknown : Serves J BuyerEnv Runs.shop 0
      ⟨⟨0, []⟩, buyerKnown, (buyerVisits J).take 1, []⟩ :=
    hentered.trans (Server.reaches_work (hrun _ _))
  have hanswered : Serves J BuyerEnv Runs.shop 0
      ⟨⟨5, [buyerClaims]⟩, buyerKnown, (buyerVisits J).take 1, [0]⟩ :=
    hknown.tail (.leave 0 (by rintro ⟨⟩) rfl rfl ⟨5, Nat.zero_le 5, rfl⟩)
  have harrived : Serves J BuyerEnv Runs.shop 0
      ⟨⟨200, [buyerClaims]⟩, buyerArrived, buyerVisits J, [0]⟩ := by
    have hdoor : forall (w : World) (txs : List Tx) (req : Request)
        (clock now : Nat), clock ≤ now ->
        (door J).enters w txs ⟨clock, [buyerClaims]⟩
          (.call req (buyerHeader J) now) ⟨now, [buyerClaims]⟩ :=
      fun _ _ _ _ _ hle => ⟨hle, unforged_buyer J, rfl⟩
    rw [← arrived_buyer J]
    exact (hanswered.tail (.enter (hdoor _ _ _ 5 100 (by decide)))).tail
      (.enter (hdoor _ _ _ 100 200 (by decide)))
  exact harrived.trans (Server.reaches_work (hrun _ _))

/-!
# Accounts
-/

/-- The requests that can write the row of a customer. -/
def changesAccount : Request -> Bool
  | .updateCustomer _ _ _ => true
  | .patchCustomer _ _ _ => true
  | .restoreCustomer _ _ => true
  | _ => false

theorem valid_of_right {f : Token -> Request} {token : Token} {id : Int}
    (hvalid : forall n, Accounts.rightOf (.request (f (.valid n))) = .own n)
    (hmissing : Accounts.rightOf (.request (f .missing)) = .none)
    (hinvalid : Accounts.rightOf (.request (f .invalid)) = .none)
    (h : Accounts.rightOf (.request (f token)) = .own id) :
    token = .valid id := by
  cases token with
  | missing =>
      rw [hmissing] at h
      cases h
  | invalid =>
      rw [hinvalid] at h
      cases h
  | valid n =>
      rw [hvalid] at h
      cases h
      rfl

theorem token_of_own {v : Visit} {id : Int}
    (h : Accounts.rightOf (v.task J) = .own id) :
    exists req header now m, v = .call req header now ∧
      changesAccount req = true ∧
      Middleware.token m J now header = .valid id := by
  cases v with
  | statusJob | cancelJob => cases h
  | call req header now =>
      refine ⟨req, header, now, ?_⟩
      cases req with
      | updateCustomer token text body =>
          exact ⟨.authenticateCustomer, rfl, rfl, valid_of_right
            (f := fun t => .updateCustomer t text body) (fun _ => rfl) rfl rfl h⟩
      | patchCustomer token text body =>
          exact ⟨.authenticateCustomer, rfl, rfl, valid_of_right
            (f := fun t => .patchCustomer t text body) (fun _ => rfl) rfl rfl h⟩
      | restoreCustomer token text =>
          exact ⟨.allowSoftDeletedCustomer, rfl, rfl, valid_of_right
            (f := fun t => .restoreCustomer t text) (fun _ => rfl) rfl rfl h⟩
      | registerCustomer body =>
          dsimp only [Visit.task, present, Accounts.rightOf] at h
          split at h <;> cases h
      | _ => cases h

/-- If the row of a customer is no longer what it was at the start, then a
request that changes accounts came in, and less than a day before its arrival a
login of that very customer had been answered. -/
theorem account_changes_follow_a_login (h : Serves J ok w start site)
    {id : Int} {r : Customer} (hrow : w.db.customers.find? id = some r)
    (hchanged : site.pool.shared.db.customers.find? id ≠ some r) :
    exists req header now, .call req header now ∈ site.visits ∧
      changesAccount req = true ∧ LoggedIn J ok w site id now := by
  rcases Accounts.reaches_accounts (reaches_of_serves h) with
    ⟨ghosts, hjoint, _⟩
  rcases Table.find?_eq_some_iff.mp hrow with ⟨hmem, rfl⟩
  have htouched : ¬ Accounts.Untouched (site.visits.map (Visit.task J)) r.id :=
    fun hun => hchanged (Table.find?_of_mem (hjoint.all.left.kept r hmem hun))
  unfold Accounts.Untouched at htouched
  push Not at htouched
  rcases htouched with ⟨task, htask, hright⟩
  rcases List.mem_map.mp htask with ⟨v, hv, rfl⟩
  rcases token_of_own hright with ⟨req, header, now, m, rfl, hreq, htoken⟩
  exact ⟨req, header, now, hv, hreq, loggedIn_of_token h hv htoken⟩

theorem renaming_follows_a_login :
    exists J req header now, .call req header now ∈ (buyerDay J).visits ∧
      changesAccount req = true ∧
      LoggedIn J BuyerEnv Runs.shop (buyerDay J) 1 now := by
  rcases exists_signer with ⟨J⟩
  have hbuyer : Runs.shop.db.customers.find? 1 =
      some ⟨1, "buyer", "buyer@shop", "digest", 0, 0, none⟩ := rfl
  have hchanged : (buyerDay J).pool.shared.db.customers.find? 1 ≠
      some ⟨1, "buyer", "buyer@shop", "digest", 0, 0, none⟩ := by
    rw [buyerDay_pool]
    decide +kernel
  exact ⟨J, account_changes_follow_a_login (serves_buyerDay J) hbuyer hchanged⟩

/-!
# Orders
-/

/-- An order that was not there at the start was placed by a request, and less
than a day before its arrival a login of the customer of the order had been
answered. -/
theorem orders_follow_a_login (h : Serves J ok w start site) {order : Order}
    (horder : order ∈ site.pool.shared.db.orders.rows)
    (hnew : w.db.orders.find? order.id = none) :
    exists items header now token,
      .call (.createOrder token items) header now ∈ site.visits ∧
        LoggedIn J ok w site order.customerId now := by
  rcases Pool.reaches_recorded (reaches_of_serves h) with ⟨past, hpast⟩
  rcases (Checkout.reaches_fair hpast).orders order horder with
    ⟨old, hold, hid, _⟩ | ⟨items, htask⟩
  · exact absurd hid (Table.find?_eq_none_iff.mp hnew old hold)
  · rcases List.mem_map.mp htask with ⟨v, hv, htask⟩
    cases v with
    | statusJob | cancelJob => cases htask
    | call req header now =>
        cases req with
        | createOrder token items' =>
            have htoken := (Request.createOrder.inj (Task.request.inj htask)).left
            exact ⟨items', header, now, token, hv, loggedIn_of_token h hv htoken⟩
        | _ => cases htask

theorem pens_follow_a_login :
    exists J items header now token,
      .call (.createOrder token items) header now ∈ (buyerDay J).visits ∧
        LoggedIn J BuyerEnv Runs.shop (buyerDay J) 1 now := by
  rcases exists_signer with ⟨J⟩
  have horder : (⟨1, 1, 500, .pending, 0, 0, none⟩ : Order) ∈
      (buyerDay J).pool.shared.db.orders.rows := by
    rw [buyerDay_pool]
    decide +kernel
  exact ⟨J, orders_follow_a_login (serves_buyerDay J) horder rfl⟩

/-!
# Tokens cannot be taken back
-/

theorem issued_grows (hlater : Server.Reaches (system ok) (door J) none
      (fun v => (v.task J).code) site site') {c : Claims}
    (hc : c ∈ site.front.issued) : c ∈ site'.front.issued := by
  refine invariant_of_steps (J := fun s : Site => c ∈ s.front.issued) ?_ hc
    hlater
  intro before after hbefore hstep
  cases hstep with
  | @enter v f hdoor =>
      cases v with
      | call req header now =>
          rcases hdoor with ⟨_, _, rfl⟩
          exact hbefore
      | statusJob | cancelJob =>
          cases hdoor
          exact hbefore
  | work hstep => exact hbefore
  | leave i hnew hvisit hend hdoor =>
      rcases hdoor with ⟨now, _, rfl⟩
      exact List.mem_append_left _ hbefore

def CustomersKept (w w' : World) : Prop :=
  forall id, (w.db.customers.find? id).isSome = true ->
    (w'.db.customers.find? id).isSome = true

theorem customersKept_write (db : Database) (x : Write) (id : Int)
    (h : (db.customers.find? id).isSome = true) :
    ((db.write x).customers.find? id).isSome = true := by
  have hmodified : forall {found : Option Customer} {other : Int}
      {f : Customer -> Customer}, found = (if id = other then
        (db.customers.find? id).map f else db.customers.find? id) ->
        found.isSome = true := by
    rintro _ other f rfl
    split
    · rw [Option.isSome_map]
      exact h
    · exact h
  by_cases hrow : x.row.1 = .customers
  · cases x with
    | insertCustomer r => exact Table.isSome_find?_insert h
    | update u now =>
        cases u with
        | customerFields =>
            exact hmodified (Database.find?_update_customerFields _ _ _ _ _)
        | customerDeleted =>
            exact hmodified (Database.find?_update_customerDeleted _ _ _ _ _)
        | _ => cases hrow
    | _ => cases hrow
  · rw [Accounts.customers_write_of_row hrow]
    exact h

theorem customersKept_writeAll (log : List Write) (db : Database) (id : Int)
    (h : (db.customers.find? id).isSome = true) :
    ((db.writeAll log).customers.find? id).isSome = true := by
  induction log generalizing db with
  | nil => exact h
  | cons x rest ih =>
      rw [Database.writeAll_cons]
      exact ih _ (customersKept_write db x id h)

theorem customersKept_next {s s' : World × Tx} {c : Cmd}
    {r : service.Reply c} (h : Next ok s c r s') :
    CustomersKept s.1 s'.1 := by
  intro id hid
  have hreserve : forall name,
      ((s.1.db.reserve name).customers.find? id).isSome = true := by
    intro name
    cases name <;> exact hid
  generalize hdb : s'.1.db = db'
  have hstep : StoreStep s.1 s.2 c s'.1.db := storeStep_of_next h
  rw [hdb] at hstep
  cases hstep with
  | same => exact hid
  | reserved inTx row => exact hreserve _
  | inserted row now => exact customersKept_write _ _ _ (hreserve _)
  | updated u now => exact customersKept_write _ (.update u now) _ hid
  | committed log _ => exact customersKept_writeAll _ _ _ hid

/-- Once a token has gone out, both middlewares accept it until a day is over
and not longer, and the customer it names stays in the store.  Nothing that
happens in between changes this. -/
theorem tokens_are_good_for_a_day (h : Serves J ok w start site) {c : Claims}
    (hc : c ∈ site.front.issued)
    (hlater : Server.Reaches (system ok) (door J) none
      (fun v => (v.task J).code) site site') (now : Nat) :
    (forall m : Middleware,
      m.token J now (some ("Bearer " ++ J.sign c)) =
        if now < c.iat + lifetime then .valid c.id else .invalid) ∧
    Unforged J site'.front.issued (some ("Bearer " ++ J.sign c)) ∧
    (site'.pool.shared.db.customers.find? c.id).isSome = true := by
  have hserves : Serves J ok w start site' := h.trans hlater
  have hc' := issued_grows hlater hc
  rcases (guarded_of_serves hserves).issued c hc' with ⟨hexp, _, body, hby⟩
  refine ⟨fun m => ?_, ?_, ?_⟩
  · rw [m.token_sign, hexp]
  · intro m text c' htext hdecode
    rw [m.text_sign] at htext
    cases htext
    rw [J.decode_sign] at hdecode
    cases hdecode
    exact hc'
  · rcases passwordChecked_of_granted hserves hby with
      ⟨past, password, row, hreach, _, _, hid, ⟨old, hold, hrow, _⟩, _⟩
    have hkept := Pool.reaches_monotone (R := CustomersKept) (fun _ _ h => h)
      (fun hab hbc id h => hbc id (hab id h)) customersKept_next hreach old hold
    refine hkept c.id ?_
    rw [← hid]
    exact Option.isSome_iff_exists.mpr ⟨row, Table.find?_of_mem hrow⟩

theorem buyer_token_is_good :
    exists J : Signer, (Middleware.authenticateCustomer).token J 300
        (some ("Bearer " ++ J.sign buyerClaims)) = .valid 1 ∧
      Unforged J [buyerClaims] (some ("Bearer " ++ J.sign buyerClaims)) ∧
      (buyerServed.shared.db.customers.find? 1).isSome = true := by
  rcases exists_signer with ⟨J⟩
  rcases tokens_are_good_for_a_day (serves_buyerDay J) List.mem_cons_self
    Relation.ReflTransGen.refl 300 with ⟨htoken, hunforged, hcustomer⟩
  rw [buyerDay_pool] at hcustomer
  exact ⟨J, (htoken _).trans (if_pos (by decide)), hunforged, hcustomer⟩

end Authority

end Sessions
end ExpressEcommerce
