import ExpressEcommerce.Accounts.Steps
import ExpressEcommerce.Runs.Sequential

/-!
# Customers while requests interleave

For every interleaving of any tasks, and whatever fails: accounts change only by
requests with their own token, addresses stay unique, every registration that is
confirmed has made one row of its own, and every stored password came from
bcrypt.
-/

namespace ExpressEcommerce
namespace Accounts

open Foundation
open Store
open Service

/-!
# The customers of a whole run
-/

/-- Two customers have two addresses. -/
def UniqueEmails (db : Database) : Prop :=
  forall r r', r ∈ db.customers.rows -> r' ∈ db.customers.rows ->
    r.email = r'.email -> r.id = r'.id

/-- No task has the right to change the account. -/
def Untouched (tasks : List Task) (id : Int) : Prop :=
  forall task, task ∈ tasks -> rightOf task ≠ .own id

section Run

variable (ok : Env -> Prop) (tasks : List Task) (start : Database)

/-- The customers compared with those at the start. -/
structure Accounted (db : Database) : Prop where
  grown : start.customers.seq ≤ db.customers.seq
  kept : forall r, r ∈ start.customers.rows -> Untouched tasks r.id ->
    r ∈ db.customers.rows
  live : forall r, r ∈ start.customers.rows ->
    exists r', r' ∈ db.customers.rows ∧ r'.id = r.id ∧
      (r.deletedAt = none -> r'.deletedAt = none)
  unique : UniqueEmails start -> UniqueEmails db
  hashed : forall r, r ∈ db.customers.rows -> Hashed ok r.password ∨
    exists r0, r0 ∈ start.customers.rows ∧ r0.password = r.password

/-- What holds of each task: the passwords it has come from bcrypt, and the
customer it has inserted is there. -/
structure Held (db : Database) (hand : Hand) (tx : Tx) : Prop where
  spared : Spared tx
  right : exists task, task ∈ tasks ∧ rightOf task = hand.right
  digests : forall d, d ∈ hand.digests -> Hashed ok d
  made : forall id, hand.made = some id -> start.customers.seq ≤ id ∧
    id < db.customers.seq ∧ exists r, r ∈ db.customers.rows ∧ r.id = id ∧
      r.deletedAt = none ∧
      (Untouched tasks id -> hand.right = .register r.name r.email)

variable {ok} {tasks} {start} {db db' : Database} {hand hand' : Hand}

theorem accounted_refl : Accounted ok tasks start start :=
  ⟨le_refl _, fun _ hr _ => hr, fun r hr => ⟨r, hr, rfl, fun h => h⟩,
    fun h => h, fun r hr => Or.inr ⟨r, hr, rfl⟩⟩

theorem mem_changed {id : Int} {f : Customer -> Customer} {r : Customer}
    (hrows : db'.customers.rows =
      db.customers.rows.map (fun r => if r.id = id then f r else r))
    (hr : r ∈ db.customers.rows) :
    (if r.id = id then f r else r) ∈ db'.customers.rows := by
  rw [hrows]
  exact List.mem_map_of_mem hr

theorem uniqueEmails_written (h : UniqueEmails db)
    (hwritten : Written ok db hand db' hand') : UniqueEmails db' := by
  have hfree : forall {id : Int} {email : String},
      db.emailFree id email = true -> forall r, r ∈ db.customers.rows ->
        r.email = email -> r.id = id := by
    intro id email hfree r hr hemail
    have hrow := of_decide_eq_true (List.all_eq_true.mp hfree r hr)
    exact hrow.resolve_left (fun hne => hne hemail)
  cases hwritten with
  | same hrows _ _ _ _ =>
      unfold UniqueEmails
      rw [hrows]
      exact h
  | inserted _ _ _ _ hnew hrows _ =>
      intro r r' hr hr' hemail
      rw [hrows] at hr hr'
      rcases List.mem_append.mp hr with hold | hrow
      · rcases List.mem_append.mp hr' with hold' | hrow'
        · exact h r r' hold hold' hemail
        · cases List.mem_singleton.mp hrow'
          exact hfree hnew r hold hemail
      · cases List.mem_singleton.mp hrow
        rcases List.mem_append.mp hr' with hold' | hrow'
        · exact (hfree hnew r' hold' hemail.symm).symm
        · cases List.mem_singleton.mp hrow'
          rfl
  | @changed id f _ hid hemail _ _ hrows _ =>
      -- the new address of the row is its old one or nobody else's
      have hother : forall x y, x ∈ db.customers.rows ->
          y ∈ db.customers.rows -> x.id = id -> y.id ≠ id ->
          (f x).email ≠ y.email := by
        intro x y hx hy hxid hyid heq
        rcases hemail x with hsame | hnew
        · rw [hsame] at heq
          exact hyid ((h x y hx hy heq).symm.trans hxid)
        · exact hyid (hfree hnew y hy heq.symm)
      intro r r' hr hr' heq
      rw [hrows] at hr hr'
      rcases List.mem_map.mp hr with ⟨x, hx, rfl⟩
      rcases List.mem_map.mp hr' with ⟨y, hy, rfl⟩
      by_cases hxid : x.id = id
      · by_cases hyid : y.id = id
        · rw [if_pos hxid, if_pos hyid, hid, hid, hxid, hyid]
        · rw [if_pos hxid, if_neg hyid] at heq
          exact absurd heq (hother x y hx hy hxid hyid)
      · by_cases hyid : y.id = id
        · rw [if_neg hxid, if_pos hyid] at heq
          exact absurd heq.symm (hother y x hy hx hyid hxid)
        · rw [if_neg hxid, if_neg hyid] at heq ⊢
          exact h x y hx hy heq

theorem accounted_written {tx : Tx} (h : Accounted ok tasks start db)
    (hheld : Held ok tasks start db hand tx)
    (hwritten : Written ok db hand db' hand') :
    Accounted ok tasks start db' := by
  have hunique : UniqueEmails start -> UniqueEmails db' :=
    fun hstart => uniqueEmails_written (h.unique hstart) hwritten
  cases hwritten with
  | same hrows hseq _ _ _ =>
      refine ⟨h.grown.trans hseq, ?_, ?_, hunique, ?_⟩ <;> rw [hrows]
      · exact h.kept
      · exact h.live
      · exact h.hashed
  | inserted _ _ _ hdigest _ hrows hseq =>
      have hold : forall r, r ∈ db.customers.rows -> r ∈ db'.customers.rows := by
        intro r hr
        rw [hrows]
        exact List.mem_append_left _ hr
      refine ⟨h.grown.trans hseq.le, fun r hr hun => hold r (h.kept r hr hun),
        fun r hr => ?_, hunique, fun r hr => ?_⟩
      · rcases h.live r hr with ⟨r', hr', hrest⟩
        exact ⟨r', hold r' hr', hrest⟩
      · rw [hrows] at hr
        rcases List.mem_append.mp hr with hr | hr
        · exact h.hashed r hr
        · cases List.mem_singleton.mp hr
          exact Or.inl (hheld.digests _ hdigest)
  | @changed id f hright hid hemail hpassword hlive hrows hseq =>
      refine ⟨h.grown.trans hseq.ge, fun r hr hun => ?_, fun r hr => ?_,
        hunique, fun r hr => ?_⟩
      · have hne : r.id ≠ id := by
          rintro rfl
          rcases hheld.right with ⟨task, htask, hown⟩
          exact hun task htask (hown.trans hright)
        have hmem := mem_changed hrows (h.kept r hr hun)
        rwa [if_neg hne] at hmem
      · rcases h.live r hr with ⟨r', hr', hid', hlive'⟩
        refine ⟨_, mem_changed hrows hr', ?_, fun hnone => ?_⟩
        · split
          · exact (hid r').trans hid'
          · exact hid'
        · split
          · exact hlive r' (hlive' hnone)
          · exact hlive' hnone
      · rw [hrows] at hr
        rcases List.mem_map.mp hr with ⟨x, hx, rfl⟩
        split
        · rcases hpassword x with hsame | hdigest
          · rw [hsame]
            exact h.hashed x hx
          · exact Or.inl (hheld.digests _ hdigest)
        · exact h.hashed x hx

theorem made_written {tx : Tx} {right : Right} {other : Hand}
    (hheld : Held ok tasks start db other tx)
    (hright : exists task, task ∈ tasks ∧ rightOf task = right)
    (hhand : hand.right = right) (hwritten : Written ok db hand db' hand')
    {id : Int} (hmade : other.made = some id) :
    start.customers.seq ≤ id ∧ id < db'.customers.seq ∧
      exists r, r ∈ db'.customers.rows ∧ r.id = id ∧ r.deletedAt = none ∧
        (Untouched tasks id -> other.right = .register r.name r.email) := by
  rcases hheld.made id hmade with ⟨hge, hlt, r, hr, hrid, hlive, hreg⟩
  cases hwritten with
  | same hrows hseq _ _ _ =>
      rw [← hrows] at hr
      exact ⟨hge, hlt.trans_le hseq, r, hr, hrid, hlive, hreg⟩
  | inserted _ _ _ _ _ hrows hseq =>
      refine ⟨hge, hlt.trans hseq, r, ?_, hrid, hlive, hreg⟩
      rw [hrows]
      exact List.mem_append_left _ hr
  | @changed cid f hown hid _ _ hkeep hrows hseq =>
      refine ⟨hge, hseq ▸ hlt, _, mem_changed hrows hr, ?_, ?_, ?_⟩
      · split
        · exact (hid r).trans hrid
        · exact hrid
      · split
        · exact hkeep r hlive
        · exact hlive
      · intro hun
        have hne : r.id ≠ cid := by
          rintro rfl
          rcases hright with ⟨task, htask, heq⟩
          exact hun task htask (by rw [heq, ← hhand, hown, hrid])
        rw [if_neg hne]
        exact hreg hun

theorem held_other {tx tx' : Tx} {other : Hand}
    (hheld : Held ok tasks start db hand tx)
    (hother : Held ok tasks start db other tx')
    (hwritten : Written ok db hand db' hand') :
    Held ok tasks start db' other tx' :=
  ⟨hother.spared, hother.right, hother.digests, fun _ hmade =>
    made_written hother hheld.right rfl hwritten hmade⟩

theorem held_self {tx tx' : Tx} (h : Accounted ok tasks start db)
    (hheld : Held ok tasks start db hand tx) (hspared : Spared tx')
    (hwritten : Written ok db hand db' hand') :
    Held ok tasks start db' hand' tx' := by
  have hkeep := fun (id : Int) (hmade : hand.made = some id) =>
    made_written hheld hheld.right rfl hwritten hmade
  cases hwritten with
  | same hrows hseq hright hmade hdigests =>
      refine ⟨hspared, by rw [hright]; exact hheld.right, ?_, ?_⟩
      · intro d hd
        exact (hdigests d hd).elim (hheld.digests d) (fun hnew => hnew)
      · rw [hmade, hright]
        exact hkeep
  | @inserted name email password now hright _ _ _ hrows hseq =>
      refine ⟨hspared, hheld.right, hheld.digests, ?_⟩
      rintro _ ⟨⟩
      refine ⟨h.grown, hseq,
        ⟨db.customers.seq, name, email, password, now, now, none⟩, ?_, rfl, rfl,
        fun _ => hright⟩
      rw [hrows]
      exact List.mem_append_right _ (List.mem_singleton_self _)
  | changed => exact ⟨hspared, hheld.right, hheld.digests, hkeep⟩

def Apart (g h : Hand) : Prop :=
  forall id, g.made = some id -> h.made ≠ some id

theorem apart_written {tx : Tx} {other : Hand}
    (hother : Held ok tasks start db other tx) (h : Apart hand other)
    (hwritten : Written ok db hand db' hand') : Apart hand' other := by
  cases hwritten with
  | same _ _ _ hmade _ =>
      intro id hid
      rw [hmade] at hid
      exact h id hid
  | inserted =>
      rintro _ ⟨⟩ hsame
      exact absurd (hother.made _ hsame).right.left (lt_irrefl _)
  | changed => exact h

def Known (start db : Database) (ghosts : List (Hand × Tx)) : Prop :=
  forall r, r ∈ db.customers.rows ->
    (exists r0, r0 ∈ start.customers.rows ∧ r0.id = r.id) ∨
      exists (i : Nat) (hand : Hand) (tx : Tx), ghosts[i]? = some (hand, tx) ∧
        hand.made = some r.id

theorem known_written {ghosts : List (Hand × Tx)} {i : Nat} {tx tx' : Tx}
    (h : Known start db ghosts) (hi : ghosts[i]? = some (hand, tx))
    (hwritten : Written ok db hand db' hand') :
    Known start db' (ghosts.set i (hand', tx')) := by
  have hlt : i < ghosts.length := (List.getElem?_eq_some_iff.mp hi).1
  have hself : (ghosts.set i (hand', tx'))[i]? = some (hand', tx') :=
    List.getElem?_set_self hlt
  -- whoever has inserted a customer still has
  have hstill : forall id,
      (forall n, hand.made = some n -> hand'.made = some n) ->
      (exists (j : Nat) (g : Hand) (there : Tx),
        ghosts[j]? = some (g, there) ∧ g.made = some id) ->
      exists (j : Nat) (g : Hand) (there : Tx),
        (ghosts.set i (hand', tx'))[j]? = some (g, there) ∧
          g.made = some id := by
    rintro id hkeep ⟨j, g, there, hj, hmade⟩
    by_cases hij : i = j
    · subst hij
      rw [hi] at hj
      cases hj
      exact ⟨i, hand', tx', hself, hkeep id hmade⟩
    · refine ⟨j, g, there, ?_, hmade⟩
      rw [List.getElem?_set_ne hij]
      exact hj
  intro r hr
  cases hwritten with
  | same hrows _ _ hmade _ =>
      rw [hrows] at hr
      exact (h r hr).imp_right (hstill r.id (fun n hn => hmade.trans hn))
  | inserted _ _ hnone _ _ hrows _ =>
      rw [hrows] at hr
      rcases List.mem_append.mp hr with hr | hr
      · refine (h r hr).imp_right (hstill r.id (fun n hn => ?_))
        rw [hnone] at hn
        cases hn
      · cases List.mem_singleton.mp hr
        exact Or.inr ⟨i, _, tx', hself, rfl⟩
  | @changed id f _ hid _ _ _ hrows _ =>
      rw [hrows] at hr
      rcases List.mem_map.mp hr with ⟨x, hx, rfl⟩
      have hxid : (if x.id = id then f x else x).id = x.id := by
        split
        · exact hid x
        · rfl
      rw [hxid]
      exact (h x hx).imp_right (hstill x.id (fun _ hn => hn))

end Run

/-!
# Interleavings
-/

theorem preserves_accounts (ok : Env -> Prop) (tasks : List Task)
    (start : Database) :
    Pool.Preserves (system ok) hands
      (Pool.Jointly
        (fun w ghosts => Accounted ok tasks start w.db ∧
          Known start w.db ghosts)
        (fun w hand tx => Held ok tasks start w.db hand tx) Apart) := by
  refine Pool.preserves_jointly ?_ ?_
  · intro g h hapart id hh hg
    exact hapart id hg hh
  intro w w' ghosts i hand tx tx' c r others hall hi hheld hmay _ hnext
  rcases written_step hmay hheld.spared hnext with
    ⟨hand', hhand', hwritten⟩
  have hspared := spared_step hmay hheld.spared (txStep_of_next hnext)
  refine ⟨hand', hhand', ⟨accounted_written hall.left hheld hwritten,
    known_written hall.right hi hwritten⟩,
    held_self hall.left hheld hspared hwritten, ?_⟩
  intro other there _ hother hapart
  exact ⟨held_other hheld hother hwritten, apart_written hother hapart
    hwritten⟩

/-- What holds of the customers and of the tasks in every pool that is
reached. -/
theorem reaches_accounts {ok : Env -> Prop} {w : World} {tasks : List Task}
    {pool : Tasks}
    (hreach : Pool.Reaches (system ok) (startPool w tasks) pool) :
    exists ghosts,
      Pool.Jointly
        (fun w' ghosts => Accounted ok tasks w.db w'.db ∧
          Known w.db w'.db ghosts)
        (fun w' hand tx => Held ok tasks w.db w'.db hand tx) Apart
        pool.shared ghosts ∧
      Pool.Covered hands (fun i out hand =>
        exists task, tasks[i]? = some task ∧ Settled task out hand) pool
        ghosts := by
  refine Pool.reaches_jointly (preserves_accounts ok tasks w.db) wp_hands
    ⟨accounted_refl, ?_⟩ ?_ ?_ hreach
  · intro r hr
    exact Or.inl ⟨r, hr, rfl⟩
  · intro task htask
    refine ⟨?_, ⟨task, htask, rfl⟩, ?_, ?_⟩
    · rintro log ⟨⟩
    · rintro d ⟨⟩
    · rintro id ⟨⟩
  · rintro task task' id ⟨⟩

/-- A registration of the pool that has been confirmed. -/
def Confirmed (tasks : List Task) (pool : Tasks) (i : Nat)
    (body : CustomerBody) (json : CustomerJson) : Prop :=
  tasks[i]? = some (.request (.registerCustomer body)) ∧
    exists tx message, pool.threads[i]? =
      some ⟨tx, .ret (.response ⟨201, .messageCustomer message json⟩)⟩

/-!
# Two registrations at once
-/

def annRegisters : Task :=
  .request (.registerCustomer
    { name := some "ann", email := some "ann@shop", password := some "secret" })

/-- Both have found the address free; the second is refused by the index. -/
def annTwice : Tasks :=
  afterTurns Runs.shop [annRegisters, annRegisters] [0, 1, 0, 0, 1, 1]

theorem reaches_annTwice (ok : Env -> Prop) (hok : ok {}) :
    Pool.Reaches (system ok)
      (startPool Runs.shop [annRegisters, annRegisters]) annTwice :=
  reaches_afterTurns hok _ _ _

theorem untouched_annTwice (id : Int) :
    Untouched [annRegisters, annRegisters] id := by
  intro task htask
  rw [List.mem_cons, List.mem_singleton, or_self] at htask
  rw [htask]
  exact fun h => nomatch h

theorem ann_confirmed :
    Confirmed [annRegisters, annRegisters] annTwice 0
      { name := some "ann", email := some "ann@shop", password := some "secret" }
      (Customer.idNameEmail ⟨2, "ann", "ann@shop", "", 0, 0, none⟩) :=
  ⟨rfl, none, "Customer registered successfully", rfl⟩

/-!
# Results
-/

section Results

variable {ok : Env -> Prop} {w : World} {tasks : List Task} {pool : Tasks}

/-- An account is found as it was unless some request with its token changes
accounts, and no live account is ever deleted. -/
theorem accounts_change_only_by_their_own_requests
    (hreach : Pool.Reaches (system ok) (startPool w tasks) pool) :
    forall id r, w.db.customers.find? id = some r ->
      (Untouched tasks id -> pool.shared.db.customers.find? id = some r) ∧
      exists r', pool.shared.db.customers.find? id = some r' ∧
        (r.deletedAt = none -> r'.deletedAt = none) := by
  intro id r hr
  rcases Table.find?_eq_some_iff.mp hr with ⟨hmem, rfl⟩
  rcases reaches_accounts hreach with ⟨ghosts, hjoint, _⟩
  have haccounted := hjoint.all.left
  constructor
  · intro hun
    exact Table.find?_of_mem (haccounted.kept r hmem hun)
  · rcases haccounted.live r hmem with ⟨r', hr', hid, hlive⟩
    refine ⟨r', ?_, hlive⟩
    exact Table.find?_eq_some_iff.mpr ⟨hr', hid⟩

theorem buyer_stays_the_same :
    annTwice.shared.db.customers.find? 1 =
      some ⟨1, "buyer", "buyer@shop", "digest", 0, 0, none⟩ :=
  (accounts_change_only_by_their_own_requests
    (reaches_annTwice AnyEnv trivial) 1 _ rfl).left
    (untouched_annTwice 1)

section Confirmed

variable {ghosts : List (Hand × Tx)} (hcovered : Pool.Covered hands
  (fun i out hand => exists task, tasks[i]? = some task ∧
    Settled task out hand) pool ghosts)

include hcovered

theorem Confirmed.hand {i : Nat} {body : CustomerBody} {json : CustomerJson}
    (h : Confirmed tasks pool i body json) :
    exists hand tx, ghosts[i]? = some (hand, tx) ∧
      hand.right = rightOf (.request (.registerCustomer body)) ∧
      hand.made = some json.id := by
  rcases h with ⟨htask, tx, message, hthread⟩
  rcases hcovered.follows hthread with ⟨hand, hhand, task, htask', hsettled⟩
  rw [htask] at htask'
  cases htask'
  exact ⟨hand, tx, hhand, hsettled.right,
    (hsettled.reported rfl json.id).mpr ⟨message, json, rfl, rfl⟩⟩

end Confirmed

theorem given_of_right {body : CustomerBody} {name email : String}
    (h : rightOf (.request (.registerCustomer body)) = .register name email) :
    given body.name = some name ∧ given body.email = some email := by
  dsimp only [rightOf] at h
  split at h
  · rename_i hname hemail
    cases h
    exact ⟨hname, hemail⟩
  · cases h

/-- If all customers have different addresses at the start they always have; so
at most one of several registrations of one address is confirmed, unless
accounts are changed meanwhile. -/
theorem addresses_stay_unique (hstart : UniqueEmails w.db)
    (hreach : Pool.Reaches (system ok) (startPool w tasks) pool) :
    UniqueEmails pool.shared.db ∧
    ((forall id, Untouched tasks id) ->
      forall i j body body' json json', i ≠ j ->
        Confirmed tasks pool i body json ->
        Confirmed tasks pool j body' json' -> body.email ≠ body'.email) := by
  rcases reaches_accounts hreach with ⟨ghosts, hjoint, hcovered⟩
  have hunique := hjoint.all.left.unique hstart
  refine ⟨hunique, ?_⟩
  intro hun i j body body' json json' hij hconfirmed hconfirmed' hsame
  rcases hconfirmed.hand hcovered with ⟨hand, tx, hi, hright, hmade⟩
  rcases hconfirmed'.hand hcovered with ⟨hand', tx', hj, hright', hmade'⟩
  rcases (hjoint.each hi).made _ hmade with ⟨_, _, r, hr, hid, _, hreg⟩
  rcases (hjoint.each hj).made _ hmade' with ⟨_, _, r', hr', hid', _, hreg'⟩
  have hemail := (given_of_right (hright.symm.trans (hreg (hun _)))).right
  have hemail' := (given_of_right (hright'.symm.trans (hreg' (hun _)))).right
  rw [hsame, hemail'] at hemail
  have hids := hunique r r' hr hr' (Option.some.inj hemail).symm
  rw [hid, hid'] at hids
  rw [hids] at hmade
  exact hjoint.two hij hi hj json'.id hmade hmade'

theorem ann_is_registered_once :
    UniqueEmails annTwice.shared.db ∧
      forall body json, Confirmed [annRegisters, annRegisters] annTwice 1 body
        json -> body.email ≠ some "ann@shop" := by
  have hstart : UniqueEmails Runs.shop.db := by
    intro r r' hr hr' _
    rw [List.mem_singleton.mp hr, List.mem_singleton.mp hr']
  have h := addresses_stay_unique hstart
    (reaches_annTwice AnyEnv trivial)
  refine ⟨h.left, fun body json hconfirmed heq => ?_⟩
  exact h.right untouched_annTwice 0 1 _ body _ json (by decide) ann_confirmed
    hconfirmed heq.symm

/-- Whatever interleaves and whatever fails, a stored password is a value that
bcrypt returned, or it was stored at the start. -/
theorem stored_passwords_come_from_bcrypt
    (hreach : Pool.Reaches (system ok) (startPool w tasks) pool) :
    forall r, r ∈ pool.shared.db.customers.rows ->
      (exists env password, ok env ∧ r.password = env.hash password) ∨
        exists r0, r0 ∈ w.db.customers.rows ∧ r0.password = r.password := by
  rcases reaches_accounts hreach with ⟨ghosts, hjoint, _⟩
  exact hjoint.all.left.hashed

def DefaultHash (env : Env) : Prop :=
  env.hash = ({} : Env).hash

theorem secret_is_stored_hashed :
    exists r, r ∈ annTwice.shared.db.customers.rows ∧ r.email = "ann@shop" ∧
      exists password, r.password = "bcrypt:" ++ password := by
  have hrow : (⟨2, "ann", "ann@shop", "bcrypt:secret", 0, 0, none⟩ : Customer) ∈
      annTwice.shared.db.customers.rows :=
    List.mem_cons_of_mem _ (List.mem_singleton_self _)
  refine ⟨_, hrow, rfl, ?_⟩
  rcases stored_passwords_come_from_bcrypt
      (reaches_annTwice DefaultHash rfl) _ hrow with
    ⟨env, password, hok, hstored⟩ | ⟨r0, hr0, hstored⟩
  · rw [hok] at hstored
    exact ⟨password, hstored⟩
  · rw [List.mem_singleton.mp hr0] at hstored
    exact absurd hstored (by decide)

end Results

end Accounts
end ExpressEcommerce
