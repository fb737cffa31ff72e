import ExpressEcommerce.Access.Writes
import ExpressEcommerce.Caching.Upkeep
import ExpressEcommerce.Foundation.Traces

/-!
# Cached statuses once everything has settled

A reader fills the cache some time after it has read the order, and the hooks of
a transaction clear the key before the transaction commits.  Either gap lets an
old status stay in the cache when all requests and jobs have ended.  If no write
of an order becomes visible in the first gap, and nobody fills its key in the
second, then no old status stays.
-/

namespace ExpressEcommerce
namespace Caching

open Foundation
open Store
open Service
open Runs
open Access

def FreshStatus (db : Database) (id : Int) (value : CacheValue) : Prop :=
  exists json o, value = .order json ∧ db.orders.find? id = some o ∧
    o.deletedAt = none ∧ o.status = json.order.status

def CacheSettled (w : World) : Prop :=
  forall id value, w.cache.get (orderKey id) = some value ->
    FreshStatus w.db id value

/-!
# Schedules
-/

/-- A command of a request or a job, with the log of its transaction. -/
abbrev Sent : Type := Event service Tx

/-- `getOrderById` reads the order. -/
def Selects (id : Int) (e : Sent) : Prop :=
  e.cmd = .query false (.orderByPk id true everything)

def Fills (id : Int) (e : Sent) : Prop :=
  exists value, e.cmd = .redisSet (orderKey id) value

def Clears (id : Int) (e : Sent) : Prop :=
  e.cmd = .redisDel (orderKey id)

/-- The transaction that is committed has changed the order. -/
def Commits (id : Int) (e : Sent) : Prop :=
  e.cmd = .commit ∧ (TableName.orders, id) ∈ logged e.here

/-- A change of the order becomes visible. -/
def Publishes (id : Int) (e : Sent) : Prop :=
  e.succeeded = true ∧
    ((exists u : Change, e.cmd = .update false u ∧ u.row = (.orders, id)) ∨
      Commits id e)

/-- No change of an order becomes visible between the query of a reader and its
fill, and nobody fills the key of an order between the call that clears it and
the commit of the same transaction. -/
structure Undisturbed (trace : List Sent) : Prop where
  fills : forall id, Uninterrupted (Selects id) (Publishes id) (Fills id) trace
  commits : forall id, Uninterrupted (Clears id) (Fills id) (Commits id) trace

theorem Undisturbed.before {trace : List Sent} {e : Sent}
    (h : Undisturbed (trace ++ [e])) : Undisturbed trace :=
  ⟨fun id => (h.fills id).before, fun id => (h.commits id).before⟩

theorem FreshStatus.found {db : Database} {id : Int} {value : CacheValue}
    (h : FreshStatus db id value) : Found db (.orders, id) := by
  rcases h with ⟨json, o, _, ho, _⟩
  exact ⟨o, ho⟩

theorem FreshStatus.same {db db' : Database} {id : Int} {value : CacheValue}
    (h : FreshStatus db id value) (hrow : SameRow db db' (.orders, id)) :
    FreshStatus db' id value := by
  rcases h with ⟨json, o, hvalue, ho, hlive, hstatus⟩
  exact ⟨json, o, hvalue, Eq.trans hrow ho, hlive, hstatus⟩

/-!
# The invariant

A cached order is fresh, or some task still has to clear its key.
-/

def Owed (ghosts : List (Duty × Tx)) (key : String) : Prop :=
  exists (i : Nat) (duty : Duty) (tx : Tx),
    ghosts[i]? = some (duty, tx) ∧ duty.Owes key

theorem owed_set_self {ghosts : List (Duty × Tx)} {i : Nat} {duty : Duty}
    {tx : Tx} {key : String} (hi : i < ghosts.length) (h : duty.Owes key) :
    Owed (ghosts.set i (duty, tx)) key :=
  ⟨i, duty, tx, List.getElem?_set_self hi, h⟩

theorem owed_set {ghosts : List (Duty × Tx)} {i : Nat} {duty duty' : Duty}
    {tx tx' : Tx} {key : String} (hi : ghosts[i]? = some (duty, tx))
    (h : Owed ghosts key) (hself : duty.Owes key -> duty'.Owes key) :
    Owed (ghosts.set i (duty', tx')) key := by
  rcases h with ⟨j, other, there, hj, howes⟩
  by_cases hij : i = j
  · subst hij
    rw [hi] at hj
    cases hj
    exact owed_set_self (List.getElem?_eq_some_iff.mp hi).1 (hself howes)
  · refine ⟨j, other, there, ?_, howes⟩
    rw [List.getElem?_set_ne hij]
    exact hj

def Settling (w : World) (ghosts : List (Duty × Tx)) : Prop :=
  forall id value, w.cache.get (orderKey id) = some value ->
    FreshStatus w.db id value ∨ Owed ghosts (orderKey id)

/-- What is known of one thread: the order that a reader holds is fresh unless
a change has become visible since, and an order in the log of the transaction is
not cached unless its key is still to be cleared or has been filled since. -/
structure Kept (trace : List Sent) (i : Nat) (w : World) (duty : Duty)
    (tx : Tx) : Prop where
  holds : forall id graph, duty = .holding (.order id graph) ->
    Since i (Selects id) (Publishes id)
      (FreshStatus w.db id (.order (fullOrder graph))) trace
  cleared : forall id, (TableName.orders, id) ∈ logged tx ->
    duty.Owes (orderKey id) ∨
      Since i (Clears id) (Fills id) (w.cache.get (orderKey id) = none) trace

structure Overseen (trace : List Sent) (w : World)
    (ghosts : List (Duty × Tx)) : Prop where
  settling : Settling w ghosts
  each : forall i duty tx, ghosts[i]? = some (duty, tx) ->
    Kept trace i w duty tx

section Command

variable {w w' : World} {tx tx' : Tx} {duty duty' : Duty} {c : Cmd}
variable {r : service.Reply c} {i : Nat} {trace : List Sent}

theorem sameRow_of_error {ok : Cmd -> Env -> Prop} {e : String}
    (h : NextIn ok (w, tx) c (.error e) (w', tx')) (row : TableName × Int) :
    SameRow w.db w'.db row := by
  rcases h with ⟨env, _, hexec⟩
  cases c <;> dsimp only [exec] at hexec <;> repeat' split at hexec
  all_goals cases hexec
  all_goals first | exact SameRow.refl _ _ | exact sameRow_reserve _ _ _

theorem sameRow_of_unpublished {ok : Cmd -> Env -> Prop} {id : Int}
    (hfound : Found w.db (.orders, id))
    (hnext : NextIn ok (w, tx) c r (w', tx'))
    (hturned : Turned w tx duty c w' tx' duty')
    (hquiet : ¬ Publishes id ⟨i, tx, c, r.isOk⟩) :
    SameRow w.db w'.db (.orders, id) := by
  cases r with
  | error e => exact sameRow_of_error hnext _
  | ok a =>
      cases hturned with
      | still hdb _ _ _ =>
          rw [hdb]
          exact SameRow.refl _ _
      | reserved name => exact sameRow_reserve _ _ _
      | inserted inTx new now hrecord =>
          refine (sameRow_reserve w.db new.table _).trans
            (record_row hrecord ?_)
          intro hrow
          rw [hrow] at hfound
          exact not_found_new hfound
      | updated inTx u now _ hrecord =>
          cases inTx with
          | true =>
              cases hrecord
              exact SameRow.refl _ _
          | false =>
              refine record_row hrecord (fun hrow => hquiet ?_)
              exact ⟨rfl, Or.inl ⟨u, rfl, hrow.symm⟩⟩
      | committed log hlog =>
          refine Database.sameRow_writeAll_of_found _ _ hfound
            (fun hrow => hquiet ⟨rfl, Or.inr ⟨rfl, ?_⟩⟩)
          subst hlog
          exact hrow
      | cleared | hit | fetched | filled => exact SameRow.refl _ _

theorem get_of_unfilled {id : Int} {succeeded : Bool}
    (hnone : w.cache.get (orderKey id) = none)
    (hturned : Turned w tx duty c w' tx' duty')
    (hquiet : ¬ Fills id ⟨i, tx, c, succeeded⟩) :
    w'.cache.get (orderKey id) = none := by
  cases hget : w'.cache.get (orderKey id) with
  | none => rfl
  | some value =>
      rcases turned_get hturned hget with
        hold | ⟨found, text, _, rfl, _, hkey, _⟩
      · rw [hnone] at hold
        cases hold
      · refine absurd ⟨found.value, ?_⟩ hquiet
        rw [hkey]

theorem Kept.other {ok : Cmd -> Env -> Prop} {j : Nat} {other : Duty}
    {there : Tx} (h : Kept trace j w other there)
    (hnext : NextIn ok (w, tx) c r (w', tx'))
    (hturned : Turned w tx duty c w' tx' duty') :
    Kept (trace ++ [⟨i, tx, c, r.isOk⟩]) j w' other there := by
  constructor
  · intro id graph hduty
    refine (h.holds id graph hduty).snoc (fun hquiet hfresh => ?_)
    exact hfresh.same
      (sameRow_of_unpublished hfresh.found hnext hturned hquiet)
  · intro id hrow
    rcases h.cleared id hrow with howes | hsince
    · exact Or.inl howes
    · exact Or.inr (hsince.snoc (fun hquiet hnone =>
        get_of_unfilled hnone hturned hquiet))

theorem freshStatus_of_from {id : Int} {graph : OrderGraph}
    (hfrom : (Fetched.order id graph).From w.db) :
    FreshStatus w.db id (.order (fullOrder graph)) := by
  rcases Option.map_eq_some_iff.mp hfrom with ⟨o, ho, rfl⟩
  rcases Database.order?_true_eq_some_iff.mp ho with ⟨hrow, hlive⟩
  exact ⟨_, o, rfl, hrow, hlive, rfl⟩

theorem Kept.self {ok : Cmd -> Env -> Prop}
    (h : Kept trace i w duty tx) (hnext : NextIn ok (w, tx) c r (w', tx'))
    (hturned : Turned w tx duty c w' tx' duty') :
    Kept (trace ++ [⟨i, tx, c, r.isOk⟩]) i w' duty' tx' := by
  have hlater := h.other (i := i) hnext hturned
  constructor
  · intro id graph hduty
    subst hduty
    cases hturned with
    | still _ _ _ _ => exact hlater.holds id graph rfl
    | fetched _ hfrom =>
        have hselects : Selects id ⟨i, tx, (Fetched.order id graph).select,
            Except.isOk r⟩ := Eq.refl _
        exact .start hselects rfl (freshStatus_of_from hfrom) trace
  · intro id hrow
    rcases turned_logged rfl (minds_order id duty) hturned hrow with
      hbefore | howes
    · rcases h.cleared id hbefore with howes | hsince
      · rcases turned_owes howes hturned with hstill | ⟨hclears, hnone⟩
        · exact Or.inl hstill
        · exact Or.inr (.start hclears rfl hnone trace)
      · exact Or.inr (hsince.snoc (fun hquiet hnone =>
          get_of_unfilled hnone hturned hquiet))
    · exact Or.inl howes

theorem settling_turned {ghosts : List (Duty × Tx)}
    (h : Overseen trace w ghosts) (hi : ghosts[i]? = some (duty, tx))
    (hundisturbed : Undisturbed (trace ++ [⟨i, tx, c, r.isOk⟩]))
    (hturned : Turned w tx duty c w' tx' duty') :
    Settling w' (ghosts.set i (duty', tx')) := by
  have hlt : i < ghosts.length := (List.getElem?_eq_some_iff.mp hi).1
  have hkept := h.each i duty tx hi
  intro id value hget
  rcases turned_get hturned hget with
    hold | ⟨found, text, rfl, rfl, hid, hkey, rfl, hdb⟩
  · rcases h.settling id value hold with hfresh | howed
    · rcases turned_row rfl hfresh.found (minds_order _ _) hturned with
        hrow | howes | ⟨rfl, hlogged⟩
      · exact Or.inl (hfresh.same hrow)
      · exact Or.inr (owed_set_self hlt howes)
      · -- the commit of an earlier change: its key is owed or absent
        rcases hkept.cleared id hlogged with howes | hsince
        · rcases turned_owes howes hturned with hstill | ⟨hno, _⟩
          · exact Or.inr (owed_set_self hlt hstill)
          · cases hno
        · rw [hsince.holds (hundisturbed.commits id) ⟨rfl, hlogged⟩ rfl] at hold
          cases hold
    · refine Or.inr (owed_set hi howed (fun howes => ?_))
      rcases turned_owes howes hturned with hstill | ⟨_, hnone⟩
      · exact hstill
      · rw [hnone] at hget
        cases hget
  · rcases id_of_orderKey hkey hid with ⟨_, graph, rfl⟩
    have hfills : Fills id ⟨i, tx, .redisSet (Fetched.key text (.order id graph))
        (Fetched.value (.order id graph)), r.isOk⟩ := ⟨_, by rw [hkey]⟩
    rw [hdb]
    exact Or.inl ((hkept.holds id graph rfl).holds (hundisturbed.fills id)
      hfills rfl)

end Command

theorem overseen_step {trace : List Sent} {w w' : World}
    {ghosts : List (Duty × Tx)} {i : Nat} {duty : Duty} {tx tx' : Tx} {c : Cmd}
    {r : service.Reply c}
    (hundisturbed : Undisturbed (trace ++ [⟨i, tx, c, r.isOk⟩]))
    (h : Overseen trace w ghosts) (hi : ghosts[i]? = some (duty, tx))
    (hmay : duty.may c) (hnext : NextIn RedisUp (w, tx) c r (w', tx')) :
    exists duty', duty.next True c r duty' ∧
      Overseen (trace ++ [⟨i, tx, c, r.isOk⟩]) w'
        (ghosts.set i (duty', tx')) := by
  have hup : True -> forall key, c = .redisDel key -> ¬ MayFail (RedisUp c) := by
    rintro _ key rfl
    exact not_mayFail_healthy
  rcases turned_step hup hmay hnext with ⟨duty', hduty, hturned⟩
  refine ⟨duty', hduty, settling_turned h hi hundisturbed hturned, ?_⟩
  intro j other there hj
  by_cases hij : i = j
  · subst hij
    rw [List.getElem?_set_self (List.getElem?_eq_some_iff.mp hi).1] at hj
    cases hj
    exact (h.each i duty tx hi).self hnext hturned
  · rw [List.getElem?_set_ne hij] at hj
    exact (h.each j other there hj).other hnext hturned

theorem not_owes_of_ended {a : Activity} {out : Outcome} {duty : Duty}
    {key : String} (h : a.Ended True out duty) : ¬ duty.Owes key := by
  have hcleared : forall {rights : Rights}, Cleared True rights duty ->
      ¬ duty.Owes key := by
    rintro rights ⟨keys, rfl, hkeys⟩ howes
    rw [hkeys trivial] at howes
    cases howes
  cases a with
  | expiry other => exact hcleared h
  | task t =>
      cases hreader : isReader t with
      | false => exact hcleared (h.cleared hreader)
      | true =>
          have hreading := h.reading hreader
          cases duty with
          | owing rights keys => cases hreading
          | _ => exact not_false

def Ended (pool : Tasks) : Prop :=
  forall t, t ∈ pool.threads -> exists out, t.prog = .ret out

theorem overseen_start {start : World} (activities : List Activity)
    (h : CacheSettled start) :
    Overseen [] start (activities.map (fun a => (a.duty, (none : Tx)))) := by
  refine ⟨fun id value hget => Or.inl (h id value hget), ?_⟩
  intro i duty tx hi
  rw [List.getElem?_map] at hi
  rcases Option.map_eq_some_iff.mp hi with ⟨a, _, heq⟩
  cases heq
  refine ⟨fun id graph hholds => ?_, fun id hno => by cases hno⟩
  cases a with
  | expiry key => cases hholds
  | task t =>
      have hduty : dutyOf t = .holding (.order id graph) := hholds
      unfold dutyOf at hduty
      split at hduty <;> cases hduty

/-- In every interleaving of requests, jobs and expiring keys that is not
disturbed: once all have ended, every order that is still cached is live and has
the cached status. -/
theorem settled_of_undisturbed {start : World} {activities : List Activity}
    {trace : List Sent} {pool : Tasks} (hstart : CacheSettled start)
    (htrace : Pool.Traces (systemIn RedisUp) (busyPool start activities) trace
      pool)
    (hundisturbed : Undisturbed trace) (hended : Ended pool) :
    CacheSettled pool.shared := by
  rcases Pool.traces_covered Undisturbed.before overseen_step
    (overseen_start activities hstart) (covered_busyPool True start activities)
    htrace hundisturbed with ⟨ghosts, hoverseen, hcovered⟩
  intro id value hget
  rcases hoverseen.settling id value hget with hfresh | ⟨i, duty, tx, hi, howes⟩
  · exact hfresh
  · -- the task that owes the key has ended, so it owes nothing
    rcases hcovered.ended hended hi with ⟨out, a, _, hdone⟩
    exact absurd howes (not_owes_of_ended hdone)

theorem cacheSettled_firstOrdered : CacheSettled firstOrdered := by
  intro id value hget
  have hempty : firstOrdered.cache = [] := rfl
  rw [hempty] at hget
  cases hget

/-- A request for the order overlaps one that changes its status. -/
def readAndPatch : List Activity :=
  [.task (.request (.getOrderById (.valid 1) "1")),
    .task (.request (.patchOrderStatus (.valid 1) "1" (some "processing")))]

/-- The two requests after some turns. -/
def readAndPatchAfter (turns : List Nat) : Tasks :=
  (busyPool firstOrdered readAndPatch).schedule (exec {}) free turns

def readAndPatchTrace (turns : List Nat) : List Sent :=
  Pool.traceOf (exec {}) free (busyPool firstOrdered readAndPatch) turns

theorem traces_readAndPatch (turns : List Nat) :
    Pool.Traces (systemIn RedisUp) (busyPool firstOrdered readAndPatch)
      (readAndPatchTrace turns) (readAndPatchAfter turns) :=
  Pool.traces_schedule (S := systemIn RedisUp)
    (fun c _ => ⟨{}, redisUp_default c, rfl⟩)
    (fun _ _ h => enabled_of_free h) .nil turns

theorem ended_of_threads {pool : Tasks} {first second : Outcome}
    (h : pool.threads = [⟨none, .ret first⟩, ⟨none, .ret second⟩]) :
    Ended pool := by
  intro t ht
  rw [h] at ht
  rcases List.mem_cons.mp ht with rfl | ht
  · exact ⟨_, rfl⟩
  · rw [List.mem_singleton.mp ht]
    exact ⟨_, rfl⟩

/-- The status is changed after the reader has missed the key and before it reads
the order. -/
def readLate : List Nat :=
  [0, 0, 1, 1, 1, 1, 0, 0]

theorem late_read_settles :
    Undisturbed (readAndPatchTrace readLate) ∧
      Ended (readAndPatchAfter readLate) ∧
      CacheSettled (readAndPatchAfter readLate).shared := by
  have hended : Ended (readAndPatchAfter readLate) := ended_of_threads rfl
  have htrace : readAndPatchTrace readLate =
      [⟨0, none, .query false (.customerByPk _ _), true⟩,
        ⟨0, none, .redisGet _, true⟩,
        ⟨1, none, .query false (.customerByPk _ _), true⟩,
        ⟨1, none, .query false (.orderByPk _ _ {}), true⟩,
        ⟨1, none, .update false (.orderStatus _ _), true⟩,
        ⟨1, none, .redisDel _, true⟩] ++
      [⟨0, none, .query false (.orderByPk _ _ _), true⟩,
        ⟨0, none, .redisSet _ _, true⟩] := rfl
  have hundisturbed : Undisturbed (readAndPatchTrace readLate) := by
    rw [htrace]
    constructor
    · intro id
      apply uninterrupted_append
      · simp [Selects, everything]
      · simp [Publishes, Commits]
    · intro id
      apply uninterrupted_of_no_end
      simp [Commits]
  exact ⟨hundisturbed, hended, settled_of_undisturbed cacheSettled_firstOrdered
    (traces_readAndPatch readLate) hundisturbed hended⟩

/-- The reader has fetched the order when the status is changed and the key is
cleared; then it fills the cache. -/
def fillLate : List Nat :=
  [0, 0, 0, 1, 1, 1, 1, 1, 1, 0]

theorem late_fill_keeps_old_status :
    Pool.Reaches (systemIn RedisUp) (busyPool firstOrdered readAndPatch)
      (readAndPatchAfter fillLate) ∧ CacheSettled firstOrdered ∧
      Ended (readAndPatchAfter fillLate) ∧
      ¬ CacheSettled (readAndPatchAfter fillLate).shared := by
  refine ⟨Pool.reaches_iff_traces.mpr ⟨_, traces_readAndPatch fillLate⟩,
    cacheSettled_firstOrdered, ended_of_threads rfl, ?_⟩
  intro h
  rcases h 1 _ rfl with ⟨json, o, hvalue, ho, _, hstatus⟩
  cases hvalue
  cases ho
  cases hstatus

end Caching
end ExpressEcommerce
