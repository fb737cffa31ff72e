import ExpressEcommerce.Jobs.Steps
import ExpressEcommerce.Runs.Delivered

/-!
# The automatic lifecycle

When customers only place orders, the queue alone drives every order from
pending to delivered.  The run is recorded: who made each step, and who changed
the status of each order to what.  The invariant ties the record of an order and
the jobs known to the queue to its current status.
-/

namespace ExpressEcommerce
namespace Jobs

open Foundation
open Store
open Service
open Orders
open Products
open Runs

def statusOf (w : World) (id : Int) : Option Status :=
  (w.db.orders.find? id).map Order.status

/-- The record of a run. -/
structure History where
  actors : List Actor
  changes : Int -> List (Actor × Status)

namespace History

def empty : History where
  actors := []
  changes := fun _ => []

def record (hist : History) (a : Actor) (w w' : World) : History where
  actors := hist.actors ++ [a]
  changes := fun id =>
    match statusOf w' id with
    | none => hist.changes id
    | some status =>
        if statusOf w id = some status then hist.changes id
        else hist.changes id ++ [(a, status)]

theorem changes_record_same {hist : History} {a : Actor} {w w' : World}
    {id : Int} (h : statusOf w' id = statusOf w id) :
    (hist.record a w w').changes id = hist.changes id := by
  unfold record
  dsimp only
  rw [h]
  cases statusOf w id with
  | none => rfl
  | some status => exact if_pos rfl

theorem changes_record_new {hist : History} {a : Actor} {w w' : World}
    {id : Int} {status : Status} (h : statusOf w' id = some status)
    (hne : statusOf w id ≠ some status) :
    (hist.record a w w').changes id = hist.changes id ++ [(a, status)] := by
  unfold record
  dsimp only
  rw [h]
  exact if_neg hne

end History

def isAutomatic : Actor -> Bool
  | .request (.place _ _) => true
  | .request _ => false
  | .job _ => true

inductive Lifecycle (start : World) : History -> World -> Prop where
  | start : Lifecycle start .empty start
  | step {hist : History} {w w' : World} {a : Actor}
      (hbefore : Lifecycle start hist w) (ha : isAutomatic a = true)
      (hstep : QueueStep w a w') : Lifecycle start (hist.record a w w') w'

/-!
# The invariant of an order
-/

theorem sameFor_scheduleNext {id : Int} {job : Job} (q : Queue)
    (h : job.orderId ≠ id) : SameFor id q (scheduleNext q job) := by
  unfold scheduleNext
  cases nextStatusMap job.targetStatus with
  | none => exact SameFor.refl id q
  | some next => exact sameFor_add q h

/-- The statuses that jobs have set before a status is reached. -/
def setByJobs : Status -> List Status
  | .processing => [.processing]
  | .shipped => [.processing, .shipped]
  | .delivered => [.processing, .shipped, .delivered]
  | _ => []

theorem setByJobs_next {status next : Status}
    (h : nextStatusMap status = some next) :
    setByJobs next = setByJobs status ++ [next] := by
  cases status <;> cases h <;> rfl

theorem next_next_new {status next after : Status}
    (h : nextStatusMap status = some next)
    (h' : nextStatusMap next = some after) :
    after ∉ setByJobs status ∧ after ≠ next := by
  cases status <;> cases h <;> cases h' <;> decide

theorem not_mem_setByJobs_next {status next : Status}
    (h : nextStatusMap status = some next) : next ∉ setByJobs status := by
  cases status <;> cases h <;> decide

structure OnTrack (hist : History) (q : Queue) (id : Int) (status : Status) :
    Prop where
  opened : status ≠ .cancelled
  changes : exists token items, hist.changes id =
    (.request (.place token items), .pending) ::
      (setByJobs status).map (fun s => (.job ⟨id, s⟩, s))
  waiting : waitingFor q id =
    (nextStatusMap status).toList.map (fun next => ⟨id, next⟩)
  targets : forall s, known q ⟨id, s⟩ = true ->
    s ∈ setByJobs status ∨ nextStatusMap status = some s
  once : forall s, s ∈ setByJobs status ->
    hist.actors.count (.job ⟨id, s⟩) = 1

theorem OnTrack.frame {hist hist' : History} {q q' : Queue} {id : Int}
    {status : Status} (h : OnTrack hist q id status)
    (hchanges : hist'.changes id = hist.changes id)
    (hcount : forall s, hist'.actors.count (.job ⟨id, s⟩) =
      hist.actors.count (.job ⟨id, s⟩))
    (hqueue : SameFor id q q') : OnTrack hist' q' id status := by
  refine ⟨h.opened, ?_, hqueue.waiting.trans h.waiting,
    fun s hs => h.targets s (hqueue.targets s hs), fun s hs => ?_⟩
  · rw [hchanges]
    exact h.changes
  · rw [hcount]
    exact h.once s hs

theorem OnTrack.advance {hist hist' : History} {q : Queue} {id : Int}
    {status next : Status} (h : OnTrack hist q id status)
    (hnext : nextStatusMap status = some next)
    (hunexecuted : hist.actors.count (.job ⟨id, next⟩) = 0)
    (hactors : hist'.actors = hist.actors ++ [.job ⟨id, next⟩])
    (hchanges : hist'.changes id =
      hist.changes id ++ [(.job ⟨id, next⟩, next)]) :
    OnTrack hist' ((scheduleNext q ⟨id, next⟩).settle ⟨id, next⟩ .completed)
      id next := by
  have hwaiting : waitingFor q id = [⟨id, next⟩] := by
    rw [h.waiting, hnext]
    rfl
  have hnew : forall later, nextStatusMap next = some later ->
      known q ⟨id, later⟩ = false := by
    intro later hlater
    rcases next_next_new hnext hlater with ⟨hnot, hne⟩
    rw [← Bool.not_eq_true]
    intro hknown
    rcases h.targets later hknown with hset | hsame
    · exact hnot hset
    · rw [hnext] at hsame
      exact hne (Option.some.inj hsame).symm
  refine ⟨?_, ?_, ?_, ?_, ?_⟩
  · rintro rfl
    cases status <;> cases hnext
  · rcases h.changes with ⟨token, items, heq⟩
    refine ⟨token, items, ?_⟩
    rw [hchanges, heq, setByJobs_next hnext, List.map_append]
    rfl
  · rw [waitingFor_settle]
    unfold scheduleNext
    cases hlater : nextStatusMap next with
    | none =>
        dsimp only
        rw [hwaiting]
        simp
    | some later =>
        dsimp only
        rw [waitingFor_add, if_pos ⟨hnew later hlater, rfl⟩, hwaiting]
        simp [(next_next_new hnext hlater).right]
  · intro s hs
    rw [known_settle] at hs
    rw [setByJobs_next hnext, List.mem_append, List.mem_singleton]
    have hold : known q ⟨id, s⟩ = true ->
        (s ∈ setByJobs status ∨ s = next) ∨ nextStatusMap next = some s := by
      intro hknown
      rcases h.targets s hknown with hset | hsame
      · exact Or.inl (Or.inl hset)
      · rw [hnext] at hsame
        exact Or.inl (Or.inr (Option.some.inj hsame).symm)
    unfold scheduleNext at hs
    cases hlater : nextStatusMap next with
    | none =>
        dsimp only at hs
        rw [hlater] at hs
        have hcase := hold hs
        rw [hlater] at hcase
        exact hcase
    | some later =>
        dsimp only at hs
        rw [hlater] at hs
        rcases known_add.mp hs with hs | heq
        · have hcase := hold hs
          rw [hlater] at hcase
          exact hcase
        · cases heq
          exact Or.inr rfl
  · intro s hs
    rw [setByJobs_next hnext, List.mem_append, List.mem_singleton] at hs
    rw [hactors, List.count_append]
    rcases hs with hset | rfl
    · have hne : s ≠ next := by
        rintro rfl
        exact not_mem_setByJobs_next hnext hset
      rw [h.once s hset, List.count_singleton]
      simp [hne.symm]
    · rw [hunexecuted, List.count_singleton]
      simp

/-!
# The invariant of a run
-/

structure Inv (hist : History) (w : World) : Prop where
  items : w.db.NoDeletedItems
  keys : KeysBelow w
  unseen : forall id, w.db.orders.find? id = none -> hist.changes id = []
  track : forall id o, w.db.orders.find? id = some o ->
    o.deletedAt = none ∧ OnTrack hist w.queue id o.status
  unexecuted : forall job, isWaiting w.queue job ∨ known w.queue job = false ->
    hist.actors.count (.job job) = 0

theorem not_known_of_keys {w : World} {id : Int} (hkeys : KeysBelow w)
    (hid : w.db.orders.seq <= id) (status : Status) :
    known w.queue ⟨id, status⟩ = false := by
  rw [← Bool.not_eq_true]
  intro hknown
  rcases known_iff.mp hknown with ⟨e, he, hjob⟩
  have hlt := hkeys e he
  rw [hjob] at hlt
  exact absurd hlt (not_lt.mpr hid)

theorem waitingFor_of_keys {w : World} {id : Int} (hkeys : KeysBelow w)
    (hid : w.db.orders.seq <= id) : waitingFor w.queue id = [] := by
  rw [List.eq_nil_iff_forall_not_mem]
  intro job hjob
  rcases mem_waitingFor.mp hjob with ⟨hwaiting, rfl⟩
  exact absurd (hkeys _ hwaiting) (not_lt.mpr hid)

theorem count_record_request {hist : History} {t : RunTask} {w w' : World}
    (job : Job) :
    (hist.record (.request t) w w').actors.count (.job job) =
      hist.actors.count (.job job) := by
  unfold History.record
  rw [List.count_append, List.count_singleton]
  simp

theorem count_record_job {hist : History} {job other : Job} {w w' : World} :
    (hist.record (.job job) w w').actors.count (.job other) =
      hist.actors.count (.job other) + if job = other then 1 else 0 := by
  unfold History.record
  rw [List.count_append, List.count_singleton]
  simp

theorem unexecuted_add {actors : List Actor} {q : Queue} {job : Job}
    (h : forall other, isWaiting q other ∨ known q other = false ->
      actors.count (.job other) = 0) :
    forall other, isWaiting (q.add job) other ∨
      known (q.add job) other = false -> actors.count (.job other) = 0 := by
  rintro other (hwaiting | hunknown)
  · rcases isWaiting_add.mp hwaiting with hold | ⟨hnew, rfl⟩
    · exact h other (Or.inl hold)
    · exact h other (Or.inr hnew)
  · refine h other (Or.inr ?_)
    rw [← Bool.not_eq_true] at hunknown ⊢
    exact fun hknown => hunknown (known_add.mpr (Or.inl hknown))

theorem inv_noOrder {hist : History} {w w' : World} {t : RunTask}
    (hinv : Inv hist w) (hitems : w'.db.NoDeletedItems)
    (hkeys : KeysBelow w') (h : NoOrder w w') : Inv (hist.record (.request t) w w') w' := by
  have hfind := find?_of_rows h.grows.orders
  have hchanges : forall id,
      (hist.record (.request t) w w').changes id = hist.changes id := by
    intro id
    apply History.changes_record_same
    unfold statusOf
    rw [hfind]
  have hsame : forall id o, w.db.orders.find? id = some o ->
      SameFor id w.queue w'.queue := by
    intro id o ho
    rcases h.queue with hqueue | ⟨orphan, hle, _, hqueue⟩
    · rw [hqueue]
      exact SameFor.refl id _
    · rw [hqueue]
      apply sameFor_add
      rintro rfl
      exact absurd (Table.lt_seq_of_find? ho) (not_lt.mpr hle)
  refine ⟨hitems, hkeys, fun id hid => ?_, fun id o ho => ?_, ?_⟩
  · rw [hchanges]
    rw [hfind] at hid
    exact hinv.unseen id hid
  · rw [hfind] at ho
    rcases hinv.track id o ho with ⟨hlive, htrack⟩
    exact ⟨hlive, htrack.frame (hchanges id)
      (fun s => count_record_request _) (hsame id o ho)⟩
  · intro job
    rw [count_record_request]
    rcases h.queue with hqueue | ⟨_, _, _, hqueue⟩
    · rw [hqueue]
      exact hinv.unexecuted job
    · rw [hqueue]
      exact unexecuted_add hinv.unexecuted job

theorem inv_newOrder {hist : History} {w w' : World} {token : Token}
    {items : List ItemRequest} {d : Draft} {now : Nat} (hinv : Inv hist w)
    (hitems : w'.db.NoDeletedItems) (hkeys : KeysBelow w')
    (h : NewOrder w w' d now) :
    Inv (hist.record (.request (.place token items)) w w') w' := by
  rcases h.stored with ⟨mid, hgrows, hplaced⟩
  have hfree : w.db.orders.find? d.order.id = none :=
    (find?_of_rows hgrows.orders _).symm.trans hplaced.free
  have hself : w'.db.orders.find? d.order.id = some (d.placed now) := by
    rw [hplaced.order, if_pos rfl]
  have hother : forall id, id ≠ d.order.id ->
      w'.db.orders.find? id = w.db.orders.find? id := by
    intro id hne
    rw [hplaced.order, if_neg hne, find?_of_rows hgrows.orders]
  have hchanges : forall id, id ≠ d.order.id ->
      (hist.record (.request (.place token items)) w w').changes id =
        hist.changes id := by
    intro id hne
    apply History.changes_record_same
    unfold statusOf
    rw [hother id hne]
  refine ⟨hitems, hkeys, fun id hid => ?_, fun id o ho => ?_, fun job => ?_⟩
  · have hne : id ≠ d.order.id := by
      rintro rfl
      rw [hself] at hid
      cases hid
    rw [hchanges id hne]
    rw [hother id hne] at hid
    exact hinv.unseen id hid
  · by_cases hne : id = d.order.id
    · subst hne
      rw [hself] at ho
      cases ho
      have hstatus : (d.placed now).status = .pending := h.new.left
      refine ⟨h.new.right, ?_⟩
      rw [hstatus]
      have hnone := not_known_of_keys hinv.keys h.key.left
      refine ⟨(fun hc => by cases hc), ⟨token, items, ?_⟩, ?_, ?_, ?_⟩
      · refine (History.changes_record_new ?_ ?_).trans
          (congrArg (fun before => before ++ [(_, Status.pending)])
            (hinv.unseen _ hfree))
        · unfold statusOf
          rw [hself]
          exact congrArg some hstatus
        · unfold statusOf
          rw [hfree]
          exact fun hc => by cases hc
      · rw [h.queue, waitingFor_add, if_pos ⟨hnone .processing, rfl⟩,
          waitingFor_of_keys hinv.keys h.key.left]
        rfl
      · intro s hs
        rw [h.queue] at hs
        rcases known_add.mp hs with hold | heq
        · rw [hnone s] at hold
          cases hold
        · cases heq
          exact Or.inr rfl
      · intro s hs
        cases hs
    · rw [hother id hne] at ho
      rcases hinv.track id o ho with ⟨hlive, htrack⟩
      refine ⟨hlive, htrack.frame (hchanges id hne)
        (fun s => count_record_request _) ?_⟩
      rw [h.queue]
      exact sameFor_add _ (fun heq => hne heq.symm)
  · rw [count_record_request, h.queue]
    exact unexecuted_add hinv.unexecuted job

theorem unexecuted_settle {hist : History} {q : Queue} {job : Job}
    {w w' : World} (hknown : known q job = true)
    (h : forall other, isWaiting q other ∨ known q other = false ->
      hist.actors.count (.job other) = 0) :
    forall other, isWaiting (q.settle job .completed) other ∨
      known (q.settle job .completed) other = false ->
        (hist.record (.job job) w w').actors.count (.job other) = 0 := by
  intro other hcase
  rw [count_record_job]
  have hne : job ≠ other := by
    rintro rfl
    rcases hcase with hwaiting | hunknown
    · exact (isWaiting_settle.mp hwaiting).right rfl
    · rw [known_settle, hknown] at hunknown
      cases hunknown
  rw [if_neg hne, Nat.add_zero]
  rcases hcase with hwaiting | hunknown
  · exact h other (Or.inl (isWaiting_settle.mp hwaiting).left)
  · rw [known_settle] at hunknown
    exact h other (Or.inr hunknown)

theorem move_of_waiting {hist : History} {w : World} {job : Job} {o : Order}
    (hwaiting : isWaiting w.queue job)
    (ho : w.db.orders.find? job.orderId = some o) (hlive : o.deletedAt = none)
    (htrack : OnTrack hist w.queue job.orderId o.status) :
    nextStatusMap o.status = some job.targetStatus ∧
      (OrderTask.statusJob job).move w.db =
        some (o, .set job.targetStatus) := by
  have hmem : job ∈ waitingFor w.queue job.orderId :=
    mem_waitingFor.mpr ⟨hwaiting, rfl⟩
  rw [htrack.waiting] at hmem
  have hnext : nextStatusMap o.status = some job.targetStatus := by
    rcases List.mem_map.mp hmem with ⟨next, hnext, heq⟩
    rw [Option.mem_toList] at hnext
    rw [← heq]
    exact hnext
  exact ⟨hnext, move_of_next ho hlive hnext⟩

section Executed

variable {hist : History} {w w' : World} {job : Job}

theorem unexecuted_scheduleNext {actors : List Actor} {q : Queue}
    (h : forall other, isWaiting q other ∨ known q other = false ->
      actors.count (.job other) = 0) :
    forall other, isWaiting (scheduleNext q job) other ∨
      known (scheduleNext q job) other = false ->
        actors.count (.job other) = 0 := by
  unfold scheduleNext
  cases nextStatusMap job.targetStatus with
  | none => exact h
  | some next => exact unexecuted_add h

theorem known_scheduleNext {q : Queue} {other : Job}
    (h : known q other = true) : known (scheduleNext q job) other = true := by
  unfold scheduleNext
  cases nextStatusMap job.targetStatus with
  | none => exact h
  | some next => exact known_add.mpr (Or.inl h)

theorem onTrack_otherJob {id : Int} {o : Order} (hinv : Inv hist w)
    (hne : id ≠ job.orderId) (ho : w.db.orders.find? id = some o)
    (hsame : w'.db.orders.find? id = w.db.orders.find? id)
    (hqueue : SameFor id w.queue w'.queue) :
    o.deletedAt = none ∧
      OnTrack (hist.record (.job job) w (complete w' job))
        (complete w' job).queue id o.status := by
  rcases hinv.track id o ho with ⟨hlive, htrack⟩
  refine ⟨hlive, htrack.frame ?_ ?_
    (hqueue.trans (sameFor_settle _ hne.symm))⟩
  · apply History.changes_record_same
    unfold statusOf complete
    rw [hsame]
  · intro s
    rw [count_record_job, if_neg (fun heq => hne (by rw [heq])), Nat.add_zero]

theorem unseen_otherJob {id : Int} (hinv : Inv hist w)
    (hsame : w'.db.orders.find? id = w.db.orders.find? id)
    (hnone : w'.db.orders.find? id = none) :
    (hist.record (.job job) w (complete w' job)).changes id = [] := by
  rw [History.changes_record_same]
  · exact hinv.unseen id (hsame.symm.trans hnone)
  · unfold statusOf complete
    rw [hsame]

theorem inv_orphanJob (hinv : Inv hist w) (hitems : w'.db.NoDeletedItems)
    (hkeys : KeysBelow (complete w' job)) (hwaiting : isWaiting w.queue job)
    (hnone : w.db.orders.find? job.orderId = none)
    (h : Executes Healthy w (.statusJob job) .returned w') :
    Inv (hist.record (.job job) w (complete w' job)) (complete w' job) := by
  have heffect := executes_statusJob hinv.items h
  have hmove : (OrderTask.statusJob job).move w.db = none := by
    dsimp only [OrderTask.move, Database.order?]
    rw [hnone]
    rfl
  rw [hmove] at heffect
  rcases heffect with ⟨hdb, hqueue⟩
  have hfind : forall id,
      w'.db.orders.find? id = w.db.orders.find? id := fun id => by rw [hdb]
  refine ⟨hitems, hkeys, fun id hid => unseen_otherJob hinv (hfind id) hid,
    fun id o ho => ?_, ?_⟩
  · have hold : w.db.orders.find? id = some o := (hfind id).symm.trans ho
    refine onTrack_otherJob hinv ?_ hold (hfind id) ?_
    · rintro rfl
      rw [hnone] at hold
      cases hold
    · rw [hqueue]
      exact SameFor.refl _ _
  · show forall other, isWaiting (w'.queue.settle job .completed) other ∨
      known (w'.queue.settle job .completed) other = false -> _
    rw [hqueue]
    exact unexecuted_settle (known_of_waiting hwaiting) hinv.unexecuted

theorem inv_orderJob {o : Order} (hinv : Inv hist w)
    (hitems : w'.db.NoDeletedItems) (hkeys : KeysBelow (complete w' job))
    (hwaiting : isWaiting w.queue job)
    (ho : w.db.orders.find? job.orderId = some o)
    (h : Executes Healthy w (.statusJob job) .returned w') :
    Inv (hist.record (.job job) w (complete w' job)) (complete w' job) := by
  have heffect := executes_statusJob hinv.items h
  rcases hinv.track _ o ho with ⟨hlive, htrack⟩
  rcases move_of_waiting hwaiting ho hlive htrack with ⟨hnext, hmove⟩
  rw [hmove] at heffect
  rcases heffect with ⟨hmoved, hqueue⟩
  rcases hmoved.replaced with ⟨now, deletedAt, hdeleted, hrep⟩
  have hid : o.id = job.orderId := (Table.find?_eq_some_iff.mp ho).right
  have hself : w'.db.orders.find? job.orderId =
      some { o with status := job.targetStatus, deletedAt := deletedAt,
                    updatedAt := now } := by
    rw [hrep.find?, if_pos hid.symm]
    rfl
  have hother : forall id, id ≠ job.orderId ->
      w'.db.orders.find? id = w.db.orders.find? id := by
    intro id hne
    rw [hrep.find?, hid, if_neg hne]
  have hsame : deletedAt.isSome = o.deletedAt.isSome := hdeleted
  rw [hlive] at hsame
  refine ⟨hitems, hkeys, fun id hnone => ?_, fun id o' ho' => ?_, ?_⟩
  · have hne : id ≠ job.orderId := by
      rintro rfl
      have hgone : w'.db.orders.find? job.orderId = none := hnone
      rw [hself] at hgone
      cases hgone
    exact unseen_otherJob hinv (hother id hne) hnone
  · have hrow : w'.db.orders.find? id = some o' := ho'
    by_cases hne : id = job.orderId
    · subst hne
      rw [hself] at hrow
      cases hrow
      refine ⟨Option.isSome_eq_false_iff.mp hsame |> Option.isNone_iff_eq_none.mp,
        ?_⟩
      show OnTrack _ (w'.queue.settle job .completed) _ _
      rw [hqueue]
      refine htrack.advance hnext (hinv.unexecuted job (Or.inl hwaiting)) rfl
        (History.changes_record_new ?_ ?_)
      · unfold statusOf complete
        rw [hself]
        rfl
      · unfold statusOf
        rw [ho]
        intro hstatus
        exact next_ne hnext (Option.some.inj hstatus).symm
    · rw [hother id hne] at hrow
      refine onTrack_otherJob hinv hne hrow (hother id hne) ?_
      rw [hqueue]
      exact sameFor_scheduleNext _ (fun heq => hne heq.symm)
  · show forall other, isWaiting (w'.queue.settle job .completed) other ∨
      known (w'.queue.settle job .completed) other = false -> _
    rw [hqueue]
    exact unexecuted_settle (known_scheduleNext (known_of_waiting hwaiting))
      (unexecuted_scheduleNext hinv.unexecuted)

end Executed

theorem isOrderActor_of_isAutomatic {a : Actor} (h : isAutomatic a = true) :
    isOrderActor a = true := by
  cases a with
  | request t => cases t <;> first | rfl | cases h
  | job job => rfl

theorem inv_step {hist : History} {w w' : World} {a : Actor}
    (hinv : Inv hist w) (ha : isAutomatic a = true) (h : QueueStep w a w') :
    Inv (hist.record a w w') w' := by
  have hitems := noDeleted_queueStep hinv.items h
  have hkeys := keysBelow_step hinv.items hinv.keys
    (isOrderActor_of_isAutomatic ha) h
  cases h with
  | @request _ t out hexec hfinishes =>
      cases t with
      | place token items =>
          rcases executes_place hexec with hnone | ⟨d, now, hnew⟩
          · exact inv_noOrder hinv hitems hkeys hnone
          · exact inv_newOrder hinv hitems hkeys hnew
      | order | product => cases ha
  | @job w1 job hwaiting hexec =>
      cases ho : w.db.orders.find? job.orderId with
      | none => exact inv_orphanJob hinv hitems hkeys hwaiting ho hexec
      | some o => exact inv_orderJob hinv hitems hkeys hwaiting ho hexec

theorem inv_lifecycle {start w : World} {hist : History}
    (hempty : start.db.orders.rows = [])
    (hqueue : KeysBelow start)
    (h : Lifecycle start hist w) : Inv hist w := by
  induction h with
  | start =>
      have hnone : forall id, start.db.orders.find? id = none := by
        intro id
        unfold Table.find?
        rw [hempty]
        rfl
      refine ⟨fun i hi => ?_, hqueue, fun _ _ => rfl, fun id o ho => ?_,
        fun _ _ => rfl⟩
      · have hsome := start.db.itemOrder i hi
        rw [hnone] at hsome
        cases hsome
      · rw [hnone] at ho
        cases ho
  | step _ ha hstep ih => exact inv_step ih ha hstep

/-- Every committed order has gone through a prefix of the lifecycle.  Its first
status comes from the request that placed it, each later one from the single
execution of the job with that target; until it is delivered exactly one job
waits for it, the one of the next status. -/
theorem orders_follow_the_lifecycle {start w : World} {hist : History}
    (hempty : start.db.orders.rows = [])
    (hqueue : KeysBelow start)
    (h : Lifecycle start hist w) {id : Int} {o : Order}
    (ho : w.db.orders.find? id = some o) :
    (hist.changes id).map Prod.snd <+:
        [.pending, .processing, .shipped, .delivered] ∧
      ((hist.changes id).map Prod.snd).getLast? = some o.status ∧
      (forall a s, (a, s) ∈ hist.changes id ->
        (s = .pending ∧ exists token items, a = .request (.place token items)) ∨
        (s ≠ .pending ∧ a = .job ⟨id, s⟩ ∧ hist.actors.count a = 1)) ∧
      (o.status ≠ .delivered -> exists next,
        nextStatusMap o.status = some next ∧
          waitingFor w.queue id = [⟨id, next⟩]) ∧
      (o.status = .delivered -> waitingFor w.queue id = []) := by
  rcases (inv_lifecycle hempty hqueue h).track id o ho with ⟨_, htrack⟩
  rcases htrack.changes with ⟨token, items, hchanges⟩
  have hstatuses : (hist.changes id).map Prod.snd =
      .pending :: setByJobs o.status := by
    rw [hchanges, List.map_cons, List.map_map]
    simp [Function.comp_def]
  have hopened := htrack.opened
  refine ⟨?_, ?_, fun a s hmem => ?_, fun hopen => ?_, fun hdelivered => ?_⟩
  · rw [hstatuses]
    cases hstatus : o.status <;> decide
  · rw [hstatuses]
    cases hstatus : o.status with
    | cancelled => exact absurd hstatus hopened
    | _ => rfl
  · rw [hchanges] at hmem
    rcases List.mem_cons.mp hmem with hfirst | hlater
    · cases hfirst
      exact Or.inl ⟨rfl, token, items, rfl⟩
    · rcases List.mem_map.mp hlater with ⟨s', hs', heq⟩
      cases heq
      refine Or.inr ⟨?_, rfl, htrack.once s hs'⟩
      rintro rfl
      cases hstatus : o.status <;> rw [hstatus] at hs' <;> revert hs' <;>
        decide
  · have hwaiting := htrack.waiting
    cases hnext : nextStatusMap o.status with
    | none =>
        cases hstatus : o.status with
        | delivered => exact absurd hstatus hopen
        | cancelled => exact absurd hstatus hopened
        | pending | processing | shipped =>
            rw [hstatus] at hnext
            cases hnext
    | some next =>
        rw [hnext] at hwaiting
        exact ⟨next, rfl, hwaiting⟩
  · have hwaiting := htrack.waiting
    rw [hdelivered] at hwaiting
    exact hwaiting

/-- The world after Bull has executed a job that nothing disturbs. -/
def executed (w : World) (job : Job) : World :=
  complete ((Task.statusJob job).perform w).2 job

theorem step_executed {w : World} {job : Job} (hwaiting : isWaiting w.queue job)
    (hreturned : ((Task.statusJob job).perform w).1 = .returned) :
    QueueStep w (.job job) (executed w job) := by
  have hexec := executes_perform (.statusJob job) w
  rw [hreturned] at hexec
  exact QueueStep.job hwaiting hexec

theorem queueStep_after {w : World} {t : RunTask}
    (hfinishes : t.Finishes (t.task.perform w).1) :
    QueueStep w (.request t) (after w t) :=
  QueueStep.request (executes_after w t) hfinishes

theorem queueStep_shopWithOrder :
    QueueStep shop (.request (.place (.valid 1) [⟨1, 2⟩])) shopWithOrder :=
  queueStep_after trivial

/-- Two pens are ordered and the first job is executed. -/
theorem placed_order_waits_for_shipping :
    waitingFor (executed shopWithOrder ⟨1, .processing⟩).queue 1 =
      [⟨1, .shipped⟩] := by
  have hjob : QueueStep shopWithOrder (.job ⟨1, .processing⟩)
      (executed shopWithOrder ⟨1, .processing⟩) :=
    step_executed (by decide) (by decide)
  have hempty : shop.db.orders.rows = [] := rfl
  have hqueue : KeysBelow shop := by
    intro e he
    cases he
  have hrow : (executed shopWithOrder ⟨1, .processing⟩).db.orders.find? 1 =
      some ⟨1, 1, 500, .processing, 0, 0, none⟩ := by decide
  have hfacts := orders_follow_the_lifecycle hempty hqueue
    (.step (.step .start rfl queueStep_shopWithOrder) rfl hjob) hrow
  rcases hfacts.right.right.right.left (fun h => by cases h) with
    ⟨next, hnext, hwaiting⟩
  cases hnext
  exact hwaiting

end Jobs
end ExpressEcommerce
