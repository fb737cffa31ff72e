import ExpressEcommerce.Jobs.Lifecycle

/-!
# Stalled orders

An order that is not delivered yet depends on a waiting job for its next status.
Requests that change the status leave the queue as it is, a restored order is
pending again without any job being scheduled, and a job id that was used once
cannot be used again.  A step keeps every order supplied exactly when the status
it sets already has its job, or, for the execution of a job, when the id of the
next job is still free.
-/

namespace ExpressEcommerce
namespace Jobs

open Foundation
open Store
open Service
open Orders
open Products
open Runs

/-- Every live order with a next status has a waiting job for it. -/
def NoStall (w : World) : Prop :=
  forall id o next, w.db.orders.find? id = some o -> o.deletedAt = none ->
    nextStatusMap o.status = some next -> isWaiting w.queue ⟨id, next⟩

/-- The condition on a step, read off the world before it. -/
def Continues (w : World) : Actor -> Prop
  | .request (.order t) => forall o m next,
      t.effective w.db = some (o, m) -> nextStatusMap m.status = some next ->
        isWaiting w.queue ⟨o.id, next⟩
  | .request _ => True
  | .job job => forall o m next,
      (OrderTask.statusJob job).move w.db = some (o, m) ->
        nextStatusMap m.status = some next ->
          isWaiting w.queue ⟨o.id, next⟩ ∨
            known w.queue ⟨o.id, next⟩ = false

theorem noStall_moved {w w' : World} {o : Order} {m : Move}
    (hinv : NoStall w) (hguard : m.Guard o) (hmoved : Moved w.db w'.db o m)
    (hothers : forall id next, id ≠ o.id ->
      isWaiting w.queue ⟨id, next⟩ -> isWaiting w'.queue ⟨id, next⟩) :
    NoStall w' <-> forall next, nextStatusMap m.status = some next ->
      isWaiting w'.queue ⟨o.id, next⟩ := by
  rcases hmoved.replaced with ⟨now, deletedAt, hdeleted, hrep⟩
  constructor
  · intro hafter next hnext
    have hself : w'.db.orders.find? o.id =
        some { o with status := m.status, deletedAt := deletedAt,
                      updatedAt := now } := by
      rw [hrep.find?, if_pos rfl]
    refine hafter o.id _ next hself ?_ hnext
    show deletedAt = none
    cases m with
    | set status =>
        have hsame : deletedAt.isSome = o.deletedAt.isSome := hdeleted
        rw [hguard.left] at hsame
        exact Option.not_isSome_iff_eq_none.mp (by rw [hsame]; simp)
    | cancel => cases hnext
    | reopen =>
        have hsame : deletedAt.isSome = false := hdeleted
        exact Option.not_isSome_iff_eq_none.mp (by rw [hsame]; simp)
  · intro hnew id o' next ho' hlive hnext
    rw [hrep.find?] at ho'
    split at ho'
    · rename_i hid
      cases ho'
      rw [hid]
      exact hnew next hnext
    · rename_i hid
      exact hothers id next hid (hinv id o' next ho' hlive hnext)

theorem noStall_order {w w' : World} {t : OrderTask} {out : Outcome}
    (hitems : w.db.NoDeletedItems) (hinv : NoStall w)
    (ht : isRequest t = true) (h : Executes Healthy w t.task out w') :
    NoStall w' <-> Continues w (.request (.order t)) := by
  have hqueue := queue_of_request (job_of_isRequest ht) h
  have hothers : forall job, isWaiting w.queue job -> isWaiting w'.queue job :=
    fun job hjob => by rw [hqueue]; exact hjob
  cases heffective : t.effective w.db with
  | none =>
      rcases executes_effective hitems (completes_of_isRequest ht out) h with
        hsame | ⟨o, m, hsome, _⟩
      · constructor
        · intro _ o m next hsome
          rw [heffective] at hsome
          cases hsome
        · intro _ id o next ho hlive hnext
          rw [hsame] at ho
          exact hothers _ (hinv id o next ho hlive hnext)
      · rw [heffective] at hsome
        cases hsome
  | some found =>
      rcases found with ⟨o, m⟩
      have hmoved := moved_of_effective hitems heffective h
      have hguard := (guard_of_move (move_of_effective heffective).right).right
      rw [noStall_moved hinv hguard hmoved (fun id next _ => hothers _),
        hqueue]
      constructor
      · intro hnew o' m' next hsome
        rw [heffective] at hsome
        cases hsome
        exact hnew next
      · exact fun hnew next => hnew o m next heffective

theorem noStall_place {w w' : World} {out : Outcome} {token : Token}
    {items : List ItemRequest} (hinv : NoStall w) (hkeys : KeysBelow w)
    (h : Executes Healthy w (.request (.createOrder token items)) out w') :
    NoStall w' := by
  intro id o next ho hlive hnext
  rcases executes_place h with hnone | ⟨d, now, hnew⟩
  · rw [find?_of_rows hnone.grows.orders] at ho
    have hwaiting := hinv id o next ho hlive hnext
    rcases hnone.queue with hqueue | ⟨orphan, _, _, hqueue⟩
    · rw [hqueue]
      exact hwaiting
    · rw [hqueue]
      exact isWaiting_add.mpr (Or.inl hwaiting)
  · rcases hnew.stored with ⟨mid, hgrows, hplaced⟩
    rw [hnew.queue]
    rw [hplaced.order] at ho
    split at ho
    · -- the new order waits for its first job
      rename_i hid
      cases ho
      have hstatus : (d.placed now).status = .pending := hnew.new.left
      rw [hstatus] at hnext
      cases hnext
      rw [hid]
      exact isWaiting_add.mpr
        (Or.inr ⟨not_known_of_keys hkeys hnew.key.left _, rfl⟩)
    · rw [find?_of_rows hgrows.orders] at ho
      exact isWaiting_add.mpr (Or.inl (hinv id o next ho hlive hnext))

theorem isWaiting_scheduleNext {q : Queue} {job other : Job} :
    isWaiting (scheduleNext q job) other <->
      isWaiting q other ∨ known q other = false ∧
        other.orderId = job.orderId ∧
        nextStatusMap job.targetStatus = some other.targetStatus := by
  unfold scheduleNext
  cases nextStatusMap job.targetStatus with
  | none => simp
  | some next =>
      dsimp only
      rw [isWaiting_add]
      constructor
      · rintro (hold | ⟨hnew, rfl⟩)
        · exact Or.inl hold
        · exact Or.inr ⟨hnew, rfl, rfl⟩
      · rintro (hold | ⟨hnew, hid, hnext⟩)
        · exact Or.inl hold
        · have heq : other = ⟨job.orderId, next⟩ := by
            cases other
            cases hnext
            cases hid
            rfl
          rw [heq] at hnew ⊢
          exact Or.inr ⟨hnew, rfl⟩

theorem noStall_job {w w' : World} {job : Job}
    (hitems : w.db.NoDeletedItems) (hinv : NoStall w)
    (h : Executes Healthy w (.statusJob job) .returned w') :
    NoStall (complete w' job) <-> Continues w (.job job) := by
  have heffect := executes_statusJob hitems h
  cases hmove : (OrderTask.statusJob job).move w.db with
  | none =>
      rw [hmove] at heffect
      rcases heffect with ⟨hdb, hqueue⟩
      constructor
      · intro _ o m next hsome
        rw [hmove] at hsome
        cases hsome
      · intro _ id o next ho hlive hnext
        have hrow : w.db.orders.find? id = some o := by
          rw [← hdb]
          exact ho
        show isWaiting (w'.queue.settle job .completed) _
        rw [hqueue, isWaiting_settle]
        refine ⟨hinv id o next hrow hlive hnext, ?_⟩
        -- the job of this order would have moved it
        rintro rfl
        rw [move_of_next hrow hlive hnext] at hmove
        cases hmove
  | some found =>
      rcases found with ⟨o, m⟩
      rw [hmove] at heffect
      rcases heffect with ⟨hmoved, hqueue⟩
      rcases move_statusJob hmove with ⟨hid, rfl, _⟩
      have hguard := (guard_of_move hmove).right
      have hqueue' : (complete w' job).queue =
          (scheduleNext w.queue job).settle job .completed := by
        unfold complete
        rw [hqueue]
      have hothers : forall id next, id ≠ o.id ->
          isWaiting w.queue ⟨id, next⟩ ->
            isWaiting (complete w' job).queue ⟨id, next⟩ := by
        intro id next hne hwaiting
        rw [hqueue', isWaiting_settle]
        refine ⟨isWaiting_scheduleNext.mpr (Or.inl hwaiting), ?_⟩
        rintro rfl
        exact hne hid.symm
      have hmoved' : Moved w.db (complete w' job).db o _ := hmoved
      rw [noStall_moved hinv hguard hmoved' hothers]
      have hself : forall next, nextStatusMap job.targetStatus = some next ->
          (isWaiting (complete w' job).queue ⟨o.id, next⟩ <->
            isWaiting w.queue ⟨o.id, next⟩ ∨
              known w.queue ⟨o.id, next⟩ = false) := by
        intro next hnext
        rw [hqueue', isWaiting_settle, isWaiting_scheduleNext]
        constructor
        · rintro ⟨hold | ⟨hnew, _⟩, _⟩
          · exact Or.inl hold
          · exact Or.inr hnew
        · intro hcase
          constructor
          · rcases hcase with hold | hnew
            · exact Or.inl hold
            · exact Or.inr ⟨hnew, hid, hnext⟩
          · rintro rfl
            exact next_ne hnext rfl
      constructor
      · intro hnew o' m' next hsome hnext
        rw [hmove] at hsome
        cases hsome
        exact (hself next hnext).mp (hnew next hnext)
      · exact fun hnew next hnext =>
          (hself next hnext).mpr (hnew o _ next hmove hnext)

theorem noStall_step {w w' : World} {a : Actor}
    (hitems : w.db.NoDeletedItems) (hkeys : KeysBelow w) (hinv : NoStall w)
    (ha : isOrderActor a = true) (h : QueueStep w a w') :
    NoStall w' <-> Continues w a := by
  cases h with
  | @request _ t out hexec hfinishes =>
      cases t with
      | order t => exact noStall_order hitems hinv ha hexec
      | place token items =>
          exact ⟨fun _ => trivial, fun _ => noStall_place hinv hkeys hexec⟩
      | product => cases ha
  | job hwaiting hexec => exact noStall_job hitems hinv hexec

/-!
# Runs
-/

/-- Runs of requests on orders and of job executions. -/
def QueueRun (Allowed : World -> Actor -> Prop) : World -> World -> Prop :=
  Relation.ReflTransGen (fun w w' =>
    exists a, isOrderActor a = true ∧ Allowed w a ∧ QueueStep w a w')

theorem queueRun_invariant {Allowed : World -> Actor -> Prop}
    {J : World -> Prop}
    (hstep : forall {w w' : World} {a : Actor}, J w ->
      isOrderActor a = true -> Allowed w a -> QueueStep w a w' -> J w')
    {start w : World} (hstart : J start) (hrun : QueueRun Allowed start w) :
    J w := by
  refine invariant_of_steps ?_ hstart hrun
  rintro w w' hJ ⟨a, ha, hallowed, hqueue⟩
  exact hstep hJ ha hallowed hqueue

/-- In every reachable world without a stalled order, a step leaves none stalled
exactly when it continues the chain of jobs, and a run of such steps never
stalls an order. -/
theorem no_stalled_order_iff_continues {start : World}
    (hitems : start.db.NoDeletedItems) (hkeys : KeysBelow start)
    (hstart : NoStall start) :
    (forall w w' a, QueueRun (fun _ _ => True) start w -> NoStall w ->
      isOrderActor a = true -> QueueStep w a w' ->
        (NoStall w' <-> Continues w a)) ∧
    (forall w, QueueRun Continues start w -> NoStall w) := by
  have hkept : forall {w w' : World} {a : Actor},
      w.db.NoDeletedItems ∧ KeysBelow w -> isOrderActor a = true ->
        QueueStep w a w' -> w'.db.NoDeletedItems ∧ KeysBelow w' :=
    fun hJ ha h => ⟨noDeleted_queueStep hJ.left h,
      keysBelow_step hJ.left hJ.right ha h⟩
  constructor
  · intro w w' a hrun hinv ha h
    have hboth := queueRun_invariant
      (J := fun w => w.db.NoDeletedItems ∧ KeysBelow w)
      (fun hJ ha _ h => hkept hJ ha h) ⟨hitems, hkeys⟩ hrun
    rcases hboth with ⟨hi, hk⟩
    exact noStall_step hi hk hinv ha h
  · intro w hrun
    have hall := queueRun_invariant
      (J := fun w => (w.db.NoDeletedItems ∧ KeysBelow w) ∧ NoStall w)
      (fun hJ ha hallowed h => ⟨hkept hJ.left ha h,
        (noStall_step hJ.left.left hJ.left.right hJ.right ha h).mpr hallowed⟩)
      ⟨⟨hitems, hkeys⟩, hstart⟩ hrun
    exact hall.right

/-!
# A restored order
-/

/-- The order is processed, deleted and restored. -/
def shopProcessed : World :=
  executed shopWithOrder ⟨1, .processing⟩

def shopRestored : World :=
  after (after shopProcessed (.order (.softDelete (.valid 1) "1")))
    (.order (.restore (.valid 1) "1"))

/-- The job that would process the restored order has been executed already, so
the order stays pending for good. -/
theorem restored_order_stalls :
    QueueRun (fun _ _ => True) shop shopRestored ∧
      shopRestored.db.orders.find? 1 =
        some ⟨1, 1, 500, .pending, 0, 0, none⟩ ∧
      waitingFor shopRestored.queue 1 = [⟨1, .shipped⟩] ∧
      ¬ NoStall shopRestored := by
  have hrow : shopRestored.db.orders.find? 1 =
      some ⟨1, 1, 500, .pending, 0, 0, none⟩ := by decide
  refine ⟨?_, hrow, by decide, ?_⟩
  · have hjob : QueueStep shopWithOrder (.job ⟨1, .processing⟩) shopProcessed :=
      step_executed (by decide) (by decide)
    have hdelete : QueueStep shopProcessed
        (.request (.order (.softDelete (.valid 1) "1"))) _ :=
      queueStep_after trivial
    have hrestore : QueueStep _
        (.request (.order (.restore (.valid 1) "1"))) shopRestored :=
      queueStep_after trivial
    exact .tail (.tail (.tail (.single ⟨_, rfl, trivial, queueStep_shopWithOrder⟩)
      ⟨_, rfl, trivial, hjob⟩) ⟨_, rfl, trivial, hdelete⟩)
      ⟨_, rfl, trivial, hrestore⟩
  · intro hinv
    have hwaiting : isWaiting shopRestored.queue ⟨1, .processing⟩ :=
      hinv 1 _ .processing hrow rfl rfl
    revert hwaiting
    decide

/-- The execution of the first job continues the chain. -/
theorem processing_continues :
    Continues shopWithOrder (.job ⟨1, .processing⟩) ∧ NoStall shopProcessed := by
  have hitems : shop.db.NoDeletedItems := by decide
  have hkeys : KeysBelow shop := by
    intro e he
    cases he
  have hstart : NoStall shop := by
    intro id o next ho
    cases ho
  have hcontinues : Continues shopWithOrder (.job ⟨1, .processing⟩) := by
    intro o m next hmove hnext
    have heq : (OrderTask.statusJob ⟨1, .processing⟩).move shopWithOrder.db =
        some (⟨1, 1, 500, .pending, 0, 0, none⟩, .set .processing) := by
      decide
    rw [heq] at hmove
    cases hmove
    cases hnext
    exact Or.inr (by decide)
  have hjob : QueueStep shopWithOrder (.job ⟨1, .processing⟩) shopProcessed :=
    step_executed (by decide) (by decide)
  have hrun : QueueRun Continues shop shopProcessed :=
    .tail (.single ⟨.request (.place (.valid 1) [⟨1, 2⟩]), rfl, trivial, queueStep_shopWithOrder⟩)
      ⟨_, rfl, hcontinues, hjob⟩
  exact ⟨hcontinues,
    (no_stalled_order_iff_continues hitems hkeys hstart).right _ hrun⟩

end Jobs
end ExpressEcommerce
