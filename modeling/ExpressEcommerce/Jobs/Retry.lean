import ExpressEcommerce.Jobs.Steps
import ExpressEcommerce.Runs.Sequential
import ExpressEcommerce.Service.Symbolic

/-!
# Retrying a status job

Bull executes a job that throws again, three times at most.  An execution of
`statusProcessor` has two effects in two stores: the status in the database and
the next job in the queue.  An execution that fails between the two leaves an
order that already has its target, and the next execution takes it for done.
-/

namespace ExpressEcommerce
namespace Jobs

open Foundation
open Store
open Service
open Orders
open Foundation.Action
open Runs

/-- The option `attempts` of both kinds of jobs. -/
def attempts : Nat := 3

/-- Some execution of a job returns, the ones before it throw; `n` is how many
there may be. -/
inductive Completed (ok : Cmd -> Env -> Prop) (task : Task) :
    Nat -> World -> World -> Prop where
  | first {n : Nat} {w w' : World} (h : ExecutesIn ok w task .returned w') :
      Completed ok task (n + 1) w w'
  | again {n : Nat} {w mid w' : World} {e : String}
      (h : ExecutesIn ok w task (.threw e) mid)
      (hrest : Completed ok task n mid w') : Completed ok task (n + 1) w w'

/-- The induction rule: what holds at the start and is kept by executions that
throw holds when the last execution starts. -/
theorem completed_induction {ok : Cmd -> Env -> Prop} {task : Task}
    {J Q : World -> Prop}
    (hagain : forall {w mid : World} {e : String}, J w ->
      ExecutesIn ok w task (.threw e) mid -> J mid)
    (hlast : forall {w w' : World}, J w ->
      ExecutesIn ok w task .returned w' -> Q w')
    {n : Nat} {w w' : World} (hstart : J w)
    (h : Completed ok task n w w') : Q w' := by
  induction h with
  | first h => exact hlast hstart h
  | again h _ ih => exact ih (hagain hstart h)

theorem completed_twice {F : Cmd -> Prop} {fails : Cmd -> Bool} {task : Task}
    {w : World} (hfails : forall c, fails c = true -> F c)
    (hthrew : (attempt fails task w).1 = .threw "connection lost")
    (hreturned : (attempt (fun _ => false) task
      (attempt fails task w).2).1 = .returned) :
    Completed (failsOnly F) task attempts w
      (attempt (fun _ => false) task (attempt fails task w).2).2 := by
  have hfirst := executesIn_attempt hfails task w
  have hcalm : forall c, (fun _ => false) c = true -> F c :=
    fun _ h => by cases h
  have hsecond := executesIn_attempt hcalm task (attempt fails task w).2
  rw [hthrew] at hfirst
  rw [hreturned] at hsecond
  exact .again hfirst (.first hsecond)

/-!
# One execution
-/

def saved (w : World) (o : Order) (status : Status) (now : Nat)
    (cache : Cache) : World :=
  { w with
    db := w.db.update (.orderStatus o.id status) now
    cache := cache }

/-- How an execution of `statusProcessor` ends. -/
inductive StatusEnds (ok : Cmd -> Env -> Prop) (job : Job) (w : World) :
    Outcome -> World -> Prop where
  | idle (hmove : (OrderTask.statusJob job).move w.db = none) :
      StatusEnds ok job w .returned w
  | untouched (e : String) {c : Cmd} (hc : forall j, c ≠ .addJob j)
      (hmay : MayFail (ok c)) : StatusEnds ok job w (.threw e) w
  | last {o : Order} (now : Nat) (cache : Cache)
      (hmove : (OrderTask.statusJob job).move w.db =
        some (o, .set job.targetStatus))
      (hnext : nextStatusMap job.targetStatus = none) :
      StatusEnds ok job w .returned (saved w o job.targetStatus now cache)
  | scheduled {o : Order} (now : Nat) (cache : Cache) {next : Status}
      (hmove : (OrderTask.statusJob job).move w.db =
        some (o, .set job.targetStatus))
      (hnext : nextStatusMap job.targetStatus = some next)
      (hworks : Works (ok (.addJob ⟨job.orderId, next⟩))) :
      StatusEnds ok job w .returned
        { saved w o job.targetStatus now cache with
          queue := w.queue.add ⟨job.orderId, next⟩ }
  | unscheduled {o : Order} (now : Nat) (cache : Cache) {next : Status}
      (e : String)
      (hmove : (OrderTask.statusJob job).move w.db =
        some (o, .set job.targetStatus))
      (hnext : nextStatusMap job.targetStatus = some next)
      (hmay : MayFail (ok (.addJob ⟨job.orderId, next⟩))) :
      StatusEnds ok job w (.threw e) (saved w o job.targetStatus now cache)

section Execution

variable {ok : Cmd -> Env -> Prop} {job : Job} {w : World}

theorem move_none_of_guard {o : Order}
    (ho : w.db.order? job.orderId true = some o)
    (hguard : o.status = .cancelled ∨ o.status = .delivered ∨
      o.status = job.targetStatus) :
    (OrderTask.statusJob job).move w.db = none := by
  dsimp only [OrderTask.move]
  rw [ho, Option.bind_some]
  split
  · rfl
  · rename_i hopen
    unfold setMove
    rcases hguard with hc | hd | hsame
    · exact absurd (Or.inl hc) hopen
    · exact absurd (Or.inr hd) hopen
    · exact if_pos hsame

theorem move_some_of_guard {o : Order}
    (ho : w.db.order? job.orderId true = some o)
    (hcancelled : o.status ≠ .cancelled) (hdelivered : o.status ≠ .delivered)
    (hdiff : o.status ≠ job.targetStatus) :
    (OrderTask.statusJob job).move w.db =
      some (o, .set job.targetStatus) := by
  dsimp only [OrderTask.move]
  rw [ho, Option.bind_some, if_neg (not_or.mpr ⟨hcancelled, hdelivered⟩)]
  exact if_neg hdiff

theorem walk_act {o : Order}
    (hmove : (OrderTask.statusJob job).move w.db =
      some (o, .set job.targetStatus))
    (hdiff : o.status ≠ job.targetStatus) :
    Action.wp (direct ok)
      (do
        let _ ← Order.saveStatus false o job.targetStatus
        if job.targetStatus ≠ Status.delivered then
          scheduleStatusUpdateJob job.orderId (some job.targetStatus)
        else pure ())
      (fun _ s => StatusEnds ok job w .returned s.1)
      (fun e s => StatusEnds ok job w (.threw e) s.1) (w, none) := by
  unfold Order.saveStatus
  rw [if_neg hdiff]
  refine (wp_bind _ _ _).mpr ((wp_bind _ _ _).mpr (direct_update ?_ ?_ ?_))
  · intro now _ _
    refine (wp_bind _ _ _).mpr (direct_invalidateOrderCache ?_)
    intro cache _
    refine (wp_pure _ _).mpr ?_
    split
    · unfold scheduleStatusUpdateJob
      rw [Option.bind_some]
      cases hnext : nextStatusMap job.targetStatus with
      | none => exact .last now cache hmove hnext
      | some next =>
          refine direct_addJob ?_ ?_
          · intro hworks
            exact .scheduled now cache hmove hnext hworks
          · intro hmay e
            exact .unscheduled now cache e hmove hnext hmay
    · rename_i hdelivered
      refine .last now cache hmove ?_
      rw [not_not.mp hdelivered]
      rfl
  · intro hno
    cases hno
  · intro hmay e
    refine .untouched e ?_ hmay
    intro j hj
    cases hj

theorem statusEnds_of_executes {out : Outcome} {w' : World}
    (h : ExecutesIn ok w (.statusJob job) out w') :
    StatusEnds ok job w out w' := by
  have hwp : (Task.statusJob job).code.wp (direct ok)
      (fun out s => StatusEnds ok job w out s.1) (w, none) := by
    refine wp_settle.mpr ?_
    unfold statusProcessor
    refine (wp_bind _ _ _).mpr (direct_query rfl (fun _ => ?_) ?_)
    · have hanswer : Query.eval (w.view none false)
          (.orderByPk job.orderId true {}) =
            (w.db.order? job.orderId true).map (w.db.graph {}) := rfl
      rw [hanswer]
      cases ho : w.db.order? job.orderId true with
      | none =>
          refine .idle ?_
          dsimp only [OrderTask.move]
          rw [ho]
          rfl
      | some o =>
          have hlive := (Database.order?_true_eq_some_iff.mp ho).right
          dsimp only [Option.map_some]
          rw [Database.graph_order, hlive]
          split
          · rename_i hguard
            refine .idle (move_none_of_guard ho (Or.inl ?_))
            rcases hguard with hdeleted | hcancelled
            · cases hdeleted
            · exact hcancelled
          · rename_i hguard
            split
            · rename_i hdelivered
              exact .idle (move_none_of_guard ho (Or.inr (Or.inl hdelivered)))
            · rename_i hdelivered
              split
              · rename_i hsame
                exact .idle (move_none_of_guard ho (Or.inr (Or.inr hsame)))
              · rename_i hdiff
                exact walk_act (move_some_of_guard ho
                  (not_or.mp hguard).right hdelivered hdiff) hdiff
    · intro hmay e
      refine .untouched e ?_ hmay
      intro j hj
      cases hj
  rcases executes_of_wp hwp h with ⟨_, hend⟩
  exact hend

end Execution

/-!
# Several executions
-/

def rowOf (db : Database) (id : Int) : Option Order :=
  (db.orders.find? id).map (fun o => { o with updatedAt := 0 })

/-- The order has the same row and the queue the same jobs. -/
def SameEnd (job : Job) (w w' : World) : Prop :=
  rowOf w'.db job.orderId = rowOf w.db job.orderId ∧ w'.queue = w.queue

/-- If the job moves its order and has a successor, then adding the successor
may fail only when the queue knows it already. -/
def ScheduleSafe (F : Cmd -> Prop) (w : World) (job : Job) : Prop :=
  forall o m next, (OrderTask.statusJob job).move w.db = some (o, m) ->
    nextStatusMap job.targetStatus = some next ->
    F (.addJob ⟨job.orderId, next⟩) ->
      known w.queue ⟨job.orderId, next⟩ = true

def Expected (job : Job) (w w' : World) : Prop :=
  match (OrderTask.statusJob job).move w.db with
  | none => w'.db = w.db ∧ w'.queue = w.queue
  | some (o, _) =>
      (exists now,
        w'.db = w.db.update (.orderStatus o.id job.targetStatus) now) ∧
      w'.queue = scheduleNext w.queue job

theorem rowOf_update_orderStatus (db : Database) (id other : Int)
    (status : Status) (now now' : Nat) :
    rowOf (db.update (.orderStatus id status) now) other =
      rowOf (db.update (.orderStatus id status) now') other := by
  unfold rowOf
  rw [Database.find?_update_orderStatus, Database.find?_update_orderStatus]
  split
  · rw [Option.map_map, Option.map_map]
    rfl
  · rfl

theorem sameEnd_of_expected {job : Job} {w a b : World}
    (ha : Expected job w a) (hb : Expected job w b) : SameEnd job a b := by
  unfold Expected at ha hb
  cases hmove : (OrderTask.statusJob job).move w.db with
  | none =>
      rw [hmove] at ha hb
      unfold SameEnd
      rw [ha.left, ha.right, hb.left, hb.right]
      exact ⟨rfl, rfl⟩
  | some found =>
      rw [hmove] at ha hb
      rcases ha with ⟨⟨now, hdb⟩, hqueue⟩
      rcases hb with ⟨⟨now', hdb'⟩, hqueue'⟩
      unfold SameEnd
      rw [hdb, hdb', hqueue, hqueue']
      exact ⟨rowOf_update_orderStatus _ _ _ _ _ _, rfl⟩

/-- An execution that has written the status but not added the next job. -/
structure Half (F : Cmd -> Prop) (job : Job) (w x : World) : Prop where
  move : exists o, (OrderTask.statusJob job).move w.db =
      some (o, .set job.targetStatus) ∧
    exists now, x.db = w.db.update (.orderStatus o.id job.targetStatus) now
  next : exists next, nextStatusMap job.targetStatus = some next ∧
    F (.addJob ⟨job.orderId, next⟩)
  queue : x.queue = w.queue

theorem move_of_saved {job : Job} {db : Database} {o : Order}
    (hmove : (OrderTask.statusJob job).move db =
      some (o, .set job.targetStatus)) (now : Nat) :
    (OrderTask.statusJob job).move
      (db.update (.orderStatus o.id job.targetStatus) now) = none := by
  rcases guard_of_move hmove with ⟨hfound, hlive, _, _⟩
  have hid := (move_statusJob hmove).left
  have hrow : (db.update (.orderStatus o.id job.targetStatus) now).order?
      job.orderId true = some
        { o with status := job.targetStatus, updatedAt := now } := by
    refine Database.order?_true_eq_some_iff.mpr ⟨?_, hlive⟩
    rw [Database.find?_update_orderStatus, ← hid, if_pos rfl, hfound]
    rfl
  dsimp only [OrderTask.move]
  rw [hrow, Option.bind_some]
  split
  · rfl
  · exact if_pos rfl

section Attempts

variable {F : Cmd -> Prop} {job : Job} {w : World}

def Before (F : Cmd -> Prop) (job : Job) (w x : World) : Prop :=
  (x.db = w.db ∧ x.queue = w.queue) ∨ Half F job w x

theorem Half.idle {x : World} (h : Half F job w x) :
    (OrderTask.statusJob job).move x.db = none := by
  rcases h.move with ⟨o, hmove, now, hdb⟩
  rw [hdb]
  exact move_of_saved hmove now

theorem before_again {x mid : World} {e : String} (h : Before F job w x)
    (hexec : ExecutesIn (failsOnly F) x (.statusJob job) (.threw e) mid) :
    Before F job w mid := by
  rcases h with ⟨hdb, hqueue⟩ | hhalf
  · cases statusEnds_of_executes hexec with
    | untouched => exact Or.inl ⟨hdb, hqueue⟩
    | unscheduled now cache e hmove hnext hmay =>
        right
        rw [hdb] at hmove
        refine ⟨⟨_, hmove, now, ?_⟩, ⟨_, hnext, mayFail_failsOnly hmay⟩,
          hqueue⟩
        rw [← hdb]
        rfl
  · have hidle := hhalf.idle
    cases statusEnds_of_executes hexec with
    | untouched => exact Or.inr hhalf
    | unscheduled now cache e hmove hnext hmay =>
        rw [hidle] at hmove
        cases hmove

theorem scheduleNext_of_known {q : Queue} {next : Status}
    (hnext : nextStatusMap job.targetStatus = some next)
    (hknown : known q ⟨job.orderId, next⟩ = true) :
    scheduleNext q job = q := by
  unfold scheduleNext
  rw [hnext]
  exact add_of_known hknown

theorem expected_last {x w' : World} {ok : Cmd -> Env -> Prop}
    (hdb : x.db = w.db) (hqueue : x.queue = w.queue)
    (hexec : ExecutesIn ok x (.statusJob job) .returned w') :
    Expected job w w' := by
  unfold Expected
  rw [← hdb, ← hqueue]
  cases statusEnds_of_executes hexec with
  | idle hmove =>
      rw [hmove]
      exact ⟨rfl, rfl⟩
  | last now cache hmove hnext =>
      rw [hmove]
      refine ⟨⟨now, rfl⟩, ?_⟩
      unfold scheduleNext
      rw [hnext]
      rfl
  | scheduled now cache hmove hnext _ =>
      rw [hmove]
      refine ⟨⟨now, rfl⟩, ?_⟩
      unfold scheduleNext
      rw [hnext]

theorem expected_of_before {x w' : World} (hsafe : ScheduleSafe F w job)
    (h : Before F job w x)
    (hexec : ExecutesIn (failsOnly F) x (.statusJob job) .returned w') :
    Expected job w w' := by
  rcases h with ⟨hdb, hqueue⟩ | hhalf
  · exact expected_last hdb hqueue hexec
  · have hidle := hhalf.idle
    rcases hhalf.move with ⟨o, hmove, now, hdb⟩
    rcases hhalf.next with ⟨next, hnext, hF⟩
    cases statusEnds_of_executes hexec with
    | idle _ =>
        unfold Expected
        rw [hmove, scheduleNext_of_known hnext
          (hsafe o _ next hmove hnext hF)]
        exact ⟨⟨now, hdb⟩, hhalf.queue⟩
    | last now cache hmove' _ =>
        rw [hidle] at hmove'
        cases hmove'
    | scheduled now cache hmove' _ _ =>
        rw [hidle] at hmove'
        cases hmove'

theorem expected_healthy {out : Outcome} {w' : World}
    (hexec : Executes Healthy w (.statusJob job) out w') :
    out = .returned ∧ Expected job w w' := by
  have hin : ExecutesIn allHealthy w (.statusJob job) out w' := hexec
  have hreturned : out = .returned := by
    cases statusEnds_of_executes hin with
    | idle | last | scheduled => rfl
    | untouched _ _ hmay => exact absurd hmay not_mayFail_healthy
    | unscheduled _ _ _ _ _ hmay => exact absurd hmay not_mayFail_healthy
  subst hreturned
  exact ⟨rfl, expected_last rfl rfl hin⟩

theorem completed_half {o : Order} {m : Move} {next : Status}
    (hmove : (OrderTask.statusJob job).move w.db = some (o, m))
    (hnext : nextStatusMap job.targetStatus = some next)
    (hF : F (.addJob ⟨job.orderId, next⟩)) :
    exists w', Completed (failsOnly F) (.statusJob job) attempts w w' ∧
      w'.queue = w.queue := by
  rcases executesIn_failsAt (F := F)
    (G := fun c => c = .addJob ⟨job.orderId, next⟩)
    (fun c hc => by rw [hc]; exact hF) (.statusJob job) w with
    ⟨out, mid, hat, honly⟩
  have hmid : (exists e, out = .threw e) ∧ mid.queue = w.queue ∧
      (OrderTask.statusJob job).move mid.db = none := by
    cases statusEnds_of_executes hat with
    | idle hnone =>
        rw [hnone] at hmove
        cases hmove
    | untouched e hc hmay => exact absurd (mayFail_failsAt hmay) (hc _)
    | last now cache _ hlast =>
        rw [hlast] at hnext
        cases hnext
    | scheduled now cache _ hnext' hworks =>
        rw [hnext] at hnext'
        cases hnext'
        exact absurd rfl (works_failsAt hworks)
    | unscheduled now cache e hmove' _ _ =>
        exact ⟨⟨e, rfl⟩, rfl, move_of_saved hmove' now⟩
  rcases hmid with ⟨⟨e, rfl⟩, hqueue, hidle⟩
  rcases executesIn_failsAt (F := F) (G := fun _ => False)
    (fun _ h => h.elim) (.statusJob job) mid with ⟨out2, w', hat2, honly2⟩
  have hend : out2 = .returned ∧ w' = mid := by
    cases statusEnds_of_executes hat2 with
    | idle => exact ⟨rfl, rfl⟩
    | untouched e hc hmay => exact (mayFail_failsAt hmay).elim
    | last now cache hmove' _ =>
        rw [hidle] at hmove'
        cases hmove'
    | scheduled now cache hmove' _ _ =>
        rw [hidle] at hmove'
        cases hmove'
    | unscheduled now cache e hmove' _ _ =>
        rw [hidle] at hmove'
        cases hmove'
  rcases hend with ⟨rfl, rfl⟩
  exact ⟨w', .again honly (.first honly2), hqueue⟩

end Attempts

/-- Retrying a status job ends as one execution without failures does, exactly
when no failure can come between the status and an unknown next job. -/
theorem statusProcessor_retry_iff (F : Cmd -> Prop) (w : World) (job : Job) :
    (forall w' out once,
      Completed (failsOnly F) (.statusJob job) attempts w w' ->
      Executes Healthy w (.statusJob job) out once ->
        SameEnd job once w') <->
      ScheduleSafe F w job := by
  constructor
  · intro hsame o m next hmove hnext hF
    rcases completed_half hmove hnext hF with ⟨w', hcompleted, hqueue⟩
    have honce := executes_perform (.statusJob job) w
    have hend := (hsame w' _ _ hcompleted honce).right
    have hexpected := (expected_healthy honce).right
    unfold Expected at hexpected
    rw [hmove] at hexpected
    rw [hqueue, hexpected.right] at hend
    unfold scheduleNext at hend
    rw [hnext] at hend
    exact known_of_add hend.symm
  · intro hsafe w' out once hcompleted honce
    refine sameEnd_of_expected (expected_healthy honce).right ?_
    exact completed_induction (J := Before F job w) (Q := Expected job w)
      before_again (expected_of_before hsafe) (Or.inl ⟨rfl, rfl⟩) hcompleted

/-- The call that adds the job for shipping the first order. -/
def addsShipping : Cmd -> Bool
  | .addJob job => decide (job = ⟨1, .shipped⟩)
  | _ => false

/-- The first execution sets the status and fails to add the next job; the
second finds the status set and returns.  The order stays without a job. -/
theorem retried_job_loses_successor :
    let task : Task := .statusJob ⟨1, .processing⟩
    let mid := (attempt addsShipping task shopWithOrder).2
    let final := (attempt (fun _ => false) task mid).2
    let once := (task.perform shopWithOrder).2
    Completed (failsOnly (fun c => addsShipping c = true)) task attempts
        shopWithOrder final ∧
      Executes Healthy shopWithOrder task .returned once ∧
      (final.db.orders.find? 1).map Order.status = some .processing ∧
      final.queue = [⟨⟨1, .processing⟩, .waiting⟩] ∧
      once.queue =
        [⟨⟨1, .processing⟩, .waiting⟩, ⟨⟨1, .shipped⟩, .waiting⟩] := by
  intro task mid final once
  have hcompleted : Completed (failsOnly (fun c => addsShipping c = true)) task
      attempts shopWithOrder final := by
    apply completed_twice
    · exact fun _ h => h
    · decide +kernel
    · decide +kernel
  refine ⟨hcompleted, ?_, ?_, ?_, ?_⟩
  · have honce := executes_perform task shopWithOrder
    rw [(expected_healthy honce).left] at honce
    exact honce
  · decide +kernel
  · decide +kernel
  · decide +kernel

/-- The statement that sets the status of the first order. -/
def setsProcessing : Cmd -> Bool
  | .update _ change => decide (change = .orderStatus 1 .processing)
  | _ => false

/-- Failures of the status write alone do no harm. -/
theorem retried_write_keeps_successor :
    let task : Task := .statusJob ⟨1, .processing⟩
    let mid := (attempt setsProcessing task shopWithOrder).2
    let final := (attempt (fun _ => false) task mid).2
    ScheduleSafe (fun c => setsProcessing c = true) shopWithOrder
        ⟨1, .processing⟩ ∧
      SameEnd ⟨1, .processing⟩ (task.perform shopWithOrder).2 final := by
  intro task mid final
  have hsafe : ScheduleSafe (fun c => setsProcessing c = true) shopWithOrder
      ⟨1, .processing⟩ := by
    intro o m next _ _ hF
    cases hF
  have hcompleted : Completed (failsOnly (fun c => setsProcessing c = true)) task
      attempts shopWithOrder final := by
    apply completed_twice
    · exact fun _ h => h
    · decide +kernel
    · decide +kernel
  exact ⟨hsafe, (statusProcessor_retry_iff _ shopWithOrder
    ⟨1, .processing⟩).mpr hsafe _ _ _ hcompleted
    (executes_perform task shopWithOrder)⟩

end Jobs
end ExpressEcommerce
