import ExpressEcommerce.Runs.Sequential

/-!
# Steps with the job queue

Bull executes waiting jobs and marks them afterwards, so that a job is executed
once.  A step is a request or the execution of a waiting job; this module states
what each of them does to the orders and to the queue when nothing fails.
-/

namespace ExpressEcommerce
namespace Jobs

open Foundation
open Store
open Service
open Orders
open Products
open Runs

/-- Who makes a step. -/
inductive Actor where
  | request (t : RunTask)
  | job (job : Job)
  deriving DecidableEq, Repr

def complete (w : World) (job : Job) : World :=
  { w with queue := w.queue.settle job .completed }

/-- One step of a run in which nothing fails; no request or job is
interrupted. -/
inductive QueueStep : World -> Actor -> World -> Prop where
  | request {w w' : World} {t : RunTask} {out : Outcome}
      (h : Executes Healthy w t.task out w') (hfinishes : t.Finishes out) :
      QueueStep w (.request t) w'
  | job {w w' : World} {job : Job}
      (hwaiting : (⟨job, .waiting⟩ : QueuedJob) ∈ w.queue)
      (h : Executes Healthy w (.statusJob job) .returned w') :
      QueueStep w (.job job) (complete w' job)

/-!
# The queue
-/

def known (q : Queue) (job : Job) : Bool :=
  q.any (fun e => decide (e.job = job))

def isWaiting (q : Queue) (job : Job) : Prop :=
  (⟨job, .waiting⟩ : QueuedJob) ∈ q

instance (q : Queue) (job : Job) : Decidable (isWaiting q job) :=
  inferInstanceAs (Decidable ((⟨job, .waiting⟩ : QueuedJob) ∈ q))

theorem known_iff {q : Queue} {job : Job} :
    known q job = true <-> exists e, e ∈ q ∧ e.job = job := by
  unfold known
  simp

theorem mem_add {q : Queue} {job : Job} {e : QueuedJob} :
    e ∈ q.add job <->
      e ∈ q ∨ known q job = false ∧ e = ⟨job, .waiting⟩ := by
  unfold Queue.add known
  cases h : q.any (fun e => decide (e.job = job)) <;> simp

theorem mem_settle {q : Queue} {job : Job} {e : QueuedJob} :
    e ∈ q.settle job .completed <->
      (e ∈ q ∧ e.job ≠ job) ∨
        (exists e0, e0 ∈ q ∧ e0.job = job ∧ e = ⟨job, .completed⟩) := by
  unfold Queue.settle
  rw [List.mem_map]
  constructor
  · rintro ⟨e0, he0, rfl⟩
    by_cases hjob : e0.job = job
    · refine Or.inr ⟨e0, he0, hjob, ?_⟩
      rw [if_pos hjob, ← hjob]
    · rw [if_neg hjob]
      exact Or.inl ⟨he0, hjob⟩
  · rintro (⟨he, hjob⟩ | ⟨e0, he0, hjob, rfl⟩)
    · exact ⟨e, he, if_neg hjob⟩
    · refine ⟨e0, he0, ?_⟩
      rw [if_pos hjob, ← hjob]

theorem isWaiting_add {q : Queue} {job other : Job} :
    isWaiting (q.add job) other <->
      isWaiting q other ∨ known q job = false ∧ other = job := by
  unfold isWaiting
  rw [mem_add]
  simp

theorem isWaiting_settle {q : Queue} {job other : Job} :
    isWaiting (q.settle job .completed) other <->
      isWaiting q other ∧ other ≠ job := by
  unfold isWaiting
  rw [mem_settle]
  constructor
  · rintro (h | ⟨_, _, _, heq⟩)
    · exact h
    · cases heq
  · exact Or.inl

theorem known_add {q : Queue} {job other : Job} :
    known (q.add job) other = true <-> known q other = true ∨ other = job := by
  rw [known_iff, known_iff]
  constructor
  · rintro ⟨e, he, rfl⟩
    rcases mem_add.mp he with hold | ⟨_, rfl⟩
    · exact Or.inl ⟨e, hold, rfl⟩
    · exact Or.inr rfl
  · rintro (⟨e, he, hjob⟩ | rfl)
    · exact ⟨e, mem_add.mpr (Or.inl he), hjob⟩
    · cases hknown : known q other with
      | true =>
          rcases known_iff.mp hknown with ⟨e, he, hjob⟩
          exact ⟨e, mem_add.mpr (Or.inl he), hjob⟩
      | false => exact ⟨_, mem_add.mpr (Or.inr ⟨hknown, rfl⟩), rfl⟩

theorem add_of_known {q : Queue} {job : Job} (h : known q job = true) :
    q.add job = q :=
  if_pos h

theorem known_of_add {q : Queue} {job : Job} (h : q.add job = q) :
    known q job = true := by
  cases hknown : known q job with
  | true => rfl
  | false =>
      have hadd : q.add job = q ++ [⟨job, .waiting⟩] :=
        if_neg (by
          rw [Bool.not_eq_true]
          exact hknown)
      rw [hadd] at h
      have hlength := congrArg List.length h
      simp at hlength

theorem known_settle {q : Queue} {job other : Job} :
    known (q.settle job .completed) other = known q other := by
  rw [Bool.eq_iff_iff, known_iff, known_iff]
  constructor
  · rintro ⟨e, he, rfl⟩
    rcases mem_settle.mp he with ⟨hold, _⟩ | ⟨e0, he0, hjob, rfl⟩
    · exact ⟨e, hold, rfl⟩
    · exact ⟨e0, he0, hjob⟩
  · rintro ⟨e, he, rfl⟩
    by_cases hjob : e.job = job
    · exact ⟨_, mem_settle.mpr (Or.inr ⟨e, he, hjob, rfl⟩), hjob.symm⟩
    · exact ⟨e, mem_settle.mpr (Or.inl ⟨he, hjob⟩), rfl⟩

theorem known_of_waiting {q : Queue} {job : Job} (h : isWaiting q job) :
    known q job = true :=
  known_iff.mpr ⟨_, h, rfl⟩

/-!
# The jobs of one order
-/

/-- The jobs of an order that have not been executed. -/
def waitingFor (q : Queue) (id : Int) : List Job :=
  (q.filter (fun e =>
    decide (e.job.orderId = id ∧ e.state = .waiting))).map QueuedJob.job

theorem mem_waitingFor {q : Queue} {id : Int} {job : Job} :
    job ∈ waitingFor q id <-> isWaiting q job ∧ job.orderId = id := by
  unfold waitingFor isWaiting
  simp only [List.mem_map, List.mem_filter, decide_eq_true_eq]
  constructor
  · rintro ⟨e, ⟨he, hid, hstate⟩, rfl⟩
    rw [← hstate]
    exact ⟨he, hid⟩
  · rintro ⟨he, hid⟩
    exact ⟨_, ⟨he, hid, rfl⟩, rfl⟩

theorem waitingFor_add {q : Queue} {job : Job} (id : Int) :
    waitingFor (q.add job) id =
      waitingFor q id ++
        if known q job = false ∧ job.orderId = id then [job] else [] := by
  unfold waitingFor Queue.add known
  cases hknown : q.any (fun e => decide (e.job = job)) with
  | true => simp
  | false =>
      by_cases hid : job.orderId = id
      · simp [List.filter_append, hid]
      · simp [List.filter_append, hid]

theorem waitingFor_cons (e : QueuedJob) (rest : Queue) (id : Int) :
    waitingFor (e :: rest) id =
      if e.job.orderId = id ∧ e.state = .waiting
      then e.job :: waitingFor rest id else waitingFor rest id := by
  unfold waitingFor
  rw [List.filter_cons]
  by_cases hkeep : e.job.orderId = id ∧ e.state = .waiting
  · rw [if_pos hkeep, if_pos (decide_eq_true hkeep), List.map_cons]
  · rw [if_neg hkeep, if_neg (by rw [decide_eq_true_eq]; exact hkeep)]

theorem waitingFor_settle {q : Queue} {job : Job} (id : Int) :
    waitingFor (q.settle job .completed) id =
      (waitingFor q id).filter (fun other => decide (other ≠ job)) := by
  induction q with
  | nil => rfl
  | cons e rest ih =>
      have hcons : Queue.settle (e :: rest) job .completed =
          (if e.job = job then { e with state := .completed } else e) ::
            Queue.settle rest job .completed := rfl
      rw [hcons, waitingFor_cons, waitingFor_cons, ih]
      by_cases hjob : e.job = job
      · rw [if_pos hjob, if_neg (fun h => by cases h.right)]
        split
        · rw [List.filter_cons_of_neg (by simp [hjob])]
        · rfl
      · rw [if_neg hjob]
        split
        · rw [List.filter_cons_of_pos (by simp [hjob])]
        · rfl

structure SameFor (id : Int) (q q' : Queue) : Prop where
  waiting : waitingFor q' id = waitingFor q id
  targets : forall status,
    known q' ⟨id, status⟩ = true -> known q ⟨id, status⟩ = true

theorem SameFor.refl (id : Int) (q : Queue) : SameFor id q q :=
  ⟨rfl, fun _ h => h⟩

theorem SameFor.trans {id : Int} {q q1 q2 : Queue} (h1 : SameFor id q q1)
    (h2 : SameFor id q1 q2) : SameFor id q q2 :=
  ⟨h2.waiting.trans h1.waiting, fun s h => h1.targets s (h2.targets s h)⟩

theorem sameFor_add {id : Int} {job : Job} (q : Queue)
    (h : job.orderId ≠ id) : SameFor id q (q.add job) := by
  constructor
  · rw [waitingFor_add, if_neg (fun hboth => h hboth.right), List.append_nil]
  · intro status hknown
    rcases known_add.mp hknown with hold | heq
    · exact hold
    · subst heq
      exact absurd rfl h

theorem sameFor_settle {id : Int} {job : Job} (q : Queue)
    (h : job.orderId ≠ id) : SameFor id q (q.settle job .completed) := by
  constructor
  · rw [waitingFor_settle, List.filter_eq_self]
    intro other hother
    rw [decide_eq_true_eq]
    rintro rfl
    exact h (mem_waitingFor.mp hother).right
  · intro status hknown
    rw [known_settle] at hknown
    exact hknown

/-!
# Effects
-/

def scheduleNext (q : Queue) (job : Job) : Queue :=
  match nextStatusMap job.targetStatus with
  | none => q
  | some next => q.add ⟨job.orderId, next⟩

theorem acceptsAll_statusJob (job : Job) (db : Database) :
    acceptsAll db ((OrderTask.statusJob job).plan db) = true := by
  dsimp only [OrderTask.plan, planOn]
  cases db.order? job.orderId true with
  | none => rfl
  | some o =>
      dsimp only [statusJobPlan, statusChange]
      split
      · rfl
      · split <;> rfl

theorem move_statusJob {job : Job} {db : Database} {o : Order} {m : Move}
    (h : (OrderTask.statusJob job).move db = some (o, m)) :
    o.id = job.orderId ∧ m = .set job.targetStatus ∧
      o.status ≠ .cancelled := by
  rcases Option.bind_eq_some_iff.mp h with ⟨o', ho', hguard⟩
  split at hguard
  · cases hguard
  · rename_i hopen
    unfold setMove at hguard
    split at hguard
    · cases hguard
    · cases hguard
      have hrow := (Database.order?_true_eq_some_iff.mp ho').left
      exact ⟨(Table.find?_eq_some_iff.mp hrow).right, rfl,
        fun hc => hopen (Or.inl hc)⟩

theorem next_ne {status next : Status}
    (h : nextStatusMap status = some next) : next ≠ status := by
  cases status <;> cases h <;> decide

theorem move_of_next {db : Database} {job : Job} {o : Order}
    (ho : db.orders.find? job.orderId = some o) (hlive : o.deletedAt = none)
    (hnext : nextStatusMap o.status = some job.targetStatus) :
    (OrderTask.statusJob job).move db = some (o, .set job.targetStatus) := by
  have hfound : db.order? job.orderId true = some o :=
    Database.order?_true_eq_some_iff.mpr ⟨ho, hlive⟩
  have hopen : ¬ (o.status = .cancelled ∨ o.status = .delivered) := by
    rintro (hc | hc) <;> rw [hc] at hnext <;> cases hnext
  dsimp only [OrderTask.move]
  rw [hfound, Option.bind_some, if_neg hopen]
  exact if_neg (next_ne hnext).symm

theorem queue_of_effect {t : OrderTask} {w w' : World} {out : Outcome}
    {performed todo : List Change}
    (haccepts : acceptsAll w.db (t.plan w.db) = true)
    (h : Effect Healthy t w out w' performed todo) :
    performed = t.plan w.db ∧
      match t.job (t.plan w.db) with
      | none => w'.queue = w.queue
      | some job => w'.queue = w.queue.add job := by
  have hrefused : ¬ Refused w.db (t.plan w.db) := by
    intro hrefused
    rw [not_acceptsAll_of_refused (isPlanned_plan t w.db) hrefused]
      at haccepts
    cases haccepts
  have hwhole : performed = t.plan w.db := by
    rcases h.blocked with hnil | hfail | hr
    · rw [h.plan, hnil, List.append_nil]
    · exact absurd hfail not_mayFail_healthy
    · exact absurd hr hrefused
  refine ⟨hwhole, ?_⟩
  have hqueue := h.queue
  rw [hwhole] at hqueue
  rcases hqueue with ⟨job, hjob, hq⟩ | ⟨hq, hnone | hblocked⟩
  · rw [hjob]
    exact hq
  · rw [hnone]
    exact hq
  · rcases hblocked with hnil | hfail | hr
    · rw [hnil, t.job_nil]
      exact hq
    · exact absurd hfail not_mayFail_healthy
    · exact absurd hr hrefused

theorem executes_statusJob {job : Job} {w w' : World} {out : Outcome}
    (hitems : w.db.NoDeletedItems)
    (h : Executes Healthy w (.statusJob job) out w') :
    match (OrderTask.statusJob job).move w.db with
    | none => w'.db = w.db ∧ w'.queue = w.queue
    | some (o, m) => Moved w.db w'.db o m ∧
        w'.queue = scheduleNext w.queue job := by
  have haccepts := acceptsAll_statusJob job w.db
  rcases executes_effect (t := .statusJob job) h with
    ⟨performed, todo, heffect⟩
  rcases queue_of_effect haccepts heffect with ⟨hwhole, hqueue⟩
  have hdecided := decided_move (.statusJob job) w.db
  cases hmove : (OrderTask.statusJob job).move w.db with
  | none =>
      rw [hmove] at hdecided
      have hnil : (OrderTask.statusJob job).plan w.db = [] := hdecided
      have hperforms := heffect.performs
      rw [hwhole, hnil] at hperforms
      rw [hnil, OrderTask.job_nil] at hqueue
      exact ⟨performs_nil hperforms, hqueue⟩
  | some found =>
      rcases found with ⟨o, m⟩
      have heffective : (OrderTask.statusJob job).effective w.db =
          some (o, m) := by
        unfold OrderTask.effective
        rw [if_pos haccepts]
        exact hmove
      refine ⟨moved_of_effective hitems heffective h, ?_⟩
      rw [hmove] at hdecided
      rcases move_statusJob hmove with ⟨hid, rfl, _⟩
      have hplan : (OrderTask.statusJob job).plan w.db =
          [.orderStatus o.id job.targetStatus] := by
        generalize (OrderTask.statusJob job).plan w.db = us at hdecided
        cases hdecided.right
        rfl
      rw [hplan] at hqueue
      unfold scheduleNext
      dsimp only [OrderTask.job] at hqueue
      rw [hid] at hqueue
      cases hnext : nextStatusMap job.targetStatus with
      | none =>
          rw [hnext] at hqueue
          exact hqueue
      | some next =>
          rw [hnext] at hqueue
          exact hqueue

theorem queue_of_request {ok : Env -> Prop} {t : OrderTask} {w w' : World}
    {out : Outcome} (hjob : forall us, t.job us = none)
    (h : Executes ok w t.task out w') : w'.queue = w.queue := by
  rcases executes_effect h with ⟨performed, todo, heffect⟩
  rcases heffect.queue with ⟨job, hsome, _⟩ | ⟨hsame, _⟩
  · rw [hjob] at hsome
    cases hsome
  · exact hsame

/-- The order that a request has placed, with its first job. -/
structure NewOrder (w w' : World) (d : Draft) (now : Nat) : Prop where
  stored : exists mid, Grows w.db mid ∧ Placed mid w'.db d now
  new : d.order.status = .pending ∧ d.order.deletedAt = none
  key : w.db.orders.seq <= d.order.id ∧ d.order.id < w'.db.orders.seq
  queue : w'.queue = w.queue.add ⟨d.order.id, .processing⟩

/-- No order was placed; the job of an order that was rolled back may have been
added. -/
structure NoOrder (w w' : World) : Prop where
  grows : Grows w.db w'.db
  queue : w'.queue = w.queue ∨
    exists id, w.db.orders.seq <= id ∧ id < w'.db.orders.seq ∧
      w'.queue = w.queue.add ⟨id, .processing⟩

theorem executes_place {w w' : World} {out : Outcome} {token : Token}
    {items : List ItemRequest}
    (h : Executes Healthy w (.request (.createOrder token items)) out w') :
    NoOrder w w' ∨ exists d now, NewOrder w w' d now := by
  rcases executes_createOrder h with
    ⟨stage, hended, hstored, hqueued, hkey, hsound⟩
  have hnone : Grows w.db w'.db -> (w'.queue = w.queue ∨
      stage.early = false ∧ exists id, w.db.orders.seq <= id ∧
        id < w'.db.orders.seq ∧
        w'.queue = w.queue.add ⟨id, .processing⟩) -> NoOrder w w' := by
    rintro hgrows (hsame | ⟨_, horphan⟩)
    · exact ⟨hgrows, Or.inl hsame⟩
    · exact ⟨hgrows, Or.inr horphan⟩
  cases stage with
  | idle => exact Or.inl (hnone hstored hqueued)
  | failed isOpen => exact Or.inl (hnone hstored hqueued)
  | committed d now =>
      rcases hsound d now rfl with ⟨_, hsound⟩
      have hqueue : w'.queue = w.queue.add ⟨d.order.id, .processing⟩ := by
        rcases hqueued with hadd | ⟨_, hfail⟩
        · exact hadd
        · exact absurd hfail not_mayFail_healthy
      exact Or.inr ⟨d, now, hstored, hsound.new.right, hkey d.order rfl,
        hqueue⟩
  | opened | read | created | building | inserted | totalled => cases hended

/-!
# Keys
-/

/-- Jobs belong to orders whose ids were handed out. -/
def KeysBelow (w : World) : Prop :=
  forall e, e ∈ w.queue -> e.job.orderId < w.db.orders.seq

theorem keys_add {q : Queue} {job : Job} {seq seq' : Int}
    (hkeys : forall e, e ∈ q -> e.job.orderId < seq) (hseq : seq <= seq')
    (hjob : job.orderId < seq') :
    forall e, e ∈ q.add job -> e.job.orderId < seq' := by
  intro e he
  rcases mem_add.mp he with hold | ⟨_, rfl⟩
  · exact lt_of_lt_of_le (hkeys e hold) hseq
  · exact hjob

theorem keys_settle {q : Queue} {job : Job} {seq : Int}
    (h : forall e, e ∈ q -> e.job.orderId < seq) :
    forall e, e ∈ q.settle job .completed -> e.job.orderId < seq := by
  intro e he
  rcases mem_settle.mp he with ⟨hold, _⟩ | ⟨e0, he0, hjob, rfl⟩
  · exact h e hold
  · have hlt := h e0 he0
    rw [hjob] at hlt
    exact hlt

theorem keys_scheduleNext {q : Queue} {job : Job} {seq : Int}
    (hkeys : forall e, e ∈ q -> e.job.orderId < seq)
    (hjob : job.orderId < seq) :
    forall e, e ∈ scheduleNext q job -> e.job.orderId < seq := by
  unfold scheduleNext
  cases nextStatusMap job.targetStatus with
  | none => exact hkeys
  | some next => exact keys_add hkeys (le_refl _) hjob

def isRequest : OrderTask -> Bool
  | .statusJob _ => false
  | .cancelJob _ => false
  | _ => true

theorem job_of_isRequest {t : OrderTask} (h : isRequest t = true)
    (us : List Change) : t.job us = none := by
  cases t <;> first | rfl | cases h

/-- Requests on orders and executions of queued jobs. -/
def isOrderActor : Actor -> Bool
  | .request (.place _ _) => true
  | .request (.order t) => isRequest t
  | .request (.product _) => false
  | .job _ => true

theorem completes_of_isRequest {t : OrderTask} (h : isRequest t = true)
    (out : Outcome) : Completes t out := by
  cases t <;> trivial

theorem keysBelow_step {w w' : World} {a : Actor}
    (hitems : w.db.NoDeletedItems) (hkeys : KeysBelow w)
    (ha : isOrderActor a = true) (h : QueueStep w a w') : KeysBelow w' := by
  unfold KeysBelow at hkeys ⊢
  cases h with
  | @request _ t out hexec hfinishes =>
      cases t with
      | order t =>
          rw [queue_of_request (job_of_isRequest ha) hexec]
          rcases executes_move hitems hfinishes hexec with
            hsame | ⟨o, m, _, hmoved⟩
          · rw [hsame]
            exact hkeys
          · rcases hmoved.replaced with ⟨_, _, _, hrep⟩
            rw [hrep.seq]
            exact hkeys
      | place token items =>
          rcases executes_place hexec with hnone | ⟨d, now, hnew⟩
          · rcases hnone.queue with hqueue | ⟨orphan, _, hlt, hqueue⟩
            · rw [hqueue]
              exact fun e he =>
                lt_of_lt_of_le (hkeys e he) hnone.grows.orderSeq
            · rw [hqueue]
              exact keys_add hkeys hnone.grows.orderSeq hlt
          · rw [hnew.queue]
            exact keys_add hkeys (hnew.key.left.trans hnew.key.right.le)
              hnew.key.right
      | product => cases ha
  | @job w1 job hwaiting hexec =>
      refine keys_settle ?_
      have heffect := executes_statusJob hitems hexec
      cases hmove : (OrderTask.statusJob job).move w.db with
      | none =>
          rw [hmove] at heffect
          rw [show w1.queue = w.queue from heffect.right]
          show forall e, e ∈ w.queue -> e.job.orderId < w1.db.orders.seq
          rw [show w1.db = w.db from heffect.left]
          exact hkeys
      | some found =>
          rcases found with ⟨o, m⟩
          rw [hmove] at heffect
          rcases heffect with ⟨hmoved, hqueue⟩
          rcases hmoved.replaced with ⟨_, _, _, hrep⟩
          rw [hqueue]
          show forall e : QueuedJob, _ -> e.job.orderId < w1.db.orders.seq
          rw [hrep.seq]
          exact keys_scheduleNext hkeys (hkeys _ hwaiting)

theorem noDeleted_queueStep {w w' : World} {a : Actor}
    (hitems : w.db.NoDeletedItems) (h : QueueStep w a w') :
    w'.db.NoDeletedItems := by
  cases h with
  | request hexec hfinishes => exact noDeleted_step hitems hfinishes hexec
  | @job w1 job hwaiting hexec =>
      have hafter : w1.db.NoDeletedItems :=
        noDeleted_step (t := .order (.statusJob job)) hitems trivial hexec
      exact hafter

end Jobs
end ExpressEcommerce
