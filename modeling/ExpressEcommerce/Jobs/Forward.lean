import ExpressEcommerce.Jobs.Stalled

/-!
# Jobs and the order of the statuses

A status job carries the status it will set from the moment it is scheduled.
The processor compares it with nothing but the statuses at the end of the chain,
so a job that waits while the order is moved by somebody else moves the order to
wherever it was sent.  This module states when the waiting jobs are in line with
the statuses of their orders, and which steps keep them so.
-/

namespace ExpressEcommerce
namespace Jobs

open Foundation
open Store
open Service
open Orders
open Products
open Runs

/-- Every order keeps its row or moves to the next status; an order that is
deleted, cancelled or delivered has no next status to move to. -/
def Forward (db db' : Database) : Prop :=
  forall id o, db.orders.find? id = some o ->
    db'.orders.find? id = some o ∨
      exists next now, nextStatusMap o.status = some next ∧
        o.deletedAt = none ∧
        db'.orders.find? id = some { o with status := next, updatedAt := now }

/-- Whatever job is executed next, it moves orders forward only. -/
def JobsForward (w : World) : Prop :=
  forall job, isWaiting w.queue job ->
    forall out w', Executes AnyEnv w (.statusJob job) out w' ->
      Forward w.db w'.db

/-!
# Steps in which commands may fail
-/

/-- One step of a run.  A job whose processor throws is tried again or given
up. -/
inductive Turn : World -> Actor -> World -> Prop where
  | request {w w' : World} {t : RunTask} {out : Outcome}
      (h : Executes AnyEnv w t.task out w') (hfinishes : t.Finishes out) :
      Turn w (.request t) w'
  | job {w w' : World} {job : Job} {out : Outcome} {state : JobState}
      (hwaiting : isWaiting w.queue job)
      (h : Executes AnyEnv w (.statusJob job) out w')
      (hstate : out = .returned -> state = .completed) :
      Turn w (.job job) { w' with queue := w'.queue.settle job state }

theorem turn_of_queueStep {w w' : World} {a : Actor} (h : QueueStep w a w') :
    Turn w a w' := by
  cases h with
  | request hexec hfinishes => exact .request hexec.anyEnv hfinishes
  | job hwaiting hexec => exact .job hwaiting hexec.anyEnv (fun _ => rfl)

theorem isWaiting_of_settle {q : Queue} {job other : Job} {state : JobState}
    (h : isWaiting (q.settle job state) other) :
    isWaiting q other ∨ other = job := by
  rcases List.mem_map.mp h with ⟨e, he, heq⟩
  split at heq
  · rename_i hjob
    refine Or.inr ?_
    rw [← hjob]
    exact (congrArg QueuedJob.job heq).symm
  · rw [heq] at he
    exact Or.inl he

theorem settle_isWaiting {q : Queue} {job other : Job} {state : JobState}
    (h : isWaiting q other) (hne : other ≠ job) :
    isWaiting (q.settle job state) other :=
  List.mem_map.mpr ⟨_, h, if_neg hne⟩

/-- A status job leaves store and queue alone, or sets its target; when it sets
the target it may still fail to schedule the next job. -/
inductive StatusSet (w w' : World) (job : Job) : Prop where
  | none (hdb : w'.db = w.db) (hqueue : w'.queue = w.queue)
  | some (o : Order)
      (hmove : (OrderTask.statusJob job).move w.db =
        .some (o, .set job.targetStatus))
      (hmoved : Moved w.db w'.db o (.set job.targetStatus))
      (hqueue : w'.queue = w.queue ∨
        exists next, nextStatusMap job.targetStatus = .some next ∧
          w'.queue = w.queue.add ⟨job.orderId, next⟩)

theorem statusSet_of_executes {ok : Env -> Prop} {w w' : World} {job : Job}
    {out : Outcome} (hitems : w.db.NoDeletedItems)
    (h : Executes ok w (.statusJob job) out w') : StatusSet w w' job := by
  rcases executes_effect (t := .statusJob job) h with
    ⟨performed, todo, heffect⟩
  have hsame : performed = [] -> StatusSet w w' job := by
    rintro rfl
    refine .none (performs_nil heffect.performs) ?_
    rcases heffect.queue with ⟨j, hj, _⟩ | ⟨hqueue, _⟩
    · cases hj
    · exact hqueue
  rcases whole_of_completes (t := .statusJob job) trivial h heffect with
    rfl | hnil
  · have hplan := heffect.plan
    have hperforms := heffect.performs
    have hqueue := heffect.queue
    rw [List.append_nil] at hplan
    have hdecided := decided_move (.statusJob job) w.db
    cases hmove : (OrderTask.statusJob job).move w.db with
    | none =>
        rw [hmove] at hdecided
        exact hsame (hplan.symm.trans hdecided)
    | some found =>
        rcases found with ⟨o, m⟩
        rw [hmove, hplan] at hdecided
        rcases move_statusJob hmove with ⟨hid, rfl, _⟩
        rcases hdecided with ⟨hfound, hmakes⟩
        refine .some o hmove (moved_of_makes hitems hfound hmakes hperforms) ?_
        rcases hqueue with ⟨j, hj, hadd⟩ | ⟨hkept, _⟩
        · cases hmakes
          rcases Option.map_eq_some_iff.mp hj with ⟨next, hnext, rfl⟩
          rw [hid] at hadd
          exact Or.inr ⟨next, hnext, hadd⟩
        · exact Or.inl hkept
  · exact hsame hnil

theorem StatusSet.seq {w w' : World} {job : Job} (h : StatusSet w w' job) :
    w'.db.orders.seq = w.db.orders.seq := by
  cases h with
  | none hdb _ => rw [hdb]
  | some _ _ hmoved _ =>
      rcases hmoved.replaced with ⟨_, _, _, hrep⟩
      exact hrep.seq

theorem StatusSet.waiting {w w' : World} {job other : Job}
    (h : StatusSet w w' job) (hother : isWaiting w'.queue other) :
    isWaiting w.queue other ∨ other.orderId = job.orderId ∧
      nextStatusMap job.targetStatus = .some other.targetStatus := by
  cases h with
  | none _ hqueue =>
      rw [hqueue] at hother
      exact Or.inl hother
  | some _ _ _ hqueue =>
      rcases hqueue with hsame | ⟨next, hnext, hadd⟩
      · rw [hsame] at hother
        exact Or.inl hother
      · rw [hadd] at hother
        rcases isWaiting_add.mp hother with hold | ⟨_, rfl⟩
        · exact Or.inl hold
        · exact Or.inr ⟨rfl, hnext⟩

/-!
# Jobs in line
-/

/-- A job with this target does no harm to an order with this status. -/
def inLine (status target : Status) : Bool :=
  decide (status = .cancelled ∨ status = .delivered ∨ status = target ∨
    nextStatusMap status = some target)

theorem inLine_self (status : Status) : inLine status status = true := by
  cases status <;> rfl

theorem inLine_next {status next : Status}
    (h : nextStatusMap status = some next) : inLine status next = true :=
  decide_eq_true (Or.inr (Or.inr (Or.inr h)))

/-- Every waiting job is in line with its order, if the order is live. -/
def InLine (w : World) : Prop :=
  forall job o, isWaiting w.queue job ->
    w.db.orders.find? job.orderId = some o -> o.deletedAt = none ->
      inLine o.status job.targetStatus = true

theorem deletedAt_of_set {o : Order} {status : Status}
    {deletedAt : Option Nat} (hguard : (Move.set status).Guard o)
    (h : deletedAt.isSome = (Move.set status).deleted o.deletedAt.isSome) :
    deletedAt = o.deletedAt := by
  have hnone : o.deletedAt = none := hguard.left
  have hsame : deletedAt.isSome = o.deletedAt.isSome := h
  rw [hnone] at hsame ⊢
  cases deletedAt with
  | none => rfl
  | some n => cases hsame

theorem forward_of_inLine {ok : Env -> Prop} {w w' : World} {job : Job}
    {out : Outcome} (hitems : w.db.NoDeletedItems)
    (hline : forall o, w.db.orders.find? job.orderId = some o ->
      o.deletedAt = none -> inLine o.status job.targetStatus = true)
    (h : Executes ok w (.statusJob job) out w') : Forward w.db w'.db := by
  intro id o ho
  cases statusSet_of_executes hitems h with
  | none hdb _ =>
      rw [hdb]
      exact Or.inl ho
  | some o1 hmove hmoved _ =>
      rcases guard_of_move hmove with ⟨hfound, hguard⟩
      rcases move_statusJob hmove with ⟨hid, _, hcancelled⟩
      rcases hmoved.replaced with ⟨now, deletedAt, hdeleted, hrep⟩
      rw [hrep.find?]
      split
      · rename_i heq
        rw [heq, hfound] at ho
        cases ho
        have hin := hline o (by rw [← hid]; exact hfound) hguard.left
        have hnext : nextStatusMap o.status = some job.targetStatus := by
          rcases of_decide_eq_true hin with hc | hd | hsame | hnext
          · exact absurd hc hcancelled
          · exact absurd hd hguard.right.left
          · exact absurd hsame hguard.right.right
          · exact hnext
        rw [deletedAt_of_set hguard hdeleted]
        exact Or.inr ⟨job.targetStatus, now, hnext, hguard.left, rfl⟩
      · exact Or.inl ho

theorem move_of_not_inLine {db : Database} {job : Job} {o : Order}
    (ho : db.orders.find? job.orderId = some o) (hlive : o.deletedAt = none)
    (hout : inLine o.status job.targetStatus = false) :
    (OrderTask.statusJob job).move db =
      some (o, .set job.targetStatus) := by
  have hcases := of_decide_eq_false hout
  have hfound : db.order? job.orderId true = some o :=
    Database.order?_true_eq_some_iff.mpr ⟨ho, hlive⟩
  dsimp only [OrderTask.move]
  rw [hfound, Option.bind_some, if_neg]
  · exact if_neg (fun hsame => hcases (Or.inr (Or.inr (Or.inl hsame))))
  · rintro (hc | hd)
    · exact hcases (Or.inl hc)
    · exact hcases (Or.inr (Or.inl hd))

theorem inLine_of_forward {w w' : World} {job : Job} {out : Outcome}
    (hitems : w.db.NoDeletedItems)
    (h : Executes Healthy w (.statusJob job) out w')
    (hforward : Forward w.db w'.db) {o : Order}
    (ho : w.db.orders.find? job.orderId = some o)
    (hlive : o.deletedAt = none) :
    inLine o.status job.targetStatus = true := by
  by_contra hout
  rw [Bool.not_eq_true] at hout
  have hmove := move_of_not_inLine ho hlive hout
  have hguard := (guard_of_move hmove).right
  have heffect := executes_statusJob hitems h
  rw [hmove] at heffect
  rcases heffect.left.replaced with ⟨now, deletedAt, _, hrep⟩
  have hkey : o.id = job.orderId := (move_statusJob hmove).left
  have hrow : w'.db.orders.find? job.orderId = some { o with
      status := job.targetStatus, deletedAt := deletedAt, updatedAt := now } := by
    rw [hrep.find?, if_pos hkey.symm]
    rfl
  rcases hforward _ o ho with hsame | ⟨next, now', hnext, _, hnew⟩
  · rw [hrow] at hsame
    have hstatus := congrArg Order.status (Option.some.inj hsame)
    exact hguard.right.right hstatus.symm
  · rw [hrow] at hnew
    have hstatus : job.targetStatus = next :=
      congrArg Order.status (Option.some.inj hnew)
    rw [hstatus, inLine_next hnext] at hout
    cases hout

theorem jobsForward_iff_inLine {w : World} (hitems : w.db.NoDeletedItems) :
    JobsForward w <-> InLine w := by
  constructor
  · intro hforward job o hwaiting ho hlive
    have hexec := executes_perform (.statusJob job) w
    exact inLine_of_forward hitems hexec
      (hforward job hwaiting _ _ hexec.anyEnv) ho hlive
  · intro hline job hwaiting out w' h
    exact forward_of_inLine hitems
      (fun o ho hlive => hline job o hwaiting ho hlive) h

/-!
# Steps
-/

/-- The order that a step acts on when nothing fails, with its move. -/
def actorMove (db : Database) : Actor -> Option (Order × Move)
  | .request (.order t) => t.effective db
  | .request _ => none
  | .job job => (OrderTask.statusJob job).effective db

/-- The waiting jobs of the order that a step acts on are in line with the
status it sets. -/
def KeepsLine (w : World) (a : Actor) : Prop :=
  forall o m job, actorMove w.db a = some (o, m) ->
    isWaiting w.queue job -> job.orderId = o.id ->
      inLine m.status job.targetStatus = true

/-- The jobs that wait belong to orders whose ids were handed out. -/
def WaitingBelow (w : World) : Prop :=
  forall job, isWaiting w.queue job -> job.orderId < w.db.orders.seq

theorem inLine_moved {w w' : World} {o : Order} {m : Move}
    (hmoved : Moved w.db w'.db o m) (hinv : InLine w)
    (hqueue : forall job, isWaiting w'.queue job -> isWaiting w.queue job ∨
      job.orderId = o.id ∧ nextStatusMap m.status = some job.targetStatus)
    (hkeeps : forall job, isWaiting w.queue job -> job.orderId = o.id ->
      inLine m.status job.targetStatus = true) : InLine w' := by
  rcases hmoved.replaced with ⟨now, deletedAt, _, hrep⟩
  intro job o' hwaiting ho' hlive
  rw [hrep.find?] at ho'
  split at ho'
  · rename_i hid
    cases ho'
    rcases hqueue job hwaiting with hold | ⟨_, hnext⟩
    · exact hkeeps job hold hid
    · exact inLine_next hnext
  · rename_i hid
    rcases hqueue job hwaiting with hold | ⟨heq, _⟩
    · exact hinv job o' hold ho' hlive
    · exact absurd heq hid

theorem inLine_of_same {w w' : World} (hdb : w'.db = w.db) (hinv : InLine w)
    (hqueue : forall job, isWaiting w'.queue job -> isWaiting w.queue job) :
    InLine w' := by
  intro job o hwaiting ho hlive
  rw [hdb] at ho
  exact hinv job o (hqueue job hwaiting) ho hlive

theorem effective_statusJob (job : Job) (db : Database) :
    (OrderTask.statusJob job).effective db =
      (OrderTask.statusJob job).move db := by
  unfold OrderTask.effective
  rw [if_pos (acceptsAll_statusJob job db)]

theorem inLine_job {w w' : World} {job : Job} {out : Outcome}
    {state : JobState} (hitems : w.db.NoDeletedItems) (hinv : InLine w)
    (hwaiting : isWaiting w.queue job) (hkeeps : KeepsLine w (.job job))
    (h : Executes AnyEnv w (.statusJob job) out w') :
    InLine { w' with queue := w'.queue.settle job state } := by
  have hset := statusSet_of_executes hitems h
  have hsettled : forall other,
      isWaiting (w'.queue.settle job state) other ->
        isWaiting w.queue other ∨ other.orderId = job.orderId ∧
          nextStatusMap job.targetStatus = some other.targetStatus := by
    intro other hother
    rcases isWaiting_of_settle hother with hold | rfl
    · exact hset.waiting hold
    · exact Or.inl hwaiting
  cases hset with
  | none hdb hqueue =>
      refine inLine_of_same hdb hinv (fun other hother => ?_)
      rcases isWaiting_of_settle hother with hold | rfl
      · rw [← hqueue]
        exact hold
      · exact hwaiting
  | some o hmove hmoved _ =>
      have hid := (move_statusJob hmove).left
      refine inLine_moved (m := .set job.targetStatus) hmoved hinv
        (fun other hother => ?_)
        (fun other hold heq => hkeeps o _ other
          ((effective_statusJob job w.db).trans hmove) hold heq)
      rw [hid]
      exact hsettled other hother

structure MayPlace (w w' : World) : Prop where
  seq : w.db.orders.seq <= w'.db.orders.seq
  row : forall {id o}, w'.db.orders.find? id = some o ->
    w.db.orders.find? id = some o ∨
      w.db.orders.seq <= id ∧ o.status = .pending
  waiting : forall {job}, isWaiting w'.queue job ->
    isWaiting w.queue job ∨ w.db.orders.seq <= job.orderId ∧
      job.orderId < w'.db.orders.seq ∧ job.targetStatus = .processing

theorem mayPlace_of_executes {ok : Env -> Prop} {w w' : World}
    {out : Outcome} {token : Token} {items : List ItemRequest}
    (h : Executes ok w (.request (.createOrder token items)) out w') :
    MayPlace w w' := by
  rcases executes_createOrder h with
    ⟨stage, hended, hstored, hqueued, hkey, hsound⟩
  have hadded : forall {id : Int}, w.db.orders.seq <= id ->
      id < w'.db.orders.seq -> w'.queue = w.queue.add ⟨id, .processing⟩ ->
      forall {job}, isWaiting w'.queue job ->
        isWaiting w.queue job ∨ w.db.orders.seq <= job.orderId ∧
          job.orderId < w'.db.orders.seq ∧ job.targetStatus = .processing := by
    intro id hle hlt hqueue job hjob
    rw [hqueue] at hjob
    rcases isWaiting_add.mp hjob with hold | ⟨_, rfl⟩
    · exact Or.inl hold
    · exact Or.inr ⟨hle, hlt, rfl⟩
  have hkept : w'.queue = w.queue -> forall {job}, isWaiting w'.queue job ->
      isWaiting w.queue job ∨ w.db.orders.seq <= job.orderId ∧
        job.orderId < w'.db.orders.seq ∧ job.targetStatus = .processing := by
    intro hqueue job hjob
    rw [hqueue] at hjob
    exact Or.inl hjob
  have hnone : Grows w.db w'.db -> (w'.queue = w.queue ∨
      stage.early = false ∧ exists id, w.db.orders.seq <= id ∧
        id < w'.db.orders.seq ∧
        w'.queue = w.queue.add ⟨id, .processing⟩) -> MayPlace w w' := by
    intro hgrows hqueue
    refine ⟨hgrows.orderSeq, fun ho => ?_, ?_⟩
    · rw [find?_of_rows hgrows.orders] at ho
      exact Or.inl ho
    · rcases hqueue with hsame | ⟨_, id, hle, hlt, hadd⟩
      · exact hkept hsame
      · exact hadded hle hlt hadd
  cases stage with
  | idle => exact hnone hstored hqueued
  | failed isOpen => exact hnone hstored hqueued
  | committed d now =>
      rcases hstored with ⟨mid, hgrows, hplaced⟩
      rcases hkey d.order rfl with ⟨hle, hlt⟩
      refine ⟨hle.trans hlt.le, fun ho => ?_, ?_⟩
      · rw [hplaced.order] at ho
        split at ho
        · rename_i hid
          cases ho
          rw [hid]
          exact Or.inr ⟨hle, (hsound d now rfl).right.new.right.left⟩
        · rw [find?_of_rows hgrows.orders] at ho
          exact Or.inl ho
      · rcases hqueued with hadd | ⟨hsame, _⟩
        · exact hadded hle hlt hadd
        · exact hkept hsame
  | opened | read | created | building | inserted | totalled => cases hended

theorem inLine_place {w w' : World} (hbelow : WaitingBelow w)
    (hinv : InLine w) (h : MayPlace w w') : InLine w' := by
  intro job o hwaiting ho hlive
  rcases h.row ho with hold | ⟨hnew, hpending⟩
  · rcases h.waiting hwaiting with hbefore | ⟨hle, _, _⟩
    · exact hinv job o hbefore hold hlive
    · exact absurd (Table.lt_seq_of_find? hold) (not_lt.mpr hle)
  · rcases h.waiting hwaiting with hbefore | ⟨_, _, htarget⟩
    · exact absurd (hbelow job hbefore) (not_lt.mpr hnew)
    · rw [hpending, htarget]
      rfl

theorem inLine_step {w w' : World} {a : Actor}
    (hitems : w.db.NoDeletedItems) (hbelow : WaitingBelow w)
    (hinv : InLine w) (ha : isOrderActor a = true) (hkeeps : KeepsLine w a)
    (h : Turn w a w') : InLine w' := by
  cases h with
  | @request _ t out hexec hfinishes =>
      cases t with
      | order t =>
          have hqueue := queue_of_request (job_of_isRequest ha) hexec
          rcases executes_effective hitems hfinishes hexec with
            hsame | ⟨o, m, he, hmoved⟩
          · refine inLine_of_same hsame hinv (fun job hjob => ?_)
            rw [← hqueue]
            exact hjob
          · refine inLine_moved hmoved hinv (fun job hjob => ?_)
              (fun job hold heq => hkeeps o m job he hold heq)
            rw [hqueue] at hjob
            exact Or.inl hjob
      | place token items =>
          exact inLine_place hbelow hinv (mayPlace_of_executes hexec)
      | product => cases ha
  | job hwaiting hexec _ => exact inLine_job hitems hinv hwaiting hkeeps hexec

theorem waitingBelow_step {w w' : World} {a : Actor}
    (hitems : w.db.NoDeletedItems) (hbelow : WaitingBelow w)
    (ha : isOrderActor a = true) (h : Turn w a w') : WaitingBelow w' := by
  cases h with
  | @request _ t out hexec hfinishes =>
      cases t with
      | order t =>
          intro job hjob
          rw [queue_of_request (job_of_isRequest ha) hexec] at hjob
          rcases executes_move hitems hfinishes hexec with
            hsame | ⟨o, m, _, hmoved⟩
          · rw [hsame]
            exact hbelow job hjob
          · rcases hmoved.replaced with ⟨_, _, _, hrep⟩
            rw [hrep.seq]
            exact hbelow job hjob
      | place token items =>
          have hplace := mayPlace_of_executes hexec
          intro job hjob
          rcases hplace.waiting hjob with hold | ⟨_, hlt, _⟩
          · exact lt_of_lt_of_le (hbelow job hold) hplace.seq
          · exact hlt
      | product => cases ha
  | @job w1 job out state hwaiting hexec hstate =>
      have hset := statusSet_of_executes hitems hexec
      intro other hother
      show other.orderId < w1.db.orders.seq
      rw [hset.seq]
      rcases isWaiting_of_settle hother with hold | rfl
      · rcases hset.waiting hold with hold | ⟨heq, _⟩
        · exact hbelow other hold
        · rw [heq]
          exact hbelow job hwaiting
      · exact hbelow other hwaiting

theorem noDeleted_turn {w w' : World} {a : Actor}
    (hitems : w.db.NoDeletedItems) (h : Turn w a w') :
    w'.db.NoDeletedItems := by
  cases h with
  | request hexec hfinishes => exact noDeleted_step hitems hfinishes hexec
  | @job w1 job out state hwaiting hexec hstate =>
      have hafter : w1.db.NoDeletedItems :=
        noDeleted_step (t := .order (.statusJob job)) hitems trivial hexec
      exact hafter

/-!
# The condition is necessary
-/

theorem inLine_of_moved {w w' : World} {o : Order} {m : Move} {job : Job}
    (hguard : m.Guard o) (hmoved : Moved w.db w'.db o m) (hline : InLine w')
    (hwaiting : isWaiting w'.queue job) (hid : job.orderId = o.id) :
    inLine m.status job.targetStatus = true := by
  rcases hmoved.replaced with ⟨now, deletedAt, hdeleted, hrep⟩
  have hrow := hrep.find? job.orderId
  rw [if_pos hid] at hrow
  have hlive : m.deleted o.deletedAt.isSome = false ->
      inLine m.status job.targetStatus = true := by
    intro hnot
    rw [hnot] at hdeleted
    refine hline job _ hwaiting hrow ?_
    exact Option.not_isSome_iff_eq_none.mp (by rw [hdeleted]; simp)
  cases m with
  | set status =>
      refine hlive ?_
      show o.deletedAt.isSome = false
      rw [hguard.left]
      rfl
  | cancel => rfl
  | reopen => exact hlive rfl

theorem keepsLine_of_inLine {w : World} {a : Actor}
    (hitems : w.db.NoDeletedItems) (ha : isOrderActor a = true)
    (hready : forall job, a = .job job -> isWaiting w.queue job)
    (h : forall w', Turn w a w' -> InLine w') : KeepsLine w a := by
  intro o m job hmove hwaiting hid
  cases a with
  | request t =>
      cases t with
      | order t =>
          have hexec := executes_after w (.order t)
          have hguard := (guard_of_move (move_of_effective hmove).right).right
          refine inLine_of_moved hguard (moved_of_effective hitems hmove hexec)
            (h _ (.request hexec.anyEnv (completes_of_isRequest ha _))) ?_ hid
          rw [queue_of_request (job_of_isRequest ha) hexec]
          exact hwaiting
      | place token items => cases hmove
      | product t => cases hmove
  | job own =>
      by_cases hown : job = own
      · subst hown
        rcases move_statusJob (move_of_effective hmove).right with
          ⟨_, rfl, _⟩
        exact inLine_self _
      · have hexec := executes_perform (.statusJob own) w
        have hguard := (guard_of_move (move_of_effective hmove).right).right
        have hmoved := moved_of_effective hitems hmove hexec
        have heffect := executes_statusJob hitems hexec
        rw [(move_of_effective hmove).right] at heffect
        have hstill : isWaiting ((Task.statusJob own).perform w).2.queue
            job := by
          rw [heffect.right]
          exact isWaiting_scheduleNext.mpr (Or.inl hwaiting)
        have hturn : Turn w (.job own) (executed w own) :=
          .job (hready own rfl) hexec.anyEnv (fun _ => rfl)
        have hmoved' : Moved w.db (executed w own).db o m := hmoved
        exact inLine_of_moved hguard hmoved' (h _ hturn)
          (settle_isWaiting hstill hown) hid

/-!
# Runs
-/

/-- Runs of requests on orders and of job executions. -/
def TurnRun (Allowed : World -> Actor -> Prop) : World -> World -> Prop :=
  Relation.ReflTransGen (fun w w' =>
    exists a, isOrderActor a = true ∧ Allowed w a ∧ Turn w a w')

theorem turnRun_invariant {Allowed : World -> Actor -> Prop}
    {J : World -> Prop}
    (hstep : forall {w w' : World} {a : Actor}, J w ->
      isOrderActor a = true -> Allowed w a -> Turn w a w' -> J w')
    {start w : World} (hstart : J start) (hrun : TurnRun Allowed start w) :
    J w := by
  refine invariant_of_steps ?_ hstart hrun
  rintro w w' hJ ⟨a, ha, hallowed, hturn⟩
  exact hstep hJ ha hallowed hturn

/-- In every reachable world whose jobs move orders forward only, a step leads
to such worlds exactly when it keeps the waiting jobs in line, and in a run of
such steps no job ever moves an order in another direction. -/
theorem jobs_forward_iff_keepsLine {start : World}
    (hitems : start.db.NoDeletedItems) (hbelow : WaitingBelow start)
    (hstart : JobsForward start) :
    (forall w a, TurnRun (fun _ _ => True) start w -> JobsForward w ->
      isOrderActor a = true ->
      (forall job, a = .job job -> isWaiting w.queue job) ->
        ((forall w', Turn w a w' -> JobsForward w') <-> KeepsLine w a)) ∧
    (forall w, TurnRun KeepsLine start w -> JobsForward w) := by
  have hkept : forall {w w' : World} {a : Actor},
      w.db.NoDeletedItems ∧ WaitingBelow w -> isOrderActor a = true ->
        Turn w a w' -> w'.db.NoDeletedItems ∧ WaitingBelow w' :=
    fun hJ ha h => ⟨noDeleted_turn hJ.left h,
      waitingBelow_step hJ.left hJ.right ha h⟩
  constructor
  · intro w a hrun hforward ha hready
    have hboth := turnRun_invariant
      (J := fun w => w.db.NoDeletedItems ∧ WaitingBelow w)
      (fun hJ ha _ h => hkept hJ ha h) ⟨hitems, hbelow⟩ hrun
    rcases hboth with ⟨hi, hb⟩
    constructor
    · intro hafter
      refine keepsLine_of_inLine hi ha hready (fun w' h => ?_)
      exact (jobsForward_iff_inLine (noDeleted_turn hi h)).mp (hafter w' h)
    · intro hkeeps w' h
      refine (jobsForward_iff_inLine (noDeleted_turn hi h)).mpr ?_
      exact inLine_step hi hb ((jobsForward_iff_inLine hi).mp hforward) ha
        hkeeps h
  · intro w hrun
    have hall := turnRun_invariant
      (J := fun w => (w.db.NoDeletedItems ∧ WaitingBelow w) ∧ InLine w)
      (fun hJ ha hallowed h => ⟨hkept hJ.left ha h,
        inLine_step hJ.left.left hJ.left.right hJ.right ha hallowed h⟩)
      ⟨⟨hitems, hbelow⟩, (jobsForward_iff_inLine hitems).mp hstart⟩ hrun
    exact (jobsForward_iff_inLine hall.left.left).mpr hall.right

/-!
# A job that comes late
-/

/-- The order is patched to shipped while its first job waits. -/
def shopShipped : World :=
  after shopWithOrder (.order shipFirst)

/-- The waiting job takes the order back from shipped to processing. -/
theorem late_job_moves_back :
    TurnRun (fun _ _ => True) shop shopShipped ∧
      isWaiting shopShipped.queue ⟨1, .processing⟩ ∧
      shopShipped.db.orders.find? 1 =
        some ⟨1, 1, 500, .shipped, 0, 0, none⟩ ∧
      (executed shopShipped ⟨1, .processing⟩).db.orders.find? 1 =
        some ⟨1, 1, 500, .processing, 0, 0, none⟩ ∧
      ¬ JobsForward shopShipped := by
  have hrow : shopShipped.db.orders.find? 1 =
      some ⟨1, 1, 500, .shipped, 0, 0, none⟩ := by decide
  have hwaiting : isWaiting shopShipped.queue ⟨1, .processing⟩ := by decide
  refine ⟨?_, hwaiting, hrow, by decide, ?_⟩
  · have hpatch : QueueStep shopWithOrder
        (.request (.order shipFirst))
        shopShipped := queueStep_after trivial
    exact .tail (.single ⟨_, rfl, trivial, turn_of_queueStep queueStep_shopWithOrder⟩)
      ⟨_, rfl, trivial, turn_of_queueStep hpatch⟩
  · intro hforward
    have hitems : shopShipped.db.NoDeletedItems := by decide
    have hline := (jobsForward_iff_inLine hitems).mp hforward
    exact absurd (hline ⟨1, .processing⟩ _ hwaiting hrow rfl) (by decide)

/-- The execution of the first job keeps the jobs in line. -/
theorem first_job_moves_forward :
    KeepsLine shopWithOrder (.job ⟨1, .processing⟩) ∧
      JobsForward shopProcessed := by
  have hitems : shop.db.NoDeletedItems := by decide
  have hbelow : WaitingBelow shop := by
    intro job hjob
    cases hjob
  have hstart : JobsForward shop := by
    intro job hjob
    cases hjob
  have hkeeps : KeepsLine shopWithOrder (.job ⟨1, .processing⟩) := by
    intro o m job hmove hwaiting hid
    have hqueue : shopWithOrder.queue = [⟨⟨1, .processing⟩, .waiting⟩] := by
      decide
    unfold isWaiting at hwaiting
    rw [hqueue, List.mem_singleton] at hwaiting
    cases hwaiting
    rcases move_statusJob (move_of_effective hmove).right with ⟨_, rfl, _⟩
    rfl
  have hjob : QueueStep shopWithOrder (.job ⟨1, .processing⟩) shopProcessed :=
    step_executed (by decide) (by decide)
  have hrun : TurnRun KeepsLine shop shopProcessed :=
    .tail (.single ⟨.request (.place (.valid 1) [⟨1, 2⟩]), rfl,
        (fun _ _ _ hmove => by cases hmove), turn_of_queueStep queueStep_shopWithOrder⟩)
      ⟨_, rfl, hkeeps, turn_of_queueStep hjob⟩
  exact ⟨hkeeps, (jobs_forward_iff_keepsLine hitems hbelow hstart).right _ hrun⟩

end Jobs
end ExpressEcommerce
