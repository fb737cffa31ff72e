import ExpressEcommerce.Service.Kinds

/-!
# Errands

What a task still has to do for the queue.  `createOrder` inserts an order in its
transaction, and the hook of the model schedules the first job before anything
is committed.  `statusProcessor` reads its order, writes the status and schedules
the next job.  No other task adds jobs.
-/

namespace ExpressEcommerce
namespace Jobs

open Foundation
open Store
open Service
open Foundation.Action

/-- How far a task has come.  `aside` and `ordering` are the tasks that add no
jobs, the latter those that write orders. -/
inductive Errand where
  | aside
  | ordering
  | placing
  | opened
  | entered (id : Int)
  | queued (id : Int)
  | placed (id : Int)
  | begun (job : Job)
  | bound (job : Job)
  | moved (job : Job)
  | finished (job : Job)
  deriving DecidableEq, Repr

namespace Errand

def job? : Errand -> Option Job
  | begun job => some job
  | bound job => some job
  | moved job => some job
  | finished job => some job
  | _ => none

def order? : Errand -> Option Int
  | entered id => some id
  | queued id => some id
  | placed id => some id
  | _ => none

def places : Errand -> Bool
  | placing => true
  | opened => true
  | entered _ => true
  | queued _ => true
  | placed _ => true
  | _ => false

/-- What follows from the row that `statusProcessor` has read. -/
def read (job : Job) : Option OrderGraph -> Errand
  | none => finished job
  | some graph =>
      if (graph.order.deletedAt.isSome ∨ graph.order.status = .cancelled) ∨
          graph.order.status = .delivered ∨
          graph.order.status = job.targetStatus then finished job
      else bound job

def written (job : Job) : Errand :=
  match nextStatusMap job.targetStatus with
  | none => finished job
  | some _ => moved job

/-- The statements of `createOrder` on an order that has been inserted. -/
def lays : Cmd -> Bool
  | .insert inTx (.item _ _ _ _) => inTx
  | .update _ (.orderTotal _ _) => true
  | .update _ (.productStock _ _) => true
  | .redisDel _ => true
  | c => calm c

def may (faults : Prop) : Errand -> Cmd -> Prop
  | aside, c =>
      (calm c || fillsCache c || writesProduct c || writesCustomer c) = true
  | ordering, c => (calm c || movesOrder c) = true
  | placing, .begin => True
  | placing, c => calm c = true
  | opened, .rollback => True
  | opened, .insert inTx (.order _ _ status) =>
      inTx = true ∧ status = .pending
  | opened, c => calm c = true
  | entered _, .redisDel _ => True
  | entered id, .addJob job => job = ⟨id, .processing⟩
  | entered _, .commit => faults
  | entered _, .rollback => faults
  | entered _, c => faults ∧ lays c = true
  | queued _, .commit => True
  | queued _, .rollback => True
  | queued _, c => lays c = true
  | placed id, .addJob job => job = ⟨id, .processing⟩
  | placed _, .rollback => True
  | placed _, _ => False
  | begun job, c => c = .query false (.orderByPk job.orderId true {})
  | bound job, c =>
      c = .update false (.orderStatus job.orderId job.targetStatus)
  | moved _, .redisDel _ => True
  | moved job, .addJob next =>
      next.orderId = job.orderId ∧
        nextStatusMap job.targetStatus = some next.targetStatus
  | moved _, _ => False
  | finished _, .redisDel _ => True
  | finished _, _ => False

/-- The replies that have to be expected. -/
def foreseen (faults : Prop) : (c : Cmd) -> service.Reply c -> Prop
  | .query false (.orderByPk id _ _), .ok found =>
      forall graph, found = some graph -> graph.order.id = id
  | .query false (.orderByPk _ _ _), .error _ => faults
  | .update _ (.orderStatus _ _), .error _ => faults
  | .addJob _, .error _ => faults
  | _, _ => True

def after : Errand -> (c : Cmd) -> service.Reply c -> Errand
  | placing, .begin, .ok _ => opened
  | opened, .rollback, _ => placing
  | opened, .insert true (.order _ _ _), .ok reply => entered reply.1
  | entered id, .addJob _, .ok _ => queued id
  | entered id, .commit, _ => placed id
  | entered id, .rollback, _ => placed id
  | queued id, .commit, _ => placed id
  | queued id, .rollback, _ => placed id
  | begun job, .query false (.orderByPk _ _ _), .ok found => read job found
  | bound job, .update false (.orderStatus _ _), .ok _ => written job
  | moved job, .addJob _, .ok _ => finished job
  | g, _, _ => g

section Lemmas

variable {g : Errand} {c : Cmd} {r : service.Reply c}

theorem read_eq (job : Job) (found : Option OrderGraph) :
    read job found = finished job ∨ read job found = bound job := by
  cases found with
  | none => exact Or.inl rfl
  | some graph =>
      unfold read
      dsimp only
      split
      · exact Or.inl rfl
      · exact Or.inr rfl

theorem written_eq (job : Job) :
    written job = finished job ∨ written job = moved job := by
  unfold written
  split
  · exact Or.inl rfl
  · exact Or.inr rfl

theorem job?_after : (g.after c r).job? = g.job? := by
  unfold after
  split
  case h_9 job _ _ _ found =>
    rcases read_eq job found with h | h <;> rw [h] <;> rfl
  case h_10 job _ _ _ =>
    rcases written_eq job with h | h <;> rw [h] <;> rfl
  all_goals rfl

theorem order?_after {id : Int} (h : g.order? = some id) :
    (g.after c r).order? = some id := by
  unfold after
  split <;> first | exact h | cases h

theorem places_after : (g.after c r).places = g.places := by
  unfold after
  split
  case h_9 job _ _ _ found =>
    rcases read_eq job found with h | h <;> rw [h] <;> rfl
  case h_10 job _ _ _ =>
    rcases written_eq job with h | h <;> rw [h] <;> rfl
  all_goals rfl

theorem places_of_order? {id : Int} (h : g.order? = some id) :
    g.places = true := by
  cases g <;> first | rfl | cases h

theorem may_addJob {faults : Prop} {job : Job} (h : g.may faults (.addJob job)) :
    (exists id, g.order? = some id ∧ job = ⟨id, .processing⟩) ∨
      exists old, g.job? = some old ∧ job.orderId = old.orderId ∧
        nextStatusMap old.targetStatus = some job.targetStatus := by
  cases g with
  | entered id => exact Or.inl ⟨id, rfl, h⟩
  | placed id => exact Or.inl ⟨id, rfl, h⟩
  | moved old => exact Or.inr ⟨old, rfl, h⟩
  | _ => cases h

end Lemmas

end Errand

def errands (faults : Prop) : Protocol service Errand where
  may := Errand.may faults
  next := fun g c r g' => Errand.foreseen faults c r ∧ g' = g.after c r

def errandOf : Task -> Errand
  | .statusJob job => .begun job
  | task =>
      match kindOf task with
      | .placing => .placing
      | .ordering => .ordering
      | _ => .aside

section Tasks

variable {faults : Prop}

theorem wp_invalidate {g : Errand} {orderId : Int}
    {Q : Unit -> Errand -> Prop} {E : String -> Errand -> Prop}
    (hmay : g.may faults (.redisDel (orderKey orderId)))
    (hafter : forall r, g.after (.redisDel (orderKey orderId)) r = g)
    (h : Q () g) :
    wp (errands faults) (invalidateOrderCache orderId) Q E g := by
  refine (wp_tryCatch _ _ _).mpr (wp_command hmay ?_ ?_)
  · rintro _ _ ⟨_, rfl⟩
    rw [hafter]
    exact h
  · rintro _ _ ⟨_, rfl⟩
    rw [hafter]
    exact h

/-!
# The tasks that add no jobs
-/

theorem aside_allowed {kind : Kind} (hplacing : kind ≠ .placing)
    (hordering : kind ≠ .ordering) (hadvancing : kind ≠ .advancing) :
    kind.Allowed (errands faults) (fun g => g = .aside) := by
  intro c hc
  refine keeps_command ?_ ?_
  · rintro _ rfl
    show (calm c || fillsCache c || writesProduct c || writesCustomer c) = true
    cases kind with
    | placing => exact absurd rfl hplacing
    | ordering => exact absurd rfl hordering
    | advancing => exact absurd rfl hadvancing
    | looking | caching | stocking | account =>
        simp only [Kind.issues, Bool.or_eq_true] at hc ⊢
        tauto
  · rintro _ r g' rfl h
    exact h.right

theorem ordering_allowed :
    Kind.ordering.Allowed (errands faults) (fun g => g = .ordering) := by
  intro c hc
  refine keeps_command ?_ ?_
  · rintro _ rfl
    exact hc
  · rintro _ r g' rfl h
    exact h.right

/-!
# Placing an order
-/

theorem opened_calm : Calm (errands faults) (fun g => g = .opened) := by
  intro c hc
  cases c with
  | query inTx q =>
      cases inTx with
      | true => cases hc
      | false =>
          refine keeps_command ?_ ?_
          · rintro _ rfl
            rfl
          · rintro _ r g' rfl h
            exact h.right
  | search | bcryptHash | bcryptCompare | isEmail =>
      refine keeps_command ?_ ?_
      · rintro _ rfl
        rfl
      · rintro _ r g' rfl h
        exact h.right
  | _ => cases hc

def Laid (faults : Prop) (id : Int) (g : Errand) : Prop :=
  g = .queued id ∨ faults ∧ g = .entered id

section Laid

variable {id : Int}

theorem laid_command {c : Cmd} (hc : Errand.lays c = true) :
    Keeps (errands faults) (Laid faults id) (perform (I := service) c) := by
  have hqueued : forall r, Errand.after (.queued id) c r = .queued id := by
    intro r
    cases c <;> first | rfl | cases hc
  have hentered : forall r, Errand.after (.entered id) c r = .entered id := by
    intro r
    cases c <;> first | rfl | cases hc
  refine keeps_command ?_ ?_
  · rintro _ (rfl | ⟨hfaults, rfl⟩)
    · show Errand.may faults (.queued id) c
      cases c <;> first | exact hc | cases hc
    · show Errand.may faults (.entered id) c
      cases c <;> first | exact ⟨hfaults, hc⟩ | trivial
  · rintro _ r g' (rfl | ⟨hfaults, rfl⟩) h
    · exact Or.inl (h.right.trans (hqueued r))
    · exact Or.inr ⟨hfaults, h.right.trans (hentered r)⟩

theorem laid_invalidate (orderId : Int) :
    Keeps (errands faults) (Laid faults id) (invalidateOrderCache orderId) :=
  keeps_tryCatch (laid_command rfl) (fun _ => keeps_pure _)

theorem laid_recalculate (item : OrderItem) :
    Keeps (errands faults) (Laid faults id) (OrderItem.recalculate item) := by
  refine keeps_bind (laid_command rfl) (fun found => ?_)
  cases found with
  | none => exact keeps_pure _
  | some graph =>
      refine keeps_bind ?_ (fun _ => laid_invalidate _)
      exact keeps_bind (laid_command rfl) (fun _ =>
        keeps_bind (laid_invalidate _) (fun _ => keeps_pure _))

theorem laid_placeItem (products : List Product) (order : Order) (total : Int)
    (item : ItemRequest) :
    Keeps (errands faults) (Laid faults id)
      (placeItem products order total item) := by
  unfold placeItem
  split
  · exact keeps_throw _
  · refine keeps_bind ?_ (fun _ => ?_)
    · exact keeps_bind (laid_command rfl) (fun _ =>
        keeps_bind (laid_recalculate _) (fun _ => keeps_pure _))
    · refine keeps_bind ?_ (fun _ => keeps_pure _)
      exact keeps_bind (laid_command rfl) (fun _ => keeps_pure _)

end Laid

theorem wp_orderCreate (customerId totalPrice : Int) :
    wp (errands faults) (Order.create true customerId totalPrice .pending)
      (fun order g => Laid faults order.id g) (fun _ g => g = .opened)
      .opened := by
  refine (wp_bind _ _ _).mpr (wp_command ⟨rfl, rfl⟩ ?_ ?_)
  · rintro ⟨id, now⟩ _ ⟨_, rfl⟩
    have hjob : wp (errands faults)
        (detached (scheduleStatusUpdateJob id (some .pending)))
        (fun _ g => Laid faults id g) (fun _ g => g = .opened)
        (.entered id) := by
      refine (wp_tryCatch _ _ _).mpr (wp_command rfl ?_ ?_)
      · rintro _ _ ⟨_, rfl⟩
        exact Or.inl rfl
      · rintro _ _ ⟨hfaults, rfl⟩
        exact Or.inr ⟨hfaults, rfl⟩
    exact (wp_bind _ _ _).mpr ((wp_bind _ _ _).mpr
      (wp_invalidate trivial (fun _ => rfl) hjob))
  · rintro _ _ ⟨_, rfl⟩
    rfl

def Stuck (faults : Prop) (g : Errand) : Prop :=
  g = .opened ∨ exists id, Laid faults id g

theorem wp_createOrderBody (customerId : Int) (items : List ItemRequest) :
    wp (errands faults) (createOrderBody customerId items)
      (fun order g => Laid faults order.id g) (fun _ => Stuck faults)
      .opened := by
  refine (wp_bind _ _ _).mpr (wp_mono ?_ (fun _ _ h => Or.inl h)
    (opened_calm (.query false (.productsById _)) rfl _ rfl))
  rintro products _ rfl
  have hcheck : Keeps (errands faults) (fun g => g = .opened)
      (items.forM (checkItem products)) := by
    refine keeps_forM (fun item => ?_) _
    unfold checkItem
    split
    · exact keeps_throw _
    · split
      · exact keeps_throw _
      · exact keeps_pure _
  refine (wp_bind _ _ _).mpr (wp_mono ?_ (fun _ _ h => Or.inl h)
    (hcheck _ rfl))
  rintro _ _ rfl
  refine (wp_bind _ _ _).mpr (wp_mono ?_ (fun _ _ h => Or.inl h)
    (wp_orderCreate customerId 0))
  intro order g hlaid
  have hitems : Keeps (errands faults) (Laid faults order.id)
      (items.foldlM (placeItem products order) 0) :=
    keeps_foldlM (fun total item => laid_placeItem _ _ _ _) _ _
  refine (wp_bind _ _ _).mpr (wp_mono ?_ (fun _ _ h => Or.inr ⟨_, h⟩)
    (hitems g hlaid))
  intro total g hlaid
  refine (wp_bind _ _ _).mpr (wp_mono ?_ (fun _ _ h => Or.inr ⟨_, h⟩)
    (laid_command rfl g hlaid))
  intro now g hlaid
  refine (wp_bind _ _ _).mpr (wp_mono (fun _ _ h => h)
    (fun _ _ h => Or.inr ⟨_, h⟩) (laid_invalidate _ g hlaid))

theorem wp_createOrder (customerId : Int) (items : List ItemRequest) :
    wp (errands faults) (createOrder customerId items) (fun _ _ => True)
      (fun _ _ => True) .placing := by
  have hrollback : forall e g, Stuck faults g ∨ (exists id, g = .placed id) ->
      wp (errands faults) (do detached rollback; throw e : Act Order)
        (fun order g => g = .placed order.id) (fun _ _ => True) g := by
    rintro e g hg
    have hmay : Errand.may faults g .rollback := by
      rcases hg with (rfl | ⟨id, rfl | ⟨hfaults, rfl⟩⟩) | ⟨id, rfl⟩
      · trivial
      · trivial
      · exact hfaults
      · trivial
    exact (wp_bind _ _ _).mpr ((wp_tryCatch _ _ _).mpr
      (wp_command hmay (fun _ _ _ => trivial) (fun _ _ _ => trivial)))
  refine (wp_tryCatch _ _ _).mpr ((wp_bind _ _ _).mpr
    (wp_mono (fun _ _ _ => trivial) (fun _ _ _ => trivial)
      (?_ : wp _ _ (fun _ _ => True) (fun _ _ => True) _)))
  refine (wp_bind _ _ _).mpr (wp_command trivial ?_ (fun _ _ _ => trivial))
  rintro _ _ ⟨_, rfl⟩
  refine (wp_bind _ _ _).mpr (wp_mono ?_ (fun _ _ h => h)
    ((wp_tryCatch _ _ _).mpr ((wp_bind _ _ _).mpr (wp_mono ?_
      (fun e g h => hrollback e g (Or.inl h))
      (wp_createOrderBody customerId items)))))
  · rintro order _ rfl
    refine (wp_bind _ _ _).mpr ((wp_tryCatch _ _ _).mpr
      (wp_command rfl (fun _ _ _ => trivial) (fun _ _ _ => trivial)))
  · intro order g hlaid
    have hcommit : Errand.may faults g .commit ∧ forall r,
        g.after .commit r = .placed order.id := by
      rcases hlaid with rfl | ⟨hfaults, rfl⟩
      · exact ⟨trivial, fun _ => rfl⟩
      · exact ⟨hfaults, fun _ => rfl⟩
    refine (wp_bind _ _ _).mpr (wp_command hcommit.left ?_ ?_)
    · rintro _ _ ⟨_, rfl⟩
      exact hcommit.right _
    · rintro e _ ⟨_, rfl⟩
      exact hrollback e _ (Or.inr ⟨order.id, hcommit.right _⟩)

/-!
# Status jobs
-/

theorem written_clears (faults : Prop) (job : Job) (key : String) :
    (Errand.written job).may faults (.redisDel key) ∧
      forall r, (Errand.written job).after (.redisDel key) r =
        Errand.written job := by
  unfold Errand.written
  split <;> exact ⟨trivial, fun _ => rfl⟩

theorem wp_schedule (job : Job) :
    wp (errands faults)
      (if job.targetStatus ≠ .delivered then
        scheduleStatusUpdateJob job.orderId (some job.targetStatus)
      else pure ())
      (fun _ g => faults ∨ g = .finished job) (fun _ _ => faults)
      (Errand.written job) := by
  unfold Errand.written scheduleStatusUpdateJob
  rw [Option.bind_some]
  cases hnext : nextStatusMap job.targetStatus with
  | none =>
      dsimp only
      split <;> exact Or.inr rfl
  | some next =>
      have hopen : job.targetStatus ≠ .delivered := by
        intro h
        rw [h] at hnext
        cases hnext
      rw [if_pos hopen]
      refine wp_command ⟨rfl, hnext⟩ ?_ (fun _ _ h => h.left)
      rintro _ _ ⟨_, rfl⟩
      exact Or.inr rfl

theorem wp_statusProcessor (job : Job) :
    wp (errands faults) (statusProcessor job)
      (fun _ g => faults ∨ g = .finished job) (fun _ _ => faults)
      (.begun job) := by
  refine (wp_bind _ _ _).mpr (wp_command rfl ?_ (fun _ _ h => h.left))
  rintro found _ ⟨hfound, rfl⟩
  show wp _ _ _ _ (Errand.read job found)
  cases found with
  | none => exact Or.inr rfl
  | some graph =>
      have hid := hfound graph rfl
      dsimp only
      split
      · rename_i hskip
        exact Or.inr (if_pos (Or.inl hskip))
      · rename_i hopen
        split
        · rename_i hdelivered
          exact Or.inr (if_pos (Or.inr (Or.inl hdelivered)))
        · rename_i hdelivered
          split
          · rename_i hsame
            exact Or.inr (if_pos (Or.inr (Or.inr hsame)))
          · rename_i hdiff
            have hbound : Errand.read job (some graph) = .bound job :=
              if_neg (by tauto)
            rw [hbound]
            refine (wp_bind _ _ _).mpr ?_
            unfold Order.saveStatus
            rw [if_neg hdiff]
            refine (wp_bind _ _ _).mpr (wp_command ?_ ?_ (fun _ _ h => h.left))
            · rw [hid]
              rfl
            · rintro now _ ⟨_, rfl⟩
              have hclear := written_clears faults job
                (orderKey graph.order.id)
              exact (wp_bind _ _ _).mpr
                (wp_invalidate hclear.left hclear.right (wp_schedule job))

/-!
# All tasks
-/

/-- What is known when a task has ended: a job that meets no failure returns,
and nothing is left to do. -/
def Ended (faults : Prop) : Task -> Outcome -> Errand -> Prop
  | .statusJob job, out, g => faults ∨ out = .returned ∧ g = .finished job
  | _, _, _ => True

theorem wp_postOrder (token : Token) (items : List ItemRequest) :
    wp (errands faults) (handle (.createOrder token items)) (fun _ _ => True)
      (fun _ _ => True) .placing := by
  cases token with
  | missing => trivial
  | invalid => trivial
  | valid id =>
      refine (wp_bind _ _ _).mpr ((wp_tryCatch _ _ _).mpr
        ((wp_bind _ _ _).mpr (wp_command rfl ?_ (fun _ _ _ => trivial))))
      rintro found _ ⟨_, rfl⟩
      cases found with
      | none => trivial
      | some customer => exact wp_createOrder customer.id items

theorem wp_errands (faults : Prop) (task : Task) :
    task.code.wp (errands faults) (Ended faults task) (errandOf task) := by
  have hordering : forall task, kindOf task = .ordering ->
      task.code.wp (errands faults) (fun _ _ => True) .ordering := by
    intro task hkind
    have hallowed : (kindOf task).Allowed (errands faults)
        (fun g => g = .ordering) := by
      rw [hkind]
      exact ordering_allowed
    exact Prog.wp_mono (fun _ _ _ => trivial) _ (wp_task hallowed rfl)
  cases task with
  | statusJob job =>
      refine wp_settle.mpr (wp_mono ?_ (fun _ _ h => Or.inl h)
        (wp_statusProcessor job))
      exact fun _ _ h => h.imp_right (fun h => ⟨rfl, h⟩)
  | cancelJob orderId => exact hordering (.cancelJob orderId) rfl
  | request req =>
      show Prog.wp _ _ (fun _ _ => True) _
      unfold errandOf
      dsimp only
      split
      · rename_i hkind
        cases req with
        | createOrder token items => exact wp_settle.mpr (wp_postOrder token items)
        | _ => cases hkind
      · rename_i hkind
        exact hordering (.request req) hkind
      · rename_i hplacing hmoving
        have hrequest : kindOf (.request req) ≠ .advancing := by
          cases req <;> rintro ⟨⟩
        exact Prog.wp_mono (fun _ _ _ => trivial) _
          (wp_task (aside_allowed hplacing hmoving hrequest) rfl)

end Tasks

end Jobs
end ExpressEcommerce
