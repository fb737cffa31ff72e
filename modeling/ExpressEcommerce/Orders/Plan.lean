import ExpressEcommerce.Service.Execution

/-!
# What a task does to an order

Every task on an existing order reads the order once, decides, and then issues
a fixed list of `UPDATE` statements.  The plan of a task is that list as a
function of the store the decision was made on.  A protocol states that the
code of the task does nothing else: after the read it performs the planned
changes in order and stops at the first failure.
-/

namespace ExpressEcommerce
namespace Orders

open Foundation
open Store
open Service

inductive OrderTask where
  | update (token : Token) (id : String) (status : Option String)
  | patch (token : Token) (id : String) (status : Option String)
  | softDelete (token : Token) (id : String)
  | restore (token : Token) (id : String)
  | statusJob (job : Job)
  | cancelJob (orderId : Int)
  deriving DecidableEq, Repr

namespace OrderTask

def task : OrderTask -> Task
  | update token id status => .request (.updateOrder token id status)
  | patch token id status => .request (.patchOrderStatus token id status)
  | softDelete token id => .request (.softDeleteOrder token id)
  | restore token id => .request (.restoreOrder token id)
  | statusJob job => .statusJob job
  | cancelJob orderId => .cancelJob orderId

def inTx : OrderTask -> Bool
  | softDelete _ _ => true
  | restore _ _ => true
  | _ => false

end OrderTask

/-!
# Plans
-/

/-- The customer that a token stands for. -/
def tokenCustomer? (customers : Table Customer) : Token -> Option Customer
  | .valid id => customers.find? id
  | _ => none

theorem find?_of_tokenCustomer? {customers : Table Customer} {token : Token}
    {c : Customer} (h : tokenCustomer? customers token = some c) :
    customers.find? c.id = some c := by
  cases token with
  | missing => cases h
  | invalid => cases h
  | valid id =>
      have hfind : customers.find? id = some c := h
      have hid : c.id = id := (Table.find?_eq_some_iff.mp hfind).right
      rw [hid]
      exact hfind

/-- `save` leaves a status out that did not change. -/
def statusChange (o : Order) (status : Status) : List Change :=
  if o.status = status then [] else [.orderStatus o.id status]

def restockChanges (items : List OrderItem) : List Change :=
  items.map (fun i => .productStock i.productId i.quantity)

def takeChanges (items : List OrderItem) : List Change :=
  items.map (fun i => .productStock i.productId (-i.quantity))

def updatePlan (customerId : Int) (status : Option String) (o : Order) :
    List Change :=
  if o.customerId ≠ customerId ∨ o.status = Status.delivered then []
  else
    match (status.filter (fun s => !s.isEmpty)).bind Status.ofText? with
    | none => []
    | some status => statusChange o status

def patchPlan (status : Option String) (o : Order) : List Change :=
  if o.status = Status.delivered then []
  else
    match status.bind Status.ofText? with
    | none => []
    | some status => statusChange o status

def softDeletePlan (items : List OrderItem) (o : Order) : List Change :=
  if o.status = Status.delivered then []
  else
    restockChanges items ++ statusChange o Status.cancelled ++
      [.orderDeleted o.id true]

def restorePlan (items : List OrderItem) (o : Order) : List Change :=
  if o.deletedAt.isNone then []
  else
    [.orderDeleted o.id false] ++ statusChange o Status.pending ++
      takeChanges items

def statusJobPlan (target : Status) (o : Order) : List Change :=
  if o.status = Status.cancelled ∨ o.status = Status.delivered then []
  else statusChange o target

def cancelPlan (items : List OrderItem) (o : Order) : List Change :=
  if o.status = Status.delivered then []
  else
    statusChange o Status.cancelled ++ [.orderDeleted o.id true] ++
      restockChanges items

/-- The plan of a task whose order has been found. -/
def planOn (found : Option Order) (plan : Order -> List Change) :
    List Change :=
  match found with
  | none => []
  | some o => plan o

def paramOrder? (db : Database) (id : String) (paranoid : Bool) :
    Option Order :=
  (pgInteger? id).bind (fun id => db.order? id paranoid)

theorem live_of_paramOrder? {db : Database} {id : String} {o : Order}
    (h : paramOrder? db id true = some o) : o.deletedAt = none := by
  rcases Option.bind_eq_some_iff.mp h with ⟨_, _, hfound⟩
  exact (Database.order?_true_eq_some_iff.mp hfound).right

def authPlan (db : Database) (token : Token)
    (plan : Customer -> List Change) : List Change :=
  match tokenCustomer? db.customers token with
  | none => []
  | some c => plan c

namespace OrderTask

def plan (db : Database) : OrderTask -> List Change
  | update token id status =>
      authPlan db token (fun c =>
        planOn (paramOrder? db id true) (updatePlan c.id status))
  | patch token id status =>
      authPlan db token (fun _ =>
        planOn (paramOrder? db id true) (patchPlan status))
  | softDelete token id =>
      authPlan db token (fun _ =>
        planOn (paramOrder? db id true)
          (fun o => softDeletePlan (db.itemsOf o.id true) o))
  | restore token id =>
      authPlan db token (fun _ =>
        planOn (paramOrder? db id false)
          (fun o => restorePlan (db.itemsOf o.id true) o))
  | statusJob job =>
      planOn (db.order? job.orderId true) (statusJobPlan job.targetStatus)
  | cancelJob orderId =>
      planOn (db.order? orderId true)
        (fun o => cancelPlan (db.itemsOf o.id false) o)

/-- The job that a task adds to the queue once it has performed its changes:
the status processor schedules the step after the one it has just made. -/
def job : OrderTask -> List Change -> Option Job
  | statusJob _, [.orderStatus id status] =>
      (nextStatusMap status).map (fun next => ⟨id, next⟩)
  | _, _ => none

theorem job_nil (t : OrderTask) : t.job [] = none := by
  cases t <;> rfl

theorem job_of_inTx (t : OrderTask) (h : t.inTx = true)
    (performed : List Change) : t.job performed = none := by
  cases t <;> first | rfl | cases h

end OrderTask

/-!
# The protocol
-/

/-- How far a task has come.  `stopped` is the state after a failure; its flag
says whether the transaction is still open. -/
inductive Phase where
  | idle
  | opened
  | acting (performed todo : List Change)
  | scheduled (performed : List Change)
  | stopped (isOpen : Bool) (performed : List Change)
  | finished (performed : List Change)

/-- What a task has in mind: its plan, the job it adds at the end, whether it
runs in a transaction, and the customers it may see, which no task on an order
changes. -/
structure Intent where
  customers : Table Customer
  plan : Database -> List Change
  job : List Change -> Option Job
  inTx : Bool

/-- No store with these customers makes the task act. -/
def Intent.Idle (intent : Intent) : Prop :=
  forall db : Database, db.customers = intent.customers -> intent.plan db = []

def Phase.may (intent : Intent) : Phase -> Cmd -> Prop
  | idle, .begin => intent.inTx = true
  | idle, .query inTx (.customerByPk _ _) => inTx = false
  | idle, .query inTx (.orderByPk _ _ _) =>
      inTx = false ∧ intent.inTx = false
  | opened, .query inTx (.orderByPk _ _ _) =>
      inTx = true ∧ intent.inTx = true
  | opened, .rollback => intent.inTx = true ∧ intent.Idle
  | acting _ (u :: _), .update inTx change =>
      inTx = intent.inTx ∧ change = u
  | acting (_ :: _) [], .commit => intent.inTx = true
  | acting [] [], .rollback => intent.inTx = true
  | acting performed [], .addJob job =>
      intent.inTx = false ∧ intent.job performed = some job
  | stopped _ _, .rollback => intent.inTx = true
  | _, .redisDel _ => True
  | _, _ => False

def Phase.next (intent : Intent) (phase : Phase) :
    (c : Cmd) -> service.Reply c -> Phase -> Prop
  | .begin, .ok _, phase' => phase' = opened
  | .begin, .error _, phase' => phase' = stopped false []
  | .query _ (.customerByPk id paranoid), .ok found, phase' =>
      phase' = phase ∧
        exists db : Database, db.customers = intent.customers ∧
          found = db.customer? id paranoid
  | .query _ (.orderByPk id paranoid incl), .ok found, phase' =>
      exists db : Database, db.customers = intent.customers ∧
        found = (db.order? id paranoid).map (db.graph incl) ∧
        phase' = acting [] (intent.plan db)
  | .query inTx _, .error _, phase' => phase' = stopped inTx []
  | .update inTx _, r, phase' =>
      match phase, r with
      | acting performed (u :: todo), .ok _ =>
          phase' = acting (performed ++ [u]) todo
      | acting performed _, .error _ => phase' = stopped inTx performed
      | _, _ => False
  | .commit, r, phase' =>
      match phase, r with
      | acting performed _, .ok _ => phase' = finished performed
      | _, _ => phase' = stopped false []
  | .rollback, r, phase' =>
      match phase, r with
      | acting _ _, .ok _ => phase' = finished []
      | _, _ => phase' = stopped false []
  | .addJob _, r, phase' =>
      match phase, r with
      | acting performed _, .ok _ => phase' = scheduled performed
      | acting performed _, .error _ => phase' = stopped false performed
      | _, _ => False
  | .redisDel _, _, phase' => phase' = phase
  | _, _, _ => False

def follow (intent : Intent) : Protocol service Phase where
  may := Phase.may intent
  next := Phase.next intent

/-- How a task may end.  Only a processor that throws leaves a part of its plan
behind. -/
def Phase.Ended (intent : Intent) (out : Outcome) : Phase -> Prop
  | idle => intent.Idle
  | opened => False
  | acting performed todo =>
      intent.inTx = false ∧ todo = [] ∧ intent.job performed = none
  | scheduled _ => True
  | stopped isOpen performed =>
      isOpen = false ∧ (performed = [] ∨ exists e, out = .threw e)
  | finished _ => True

def OrderTask.intent (t : OrderTask) (customers : Table Customer) : Intent where
  customers := customers
  plan := fun db => t.plan db
  job := t.job
  inTx := t.inTx

/-!
# Rules for the single commands
-/

section Rules

variable {intent : Intent} {E : String -> Phase -> Prop}

theorem wp_begin {Q : Unit -> Phase -> Prop} (htx : intent.inTx = true)
    (hok : Q () .opened) (herr : forall e, E e (.stopped false [])) :
    Action.wp (follow intent) begin Q E .idle := by
  refine Action.wp_command htx ?_ ?_
  · rintro _ _ rfl
    exact hok
  · rintro e _ rfl
    exact herr e

theorem wp_customer {Q : Option Customer -> Phase -> Prop} {id : Int}
    {paranoid : Bool}
    (hok : forall db : Database, db.customers = intent.customers ->
      Q (db.customer? id paranoid) .idle)
    (herr : forall e, E e (.stopped false [])) :
    Action.wp (follow intent) (query false (.customerByPk id paranoid)) Q E
      .idle := by
  refine Action.wp_command rfl ?_ ?_
  · rintro _ _ ⟨rfl, db, hdb, rfl⟩
    exact hok db hdb
  · rintro e _ rfl
    exact herr e

theorem wp_order {Q : Option OrderGraph -> Phase -> Prop} {id : Int}
    {paranoid inTx : Bool} {incl : Include} {phase : Phase}
    (hmay : phase.may intent (.query inTx (.orderByPk id paranoid incl)))
    (hok : forall db : Database, db.customers = intent.customers ->
      Q ((db.order? id paranoid).map (db.graph incl))
        (.acting [] (intent.plan db)))
    (herr : forall e, E e (.stopped inTx [])) :
    Action.wp (follow intent) (query inTx (.orderByPk id paranoid incl)) Q E
      phase := by
  refine Action.wp_command hmay ?_ ?_
  · rintro _ _ ⟨db, hdb, rfl, rfl⟩
    exact hok db hdb
  · rintro e _ rfl
    exact herr e

theorem wp_update {Q : Nat -> Phase -> Prop} {u : Change} {inTx : Bool}
    {performed todo : List Change} (htx : inTx = intent.inTx)
    (hok : forall now, Q now (.acting (performed ++ [u]) todo))
    (herr : forall e, E e (.stopped inTx performed)) :
    Action.wp (follow intent) (update inTx u) Q E
      (.acting performed (u :: todo)) := by
  refine Action.wp_command ⟨htx, rfl⟩ ?_ ?_
  · rintro now _ rfl
    exact hok now
  · rintro e _ rfl
    exact herr e

theorem wp_commit {Q : Unit -> Phase -> Prop} {performed : List Change}
    (htx : intent.inTx = true) (hsome : performed ≠ [])
    (hok : Q () (.finished performed))
    (herr : forall e, E e (.stopped false [])) :
    Action.wp (follow intent) commit Q E (.acting performed []) := by
  refine Action.wp_command ?_ ?_ ?_
  · cases performed with
    | nil => exact absurd rfl hsome
    | cons u rest => exact htx
  · rintro _ _ rfl
    exact hok
  · rintro e _ rfl
    exact herr e

theorem wp_rollback_declined {Q : Unit -> Phase -> Prop}
    (htx : intent.inTx = true) (hok : Q () (.finished []))
    (herr : forall e, E e (.stopped false [])) :
    Action.wp (follow intent) rollback Q E (.acting [] []) := by
  refine Action.wp_command htx ?_ ?_
  · rintro _ _ rfl
    exact hok
  · rintro e _ rfl
    exact herr e

theorem wp_rollback_stopped {Q : Unit -> Phase -> Prop} {isOpen : Bool}
    {performed : List Change} (htx : intent.inTx = true)
    (hok : Q () (.stopped false []))
    (herr : forall e, E e (.stopped false [])) :
    Action.wp (follow intent) rollback Q E (.stopped isOpen performed) := by
  refine Action.wp_command htx ?_ ?_
  · rintro _ _ rfl
    exact hok
  · rintro e _ rfl
    exact herr e

theorem wp_rollback_opened {Q : Unit -> Phase -> Prop}
    (htx : intent.inTx = true) (hidle : intent.Idle)
    (hok : Q () (.stopped false []))
    (herr : forall e, E e (.stopped false [])) :
    Action.wp (follow intent) rollback Q E .opened := by
  refine Action.wp_command ⟨htx, hidle⟩ ?_ ?_
  · rintro _ _ rfl
    exact hok
  · rintro e _ rfl
    exact herr e

theorem Phase.may_redisDel (phase : Phase) (key : String) :
    phase.may intent (.redisDel key) := by
  rcases phase with _ | _ | ⟨_ | _, _ | _⟩ | _ | _ | _ <;> trivial

theorem wp_invalidateOrderCache {Q : Unit -> Phase -> Prop} {phase : Phase}
    {id : Int} (hok : Q () phase) :
    Action.wp (follow intent) (invalidateOrderCache id) Q E phase := by
  refine (Action.wp_tryCatch _ _ _).mpr ?_
  refine Action.wp_command (phase.may_redisDel _) ?_ ?_
  · rintro _ _ rfl
    exact hok
  · rintro e _ rfl
    exact hok

theorem wp_schedule {Q : Unit -> Phase -> Prop} {id : Int}
    {current : Option Status} {performed : List Change}
    (htx : intent.inTx = false)
    (hjob : intent.job performed =
      (current.bind nextStatusMap).map (fun next => ⟨id, next⟩))
    (hnone : intent.job performed = none -> Q () (.acting performed []))
    (hok : Q () (.scheduled performed))
    (herr : forall e, E e (.stopped false performed)) :
    Action.wp (follow intent) (scheduleStatusUpdateJob id current) Q E
      (.acting performed []) := by
  unfold scheduleStatusUpdateJob
  cases hnext : current.bind nextStatusMap with
  | none =>
      rw [hnext] at hjob
      exact hnone hjob
  | some next =>
      rw [hnext] at hjob
      refine Action.wp_command ?_ ?_ ?_
      · cases performed <;> exact ⟨htx, hjob⟩
      · rintro _ _ rfl
        exact hok
      · rintro e _ rfl
        exact herr e

end Rules

end Orders
end ExpressEcommerce
