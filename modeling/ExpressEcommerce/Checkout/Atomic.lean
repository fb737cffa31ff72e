import ExpressEcommerce.Checkout.Specification
import ExpressEcommerce.Jobs.Steps

/-!
# Orders and their first job

A request for an order is to leave either an order with exactly one job or
nothing at all.  The database keeps its part of that by the transaction.  The
queue does not: the hook schedules the job while the transaction is open, and a
rollback does not take it back.
-/

namespace ExpressEcommerce
namespace Checkout

open Foundation
open Store
open Service
open Orders
open Jobs
open Runs

def jobsOf (q : Queue) (id : Int) : List Job :=
  (q.map QueuedJob.job).filter (fun job => decide (job.orderId = id))

/-- An error leaves no trace; an order comes with its one job. -/
structure AllOrNothing (w : World) (r : Response) (w' : World) : Prop where
  failed : r.status ≠ 201 -> w'.db.orders.rows = w.db.orders.rows ∧
    w'.db.items.rows = w.db.items.rows ∧ w'.db.products = w.db.products ∧
    w'.queue = w.queue
  placed : r.status = 201 -> exists o : Order,
    w.db.orders.find? o.id = none ∧ w'.db.orders.find? o.id = some o ∧
      jobsOf w'.queue o.id = [⟨o.id, .processing⟩]

/-- The condition, for a request in which the calls `F` may fail.  Once the
checks are passed, a later failure may happen only if the job is known to the
queue already, and an order may be placed only if the queue has no other job
under its number and takes this one. -/
def JobSafe (F : Cmd -> Prop) (w : World) (token : Token)
    (items : List ItemRequest) : Prop :=
  (tokenCustomer? w.db.customers token).isSome = true ->
  (forall line, line ∈ items -> covered w.db line = true) ->
    ((fits w.db items = false ∨
        exists c, c ∈ lateCommands w.db items ∧ F c) ->
      known w.queue (firstJob w.db) = true) ∧
    (fits w.db items = true ->
      jobsOf w.queue w.db.orders.seq = [firstJob w.db] ∨
        jobsOf w.queue w.db.orders.seq = [] ∧
          ¬ F (.addJob (firstJob w.db)))

/-!
# The queue
-/

theorem mem_jobsOf {q : Queue} {job : Job} :
    job ∈ jobsOf q job.orderId <-> known q job = true := by
  unfold jobsOf known
  simp only [List.mem_filter, List.mem_map, List.any_eq_true,
    decide_eq_true_eq, and_true]

theorem jobsOf_add {q : Queue} {job : Job} :
    jobsOf (q.add job) job.orderId = [job] <->
      jobsOf q job.orderId = [job] ∨ jobsOf q job.orderId = [] := by
  by_cases hknown : known q job = true
  · rw [add_of_known hknown]
    have hmem := mem_jobsOf.mpr hknown
    constructor
    · exact Or.inl
    · intro h
      rcases h with h | h
      · exact h
      · rw [h] at hmem
        cases hmem
  · have hadd : q.add job = q ++ [⟨job, .waiting⟩] := if_neg hknown
    have hjobs : jobsOf (q.add job) job.orderId =
        jobsOf q job.orderId ++ [job] := by
      rw [hadd]
      unfold jobsOf
      simp
    rw [hjobs]
    constructor
    · intro h
      right
      have hlength := congrArg List.length h
      simp at hlength
      exact hlength
    · intro h
      rcases h with h | h
      · have hmem : job ∈ jobsOf q job.orderId := by
          rw [h]
          exact List.mem_cons_self
        exact absurd (mem_jobsOf.mp hmem) hknown
      · rw [h]
        rfl

/-!
# Late calls
-/

def isLate : Cmd -> Bool
  | .insert _ (.item _ _ _ _) => true
  | .query _ (.orderByPk _ _ _) => true
  | .update _ _ => true
  | .commit => true
  | _ => false

theorem isLate_of_mem {db : Database} {items : List ItemRequest} {c : Cmd}
    (h : c ∈ lateCommands db items) : isLate c = true := by
  unfold lateCommands at h
  rcases List.mem_append.mp h with h | h
  · rcases List.mem_flatMap.mp h with ⟨line, _, h⟩
    simp only [lineCommands, List.mem_cons, List.not_mem_nil, or_false] at h
    rcases h with rfl | rfl | rfl <;> rfl
  · simp only [List.mem_cons, List.not_mem_nil, or_false] at h
    rcases h with rfl | rfl <;> rfl

theorem not_isLate_of_early {customerId : Int} {items : List ItemRequest}
    {c : Cmd} (h : c ∈ earlyCommands customerId items) :
    isLate c = false := by
  simp only [earlyCommands, List.mem_cons, List.not_mem_nil, or_false] at h
  rcases h with rfl | rfl | rfl <;> rfl

/-!
# Both directions
-/

theorem scheduled_of_known {ok : Cmd -> Env -> Prop} {w : World} {q : Queue}
    (hknown : known w.queue (firstJob w.db) = true)
    (h : Scheduled ok w q) : q = w.queue := by
  rcases h with ⟨_, h⟩ | ⟨_, h⟩
  · rw [h, add_of_known hknown]
  · exact h

theorem order_of_committed {ok : Cmd -> Env -> Prop} {w w' : World}
    {customerId : Int} {items : List ItemRequest}
    (h : Committed ok w customerId items w') :
    exists o : Order, o.id = w.db.orders.seq ∧
      w.db.orders.find? o.id = none ∧ w'.db.orders.find? o.id = some o ∧
      forall id, w.db.orders.find? id = none ->
        (w'.db.orders.find? id).isSome = true -> id = o.id := by
  rcases h.placed with ⟨mid, d, now, hgrows, hfresh, hdb, ⟨opened, ho⟩, _⟩
  have hplaced : Placed mid (mid.writeAll (d.fullLog now)) d now :=
    placed_of_fresh hfresh
  rw [← hdb] at hplaced
  have hid : d.order.id = w.db.orders.seq := by
    rw [ho]
  refine ⟨d.placed now, hid, ?_, ?_, ?_⟩
  · rw [← find?_of_grows hgrows]
    exact hplaced.free
  · rw [hplaced.order]
    exact if_pos rfl
  · intro id hnone hsome
    rw [hplaced.order] at hsome
    split at hsome
    · assumption
    · rw [find?_of_grows hgrows, hnone] at hsome
      cases hsome

theorem allOrNothing_of_jobSafe {F : Cmd -> Prop} {w w' : World}
    {token : Token} {items : List ItemRequest} {r : Response}
    (hsafe : JobSafe F w token items)
    (h : Ends (failsOnly F) w token items r.status w') :
    AllOrNothing w r w' := by
  cases h with
  | unknown hstatus hsame hwhy =>
      subst hsame
      refine ⟨fun _ => ⟨rfl, rfl, rfl, rfl⟩, fun hplaced => ?_⟩
      rw [hstatus] at hplaced
      cases hplaced
  | rejected c hc hstatus hrejected =>
      refine ⟨fun _ => ⟨hrejected.grows.orders, hrejected.grows.items,
        hrejected.grows.products, hrejected.queue⟩, fun hplaced => ?_⟩
      rw [hstatus] at hplaced
      cases hplaced
  | rolledBack c hc hstatus hrolled =>
      have hsome : (tokenCustomer? w.db.customers token).isSome = true := by
        rw [hc]
        rfl
      have hknown := (hsafe hsome hrolled.covered).left (by
        rcases hrolled.reason with hno | ⟨late, hlate, hmay⟩
        · exact Or.inl hno
        · exact Or.inr ⟨late, hlate, mayFail_failsOnly hmay⟩)
      refine ⟨fun _ => ⟨hrolled.grows.orders, hrolled.grows.items,
        hrolled.grows.products, scheduled_of_known hknown hrolled.queue⟩,
        fun hplaced => ?_⟩
      rw [hstatus] at hplaced
      cases hplaced
  | committed c hc hstatus hcommitted =>
      have hsome : (tokenCustomer? w.db.customers token).isSome = true := by
        rw [hc]
        rfl
      have hjobs := (hsafe hsome hcommitted.covered).right hcommitted.fits
      refine ⟨fun hne => absurd hstatus hne, fun _ => ?_⟩
      rcases order_of_committed hcommitted with ⟨o, hid, hnone, hnew, _⟩
      refine ⟨o, hnone, hnew, ?_⟩
      rw [hid]
      rcases hcommitted.queue with ⟨_, hqueue⟩ | ⟨hmay, hqueue⟩
      · rw [hqueue]
        refine jobsOf_add.mpr ?_
        rcases hjobs with hone | ⟨hnone, _⟩
        · exact Or.inl hone
        · exact Or.inr hnone
      · rw [hqueue]
        rcases hjobs with hone | ⟨_, hworks⟩
        · exact hone
        · exact absurd (mayFail_failsOnly hmay) hworks

theorem passed {G : Cmd -> Prop} {w w' : World} {token : Token}
    {items : List ItemRequest} {status : Nat}
    (hsome : (tokenCustomer? w.db.customers token).isSome = true)
    (hcovered : forall line, line ∈ items -> covered w.db line = true)
    (hearly : forall c, G c ->
      isLate c = true ∨ c = .addJob (firstJob w.db))
    (h : Ends (failsAt G) w token items status w') :
    (status = 500 ∧ RolledBack (failsAt G) w items w') ∨
      (status = 201 ∧ exists c : Customer,
        Committed (failsAt G) w c.id items w') := by
  cases h with
  | unknown hstatus hsame hwhy =>
      rcases hwhy with hnone | ⟨id, _, hmay⟩
      · rw [hnone] at hsome
        cases hsome
      · rcases hearly _ (mayFail_failsAt hmay) with hlate | hjob
        · cases hlate
        · cases hjob
  | rejected c hc hstatus hrejected =>
      rcases hrejected.reason with ⟨line, hline, hno⟩ | ⟨e, he, hmay⟩
      · rw [hcovered line hline] at hno
        cases hno
      · rcases hearly _ (mayFail_failsAt hmay) with hlate | hjob
        · rw [not_isLate_of_early he] at hlate
          cases hlate
        · subst hjob
          simp [earlyCommands] at he
  | rolledBack c hc hstatus hrolled => exact Or.inl ⟨hstatus, hrolled⟩
  | committed c hc hstatus hcommitted =>
      exact Or.inr ⟨hstatus, c, hcommitted⟩

section Converse

variable {F : Cmd -> Prop} {w : World} {token : Token}
  {items : List ItemRequest}
  (hall : forall r w', ExecutesIn (failsOnly F) w
    (.request (.createOrder token items)) (.response r) w' ->
      AllOrNothing w r w')
  (hsome : (tokenCustomer? w.db.customers token).isSome = true)
  (hcovered : forall line, line ∈ items -> covered w.db line = true)

include hall hsome hcovered

theorem known_of_late
    (hlate : fits w.db items = false ∨
      exists c, c ∈ lateCommands w.db items ∧ F c) :
    known w.queue (firstJob w.db) = true := by
  let G : Cmd -> Prop := fun c => c ∈ lateCommands w.db items ∧ F c
  rcases executesIn_failsAt (G := G) (F := F) (fun _ h => h.right)
    (.request (.createOrder token items)) w with ⟨out, w', hat, honly⟩
  rcases executes_checkout hat with ⟨r, rfl, hends⟩
  rcases passed hsome hcovered (fun c h => Or.inl (isLate_of_mem h.left))
    hends with ⟨hstatus, hrolled⟩ | ⟨_, _, hcommitted⟩
  · have hqueue := ((hall r w' honly).failed (by
      rw [hstatus]
      decide)).right.right.right
    rcases hrolled.queue with ⟨_, hadd⟩ | ⟨hmay, _⟩
    · rw [hadd] at hqueue
      exact known_of_add hqueue
    · have hjob := isLate_of_mem (mayFail_failsAt hmay).left
      cases hjob
  · exfalso
    rcases hlate with hno | ⟨c, hc, hF⟩
    · rw [hcommitted.fits] at hno
      cases hno
    · exact works_failsAt (hcommitted.works c hc) ⟨hc, hF⟩

theorem jobsOf_of_fits {G : Cmd -> Prop} (hGF : forall c, G c -> F c)
    (hG : forall c, G c -> c = .addJob (firstJob w.db))
    (hfits : fits w.db items = true) :
    exists q, Scheduled (failsAt G) w q ∧
      jobsOf q w.db.orders.seq = [firstJob w.db] := by
  rcases executesIn_failsAt hGF (.request (.createOrder token items)) w with
    ⟨out, w', hat, honly⟩
  rcases executes_checkout hat with ⟨r, rfl, hends⟩
  rcases passed hsome hcovered (fun c h => Or.inr (hG c h)) hends with
    ⟨_, hrolled⟩ | ⟨hstatus, _, hcommitted⟩
  · exfalso
    rcases hrolled.reason with hno | ⟨c, hc, hmay⟩
    · rw [hfits] at hno
      cases hno
    · have hlate := isLate_of_mem hc
      rw [hG c (mayFail_failsAt hmay)] at hlate
      cases hlate
  · rcases (hall r w' honly).placed hstatus with ⟨o, hnone, hnew, hjobs⟩
    rcases order_of_committed hcommitted with ⟨_, hid, _, _, hunique⟩
    have hsame := hunique o.id hnone (by
      rw [hnew]
      rfl)
    rw [hsame, hid] at hjobs
    exact ⟨w'.queue, hcommitted.queue, hjobs⟩

theorem jobSafe_of_allOrNothing : JobSafe F w token items := by
  intro _ _
  constructor
  · exact known_of_late hall hsome hcovered
  · intro hfits
    by_cases hF : F (.addJob (firstJob w.db))
    · -- neither attempt to add the job succeeds
      rcases jobsOf_of_fits hall hsome hcovered
        (G := fun c => c = .addJob (firstJob w.db))
        (fun c hc => by rw [hc]; exact hF) (fun _ hc => hc) hfits with
        ⟨q, hq, hjobs⟩
      rcases hq with ⟨hworks, _⟩ | ⟨_, rfl⟩
      · exact absurd rfl (works_failsAt hworks)
      · exact Or.inl hjobs
    · rcases jobsOf_of_fits hall hsome hcovered (G := fun _ => False)
        (fun _ h => h.elim) (fun _ h => h.elim) hfits with ⟨q, hq, hjobs⟩
      rcases hq with ⟨_, rfl⟩ | ⟨hmay, _⟩
      · rcases jobsOf_add.mp hjobs with hone | hnone
        · exact Or.inl hone
        · exact Or.inr ⟨hnone, hF⟩
      · exact (mayFail_failsAt hmay).elim

end Converse

/-- `createOrder` is all or nothing in all of its executions, whatever subset of
its calls may fail, exactly under the condition on its job. -/
theorem createOrder_all_or_nothing_iff (F : Cmd -> Prop) (w : World)
    (token : Token) (items : List ItemRequest) :
    (forall r w', ExecutesIn (failsOnly F) w
      (.request (.createOrder token items)) (.response r) w' ->
        AllOrNothing w r w') <->
      JobSafe F w token items := by
  constructor
  · intro hall hsome hcovered
    exact jobSafe_of_allOrNothing hall hsome hcovered hsome hcovered
  · intro hsafe r w' hexec
    rcases executes_checkout hexec with ⟨r', hr, hends⟩
    cases hr
    exact allOrNothing_of_jobSafe hsafe hends

def jewelDatabase : Database :=
  { shopDatabase with
    products :=
      { rows := [⟨1, "jewel", none, 9000000000, 10, 0, 0, none⟩]
        seq := 2
        nodup := by decide
        below := by decide }
    itemProduct := by decide }

def jewelShop : World where
  db := jewelDatabase
  queue := []
  cache := []
  index := []

/-- The total of two jewels is refused; the answer is an error, the rows are as
before, and the queue holds a job for an order that does not exist. -/
theorem refused_total_leaves_job :
    let task : Task := .request (.createOrder (.valid 1) [⟨1, 2⟩])
    ExecutesIn (failsOnly (fun _ => False)) jewelShop task
        (task.perform jewelShop).1 (task.perform jewelShop).2 ∧
      (exists r, (task.perform jewelShop).1 = .response r ∧
        r.status = 500) ∧
      (task.perform jewelShop).2.db.orders.rows = [] ∧
      (task.perform jewelShop).2.queue = [⟨⟨1, .processing⟩, .waiting⟩] := by
  refine ⟨executesIn_perform ?_ _ _,
    ⟨⟨500, .error "constraint violated"⟩, ?_, rfl⟩, ?_, ?_⟩
  · intro c hfault
    cases hfault
  · decide +kernel
  · decide +kernel
  · decide +kernel

/-- Two pens are placed with their job when no call fails. -/
theorem pens_come_with_their_job :
    let task : Task := .request (.createOrder (.valid 1) [⟨1, 2⟩])
    JobSafe (fun _ => False) shop (.valid 1) [⟨1, 2⟩] ∧
      forall r, (task.perform shop).1 = .response r ->
        AllOrNothing shop r (task.perform shop).2 := by
  intro task
  have hfits : fits shop.db [⟨1, 2⟩] = true := by decide
  have hsafe : JobSafe (fun _ => False) shop (.valid 1) [⟨1, 2⟩] := by
    intro _ _
    constructor
    · intro hlate
      rcases hlate with hno | ⟨_, _, hfalse⟩
      · rw [hfits] at hno
        cases hno
      · cases hfalse
    · intro _
      exact Or.inr ⟨rfl, fun hfalse => hfalse⟩
  refine ⟨hsafe, fun r hr => ?_⟩
  have hdefault : forall c, failsOnly (fun _ => False) c {} := by
    intro c hfault
    cases hfault
  have hexec := executesIn_perform hdefault task shop
  rw [hr] at hexec
  exact (createOrder_all_or_nothing_iff (fun _ => False) shop (.valid 1)
    [⟨1, 2⟩]).mpr hsafe r _ hexec

end Checkout
end ExpressEcommerce
