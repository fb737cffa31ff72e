import ExpressEcommerce.Checkout.Walk
import ExpressEcommerce.Orders.Symbolic

/-!
# How a request for an order ends

The order is inserted, its hook schedules the first job while the transaction is
still open, the lines follow, and the transaction is committed or rolled back.
A request that runs alone ends in one of four ways.
-/

namespace ExpressEcommerce
namespace Checkout

open Foundation
open Store
open Service
open Orders
open Stock
open Foundation.Action

section Walk

variable {ok : Cmd -> Env -> Prop} {start : World} {customerId : Int}
  {items : List ItemRequest}

/-!
# Opening the order
-/

theorem direct_schedule {w : World} {tx : Tx} {id : Int}
    {Q : Unit -> World × Tx -> Prop} {E : String -> World × Tx -> Prop}
    (hok : Works (ok (.addJob ⟨id, .processing⟩)) ->
      Q () ({ w with queue := w.queue.add ⟨id, .processing⟩ }, tx))
    (hfail : MayFail (ok (.addJob ⟨id, .processing⟩)) -> Q () (w, tx)) :
    Action.wp (direct ok)
      (detached (scheduleStatusUpdateJob id (some .pending))) Q E (w, tx) :=
  (wp_tryCatch _ _ _).mpr (direct_addJob hok (fun hmay _ => hfail hmay))

theorem fresh_opened {db : Database} {o : Order}
    (hid : o.id = db.orders.seq)
    (hcustomer : (db.customers.find? o.customerId).isSome = true) :
    Fresh (db.reserve .orders) o [] := by
  refine ⟨⟨?_, ?_⟩, hcustomer, (fun i hi => by cases hi), List.nodup_nil⟩
  · show o.id < db.orders.seq + 1
    omega
  · rw [hid]
    exact Table.find?_seq db.orders

theorem building_open {w : World} {now : Nat}
    (hcustomer : (start.db.customers.find? customerId).isSome = true)
    (hdb : w.db = start.db.reserve .orders)
    (hqueue : Scheduled ok start w.queue) :
    let order : Order :=
      ⟨start.db.orders.seq, customerId, 0, .pending, now, now, none⟩
    Building ok start customerId items []
      ⟨readRows start.db items, order, [], items⟩
      (w, some [.insertOrder order]) := by
  intro order
  refine ⟨rfl, ?_, ?_, ⟨now, rfl⟩, rfl, rfl, .nil, hqueue, rfl, ?_⟩
  · show Grows start.db w.db
    rw [hdb]
    exact grows_reserve_orders start.db
  · show Fresh w.db order []
    rw [hdb]
    exact fresh_opened rfl hcustomer
  · intro c hc
    cases hc

theorem building_create {E : String -> World × Tx -> Prop}
    {Q : Order -> World × Tx -> Prop}
    (hcustomer : (start.db.customers.find? customerId).isSome = true)
    (hok : forall d s, d.taken = [] -> d.todo = items ->
      d.products = readRows start.db items ->
      Building ok start customerId items [] d s -> Q d.order s)
    (herr : forall e s, Rejected ok start customerId items s.1 -> E e s) :
    Action.wp (direct ok) (Order.create true customerId 0 .pending) Q E
      (start, some []) := by
  have hinsert : Cmd.insert true (.order customerId 0 .pending) ∈
      earlyCommands customerId items := by
    simp [earlyCommands]
  unfold Order.create
  refine (wp_bind _ _ _).mpr (direct_insert ?_ ?_ ?_)
  · intro now _ _
    let order : Order :=
      ⟨start.db.orders.seq, customerId, 0, .pending, now, now, none⟩
    refine (wp_bind _ _ _).mpr ?_
    unfold Order.afterCreate
    refine (wp_bind _ _ _).mpr (direct_invalidateOrderCache ?_)
    intro cache _
    refine direct_schedule ?_ ?_
    · intro hworks
      refine hok ⟨readRows start.db items, order, [], items⟩ _ rfl rfl rfl
        (building_open hcustomer rfl (Or.inl ⟨hworks, rfl⟩))
    · intro hmay
      refine hok ⟨readRows start.db items, order, [], items⟩ _ rfl rfl rfl
        (building_open hcustomer rfl (Or.inr ⟨hmay, rfl⟩))
  · intro now hno e
    -- the customer exists and an order of nothing fits the column
    have hzero : Database.fitsDecimal 0 = true := by decide
    have hyes : (((reserved start (.order customerId 0 .pending)).view
        (some []) true).accepts (.insertOrder ⟨start.db.orders.seq,
          customerId, 0, .pending, now, now, none⟩)) = true :=
      Bool.and_eq_true_iff.mpr ⟨hcustomer, hzero⟩
    cases hyes.symm.trans hno
  · intro hmay e
    exact herr e _ ⟨Grows.refl _, rfl, Or.inr ⟨_, hinsert, hmay⟩⟩

/-!
# The transaction
-/

/-- An error that `createOrder` answers with 500. -/
def Failed (ok : Cmd -> Env -> Prop) (start : World) (customerId : Int)
    (items : List ItemRequest) (w : World) : Prop :=
  Rejected ok start customerId items w ∨ RolledBack ok start items w

theorem walk_body
    (hcustomer : (start.db.customers.find? customerId).isSome = true) :
    Action.wp (direct ok) (createOrderBody customerId items)
      (fun order s => exists d now, order.id = d.order.id ∧
        (forall line, line ∈ items -> covered start.db line = true) ∧
        Totalled ok start customerId items d now s)
      (fun _ s => Failed ok start customerId items s.1)
      (start, some []) := by
  unfold createOrderBody
  refine (wp_bind _ _ _).mpr (direct_query rfl ?_ ?_)
  · intro _
    refine (wp_bind _ _ _).mpr (wp_check items ?_ ?_)
    · intro hpasses
      have hall : forall line, line ∈ items ->
          covered start.db line = true :=
        fun line hline => (passes_iff_covered hline).mp (hpasses line hline)
      refine (wp_bind _ _ _).mpr (building_create hcustomer ?_
        (fun _ _ h => Or.inl h))
      intro d s htaken htodo hrows hb
      refine (wp_bind _ _ _).mpr ?_
      show Action.wp _ (items.foldlM (placeItem (readRows start.db items)
        d.order) 0) _ _ _
      rw [← hrows]
      nth_rewrite 1 [← htodo]
      refine wp_mono ?_ (fun _ _ he => he) (building_loop htaken hall hb
        (fun _ _ h => Or.inr h))
      intro total s' hloop
      rcases hloop with ⟨d', hb', horder, htodo', rfl⟩
      rcases s' with ⟨w', tx'⟩
      have htx : tx' = some d'.log := hb'.tx
      subst htx
      refine wp_mono ?_ (fun _ _ he => he) (building_total hall hb' htodo'
        (congrArg Order.id horder).symm (fun _ _ h => Or.inr h))
      intro order s2 htotal
      rcases htotal with ⟨hid, now, htotalled⟩
      exact ⟨d', now, hid, hall, htotalled⟩
    · intro e line hline hnot
      refine Or.inl ⟨Grows.refl _, rfl, Or.inl ⟨line, hline, ?_⟩⟩
      cases hcovered : covered start.db line with
      | false => rfl
      | true => exact absurd ((passes_iff_covered hline).mpr hcovered) hnot
  · intro hmay e
    exact Or.inl ⟨Grows.refl _, rfl, Or.inr ⟨_, by simp [earlyCommands], hmay⟩⟩

theorem direct_rollback_detached {w : World} {tx : Tx}
    {Q : Unit -> World × Tx -> Prop} {E : String -> World × Tx -> Prop}
    (h : Q () (w, none)) :
    Action.wp (direct ok) (detached rollback) Q E (w, tx) := by
  refine (wp_tryCatch _ _ _).mpr (wp_command trivial ?_ ?_)
  · intro _ s' hnext
    rw [next_rollback hnext]
    exact h
  · intro _ s' hnext
    rw [next_rollback hnext]
    exact h

theorem scheduled_again {q : Queue} (h : Scheduled ok start q)
    (hworks : Works (ok (.addJob (firstJob start.db)))) :
    Scheduled ok start (q.add (firstJob start.db)) := by
  rcases h with ⟨_, rfl⟩ | ⟨_, rfl⟩
  · rw [queue_add_idem]
    exact Or.inl ⟨hworks, rfl⟩
  · exact Or.inl ⟨hworks, rfl⟩

theorem committed_of_totalled {d : Draft} {now : Nat} {w : World}
    (hall : forall line, line ∈ items -> covered start.db line = true)
    (ht : Totalled ok start customerId items d now (w, some (d.fullLog now)))
    (hcommit : Works (ok .commit)) {w' : World}
    (hdb : w'.db = w.db.writeAll (d.fullLog now))
    (hqueue : Scheduled ok start w'.queue) :
    Committed ok start customerId items w' := by
  refine ⟨hall, ht.fits, ⟨w.db, d, now, ht.grows, ht.fresh, hdb, ht.opened,
    ht.lines⟩, hqueue, ?_⟩
  intro c hc
  by_cases hcommitted : c = .commit
  · rw [hcommitted]
    exact hcommit
  · exact ht.works c hc hcommitted

theorem walk_transaction
    (hcustomer : (start.db.customers.find? customerId).isSome = true) :
    Action.wp (direct ok)
      (transaction (createOrderBody customerId items) (fun order =>
        detached (scheduleStatusUpdateJob order.id (some .pending))))
      (fun _ s => Committed ok start customerId items s.1)
      (fun _ s => Failed ok start customerId items s.1) (start, none) := by
  unfold transaction
  refine (wp_bind _ _ _).mpr (direct_begin ?_ ?_)
  · intro _
    refine (wp_bind _ _ _).mpr ((wp_tryCatch _ _ _).mpr
      ((wp_bind _ _ _).mpr ?_))
    have hfailed : forall (e : String) (s : World × Tx),
        Failed ok start customerId items s.1 ->
        Action.wp (direct ok)
          (do
            detached rollback
            throw e : Act Order)
          (fun order t => Action.wp (direct ok)
            (do
              detached (scheduleStatusUpdateJob order.id (some .pending))
              pure order)
            (fun _ s => Committed ok start customerId items s.1)
            (fun _ s => Failed ok start customerId items s.1) t)
          (fun _ s => Failed ok start customerId items s.1) s := by
      intro e s hfail
      exact (wp_bind _ _ _).mpr (direct_rollback_detached hfail)
    refine wp_mono ?_ hfailed (walk_body hcustomer)
    intro order s hbody
    rcases hbody with ⟨d, now, hid, hall, ht⟩
    rcases s with ⟨w, tx⟩
    have htx : tx = some (d.fullLog now) := ht.tx
    subst htx
    have hjob : order.id = start.db.orders.seq := by
      rcases ht.opened with ⟨_, ho⟩
      rw [hid, ho]
    refine (wp_bind _ _ _).mpr (direct_commit ?_ ?_)
    · intro hcommit
      refine (wp_pure _ _).mpr ((wp_bind _ _ _).mpr (direct_schedule ?_ ?_))
      · intro hworks
        rw [hjob] at hworks ⊢
        exact committed_of_totalled hall ht hcommit rfl
          (scheduled_again ht.queue hworks)
      · intro _
        exact committed_of_totalled hall ht hcommit rfl ht.queue
    · intro hmay e
      refine hfailed e _ (Or.inr ⟨hall, ht.grows, ht.queue,
        Or.inr ⟨_, ?_, hmay⟩⟩)
      simp [lateCommands]
  · intro hmay e
    exact Or.inl ⟨Grows.refl _, rfl, Or.inr ⟨_, by simp [earlyCommands], hmay⟩⟩

/-!
# The request
-/

/-- The four ways in which a request for an order ends. -/
inductive Ends (ok : Cmd -> Env -> Prop) (start : World) (token : Token)
    (items : List ItemRequest) (status : Nat) (w : World) : Prop where
  | unknown (hstatus : status = 401) (hsame : w = start)
      (hwhy : tokenCustomer? start.db.customers token = none ∨
        exists id, token = .valid id ∧
          MayFail (ok (.query false (.customerByPk id false))))
  | rejected (c : Customer)
      (hcustomer : tokenCustomer? start.db.customers token = some c)
      (hstatus : status = 500) (h : Rejected ok start c.id items w)
  | rolledBack (c : Customer)
      (hcustomer : tokenCustomer? start.db.customers token = some c)
      (hstatus : status = 500) (h : RolledBack ok start items w)
  | committed (c : Customer)
      (hcustomer : tokenCustomer? start.db.customers token = some c)
      (hstatus : status = 201) (h : Committed ok start c.id items w)

end Walk

theorem executes_checkout {ok : Cmd -> Env -> Prop} {w w' : World}
    {token : Token} {items : List ItemRequest} {out : Outcome}
    (h : ExecutesIn ok w (.request (.createOrder token items)) out w') :
    exists r : Response, out = .response r ∧ Ends ok w token items r.status w' := by
  have hwp : (Task.request (.createOrder token items)).code.wp (direct ok)
      (fun out s => exists r : Response, out = .response r ∧
        Ends ok w token items r.status s.1) (w, none) := by
    refine wp_settle.mpr (direct_authenticate ?_ ?_)
    · intro r hstatus hwhy
      exact ⟨r, rfl, .unknown hstatus rfl hwhy⟩
    · intro c hc
      have hsome : (w.db.customers.find? c.id).isSome = true := by
        rw [find?_of_tokenCustomer? hc]
        rfl
      unfold createOrder
      refine (wp_tryCatch _ _ _).mpr ((wp_bind _ _ _).mpr ?_)
      refine wp_mono ?_ ?_ (walk_transaction hsome)
      · intro order s hcommitted
        exact ⟨_, rfl, .committed c hc rfl hcommitted⟩
      · intro e s hfailed
        rcases hfailed with hrejected | hrolled
        · exact ⟨_, rfl, .rejected c hc rfl hrejected⟩
        · exact ⟨_, rfl, .rolledBack c hc rfl hrolled⟩
  rcases executes_of_wp hwp h with ⟨_, hend⟩
  exact hend

def accepted (db : Database) (items : List ItemRequest) : Bool :=
  items.all (covered db) && fits db items

theorem accepted_iff {db : Database} {items : List ItemRequest} :
    accepted db items = true <->
      (forall line, line ∈ items -> covered db line = true) ∧
        fits db items = true := by
  unfold accepted
  rw [Bool.and_eq_true_iff, List.all_eq_true]

theorem placed_of_accepted {w w' : World} {token : Token}
    {items : List ItemRequest} {c : Customer} {out : Outcome}
    (hc : tokenCustomer? w.db.customers token = some c)
    (haccepted : accepted w.db items = true)
    (h : ExecutesIn allHealthy w (.request (.createOrder token items)) out
      w') : Committed allHealthy w c.id items w' := by
  rcases accepted_iff.mp haccepted with ⟨hcovered, hfits⟩
  rcases executes_checkout h with ⟨r, _, hends⟩
  cases hends with
  | unknown _ _ hwhy =>
      rcases hwhy with hnone | ⟨_, _, hmay⟩
      · rw [hc] at hnone
        cases hnone
      · exact absurd hmay not_mayFail_healthy
  | rejected _ _ _ h =>
      rcases h.reason with ⟨line, hline, hno⟩ | ⟨_, _, hmay⟩
      · rw [hcovered line hline] at hno
        cases hno
      · exact absurd hmay not_mayFail_healthy
  | rolledBack _ _ _ h =>
      rcases h.reason with hno | ⟨_, _, hmay⟩
      · rw [hfits] at hno
        cases hno
      · exact absurd hmay not_mayFail_healthy
  | committed owner howner _ hcommitted =>
      rw [hc] at howner
      cases howner
      exact hcommitted

end Checkout
end ExpressEcommerce
