import ExpressEcommerce.Orders.Acceptance
import ExpressEcommerce.Store.Frames

/-!
# Tasks that act at once

Apart from `cancelProcessor`, a task on an order changes the store in one step:
it issues a single statement, or it works in a transaction.  What it does is
then determined by two stores, the one in which it has read the order and the
one in which it acts.
-/

namespace ExpressEcommerce
namespace Orders

open Foundation
open Store
open Service

/-- The tasks whose changes become visible in one step. -/
def isAtomic : OrderTask -> Bool
  | .cancelJob _ => false
  | _ => true

/-- The order that a task names. -/
def OrderTask.orderId? : OrderTask -> Option Int
  | update _ id _ => pgInteger? id
  | patch _ id _ => pgInteger? id
  | softDelete _ id => pgInteger? id
  | restore _ id => pgInteger? id
  | statusJob job => some job.orderId
  | cancelJob orderId => some orderId

/-- What a task does to the store `db`, after it has read `base`. -/
inductive Acted (t : OrderTask) (base db : Database) : Database -> Prop where
  | performed {db' : Database} (h : Performs db (t.plan base) db') :
      Acted t base db db'
  | refused (h : acceptsAll db (t.plan base) = false) : Acted t base db db

theorem acted_of_idle {t : OrderTask} {base : Database}
    (hplan : t.plan base = []) (db : Database) : Acted t base db db := by
  refine .performed ?_
  rw [hplan]
  exact .nil db

def performAll (db : Database) (us : List Change) : Database :=
  us.foldl (fun db u => db.update u 0) db

theorem performs_performAll {db : Database} {us : List Change}
    (h : acceptsAll db us = true) : Performs db us (performAll db us) := by
  induction us generalizing db with
  | nil => exact .nil db
  | cons u rest ih =>
      unfold acceptsAll at h
      rcases Bool.and_eq_true_iff.mp h with ⟨hu, hrest⟩
      exact .cons 0 hu (ih hrest)

def act (t : OrderTask) (base db : Database) : Database :=
  if acceptsAll db (t.plan base) then performAll db (t.plan base) else db

theorem acted_act (t : OrderTask) (base db : Database) :
    Acted t base db (act t base db) := by
  unfold act
  split
  · rename_i haccepts
    exact .performed (performs_performAll haccepts)
  · rename_i hrefused
    exact .refused (Bool.eq_false_iff.mpr hrefused)

theorem act_of_refused {t : OrderTask} {base db : Database}
    (h : acceptsAll db (t.plan base) = false) : act t base db = db := by
  unfold act
  rw [h]
  rfl

theorem act_of_idle {t : OrderTask} {base : Database}
    (h : t.plan base = []) (db : Database) : act t base db = db := by
  unfold act
  rw [h]
  rfl

theorem acted_of_executes {t : OrderTask} {w w' : World} {out : Outcome}
    (hatomic : isAtomic t = true) (h : Executes Healthy w t.task out w') :
    Acted t w.db w.db w'.db := by
  have hdone : Completes t out := by
    cases t with
    | cancelJob => cases hatomic
    | update | patch | softDelete | restore | statusJob => exact trivial
  rcases executes_effect h with ⟨performed, todo, heffect⟩
  have hperforms := heffect.performs
  rcases heffect.blocked with rfl | hfail | hrefused
  · have hplan := heffect.plan
    rw [List.append_nil] at hplan
    rw [← hplan] at hperforms
    exact .performed hperforms
  · exact absurd hfail not_mayFail_healthy
  · have haccepts := not_acceptsAll_of_refused (isPlanned_plan t w.db) hrefused
    rcases whole_of_completes hdone h heffect with rfl | rfl
    · have hplan := heffect.plan
      rw [List.append_nil] at hplan
      rw [← hplan] at hperforms
      exact .performed hperforms
    · rw [performs_nil hperforms]
      exact .refused haccepts

/-!
# Plans of one statement
-/

theorem statusChange_small (o : Order) (status : Status) :
    (statusChange o status).length ≤ 1 := by
  unfold statusChange
  split
  · simp
  · simp

theorem planOn_small {found : Option Order} {plan : Order -> List Change}
    (h : forall o, (plan o).length ≤ 1) : (planOn found plan).length ≤ 1 := by
  cases found with
  | none => simp [planOn]
  | some o => exact h o

theorem authPlan_small {db : Database} {token : Token}
    {plan : Customer -> List Change} (h : forall c, (plan c).length ≤ 1) :
    (authPlan db token plan).length ≤ 1 := by
  unfold authPlan
  cases tokenCustomer? db.customers token with
  | none => simp
  | some c => exact h c

theorem plan_small {t : OrderTask} (hatomic : isAtomic t = true)
    (htx : t.inTx = false) (db : Database) : (t.plan db).length ≤ 1 := by
  cases t with
  | update token id status =>
      refine authPlan_small (fun c => planOn_small (fun o => ?_))
      unfold updatePlan
      split
      · simp
      · split
        · simp
        · exact statusChange_small o _
  | patch token id status =>
      refine authPlan_small (fun c => planOn_small (fun o => ?_))
      unfold patchPlan
      split
      · simp
      · split
        · simp
        · exact statusChange_small o _
  | statusJob job => exact length_statusJob_plan job db
  | softDelete token id => cases htx
  | restore token id => cases htx
  | cancelJob orderId => cases hatomic

/-!
# Statements and rows
-/

theorem acceptsAll_of_sameRow {db db' : Database} {us : List Change}
    (hplanned : forall u, u ∈ us -> isPlanned u = true)
    (h : forall row, row ∈ us.map Change.row -> SameRow db db' row) :
    acceptsAll db' us = acceptsAll db us := by
  -- the stocks of the products that the statements name
  have hstocks : forall p, (TableName.products, p) ∈ us.map Change.row ->
      (db'.products.find? p).map Product.stock =
        (db.products.find? p).map Product.stock :=
    fun p hp => congrArg (Option.map Product.stock) (h _ hp)
  clear h
  induction us generalizing db db' with
  | nil => rfl
  | cons u rest ih =>
      have hu := hplanned u List.mem_cons_self
      have hrest : forall p, (TableName.products, p) ∈ rest.map Change.row ->
          ((db'.update u 0).products.find? p).map Product.stock =
            ((db.update u 0).products.find? p).map Product.stock :=
        fun p hp => sameStock_update hu
          (hstocks p (List.mem_cons_of_mem _ hp)) 0 0
      have hfirst : db'.acceptsChange u = db.acceptsChange u := by
        refine acceptsChange_of_stock hu (fun p hp => hstocks p ?_)
        rw [List.map_cons, hp]
        exact List.mem_cons_self
      unfold acceptsAll
      rw [hfirst, ih (fun v hv => hplanned v (List.mem_cons_of_mem _ hv)) hrest]

/-!
# Which statements can be refused
-/

theorem acceptsAll_cons (db : Database) (u : Change) (us : List Change) :
    acceptsAll db (u :: us) =
      (db.acceptsChange u && acceptsAll (db.update u 0) us) := rfl

theorem acceptsAll_append_eq (db : Database) (us more : List Change) :
    acceptsAll db (us ++ more) =
      (acceptsAll db us && acceptsAll (performAll db us) more) := by
  induction us generalizing db with
  | nil => rfl
  | cons u rest ih =>
      rw [List.cons_append, acceptsAll_cons, acceptsAll_cons, ih,
        Bool.and_assoc]
      rfl

def isOrderChange : Change -> Bool
  | .orderStatus _ _ => true
  | .orderDeleted _ _ => true
  | _ => false

theorem orderChanges_accepted {us : List Change}
    (h : forall u, u ∈ us -> isOrderChange u = true) (db : Database) :
    acceptsAll db us = true ∧ (performAll db us).products = db.products := by
  induction us generalizing db with
  | nil => exact ⟨rfl, rfl⟩
  | cons u rest ih =>
      have hu := h u List.mem_cons_self
      rcases ih (fun v hv => h v (List.mem_cons_of_mem _ hv)) (db.update u 0)
        with ⟨haccepts, hproducts⟩
      cases u with
      | orderStatus | orderDeleted =>
          unfold acceptsAll
          rw [haccepts]
          exact ⟨rfl, hproducts⟩
      | _ => cases hu

theorem isOrderChange_statusChange (o : Order) (status : Status) :
    forall u, u ∈ statusChange o status -> isOrderChange u = true := by
  intro u hu
  unfold statusChange at hu
  split at hu
  · cases hu
  · rw [List.mem_singleton.mp hu]
    rfl

def Move.stockChanges (items : List OrderItem) : Move -> List Change
  | set _ => []
  | cancel => restockChanges items
  | reopen => takeChanges items

theorem isPlanned_stockChanges (m : Move) (items : List OrderItem) :
    forall u, u ∈ m.stockChanges items -> isPlanned u = true := by
  intro u hu
  cases m with
  | set => cases hu
  | cancel => exact isPlanned_restock items u hu
  | reopen =>
      rcases List.mem_map.mp hu with ⟨i, _, rfl⟩
      rfl

theorem acceptsAll_changes (db base : Database) (o : Order) (m : Move) :
    acceptsAll db (m.changes base o) =
      acceptsAll db (m.stockChanges (base.itemsOf o.id true)) := by
  have hdeleted : forall deleted u,
      u ∈ [Change.orderDeleted o.id deleted] -> isOrderChange u = true := by
    intro deleted u hu
    rw [List.mem_singleton.mp hu]
    rfl
  cases m with
  | set status =>
      exact (orderChanges_accepted (isOrderChange_statusChange o status)
        db).left
  | cancel =>
      show acceptsAll db (_ ++ _ ++ _) = _
      rw [acceptsAll_append_eq, acceptsAll_append_eq,
        (orderChanges_accepted (hdeleted true) _).left,
        (orderChanges_accepted (isOrderChange_statusChange o _) _).left,
        Bool.and_true, Bool.and_true]
      rfl
  | reopen =>
      have hquiet : forall u, u ∈ [Change.orderDeleted o.id false] ++
          statusChange o .pending -> isOrderChange u = true := by
        intro u hu
        rcases List.mem_append.mp hu with hfirst | hsecond
        · exact hdeleted false u hfirst
        · exact isOrderChange_statusChange o _ u hsecond
      rcases orderChanges_accepted hquiet db with ⟨haccepts, hproducts⟩
      show acceptsAll db (_ ++ _ ++ _) = _
      rw [acceptsAll_append_eq, haccepts, Bool.true_and]
      exact acceptsAll_of_sameStocks
        (isPlanned_stockChanges .reopen (base.itemsOf o.id true))
        (sameStocks_of_products hproducts)

/-!
# Deciding again

A task that makes a move in one store decides in another store, with the same
customers, by the status of the order and by whether it is deleted.
-/

def OrderTask.admits : OrderTask -> Status -> Bool
  | statusJob _, status => decide (status ≠ .cancelled ∧ status ≠ .delivered)
  | _, status => decide (status ≠ .delivered)

def OrderTask.allows (t : OrderTask) : Move -> Status -> Bool -> Bool
  | .set _, status, deleted => !deleted && t.admits status
  | .cancel, status, deleted => !deleted && decide (status ≠ .delivered)
  | .reopen, _, deleted => deleted

theorem order?_of_row {db : Database} {id : Int} {r : Order}
    (h : db.orders.find? id = some r) :
    db.order? id true = if r.deletedAt.isSome then none else some r := by
  unfold Database.order?
  rw [h]
  cases hdeleted : r.deletedAt <;> simp [Option.filter, hdeleted]

theorem paramOrder?_of_row {db db' : Database} {text : String} {o r : Order}
    {paranoid : Bool} (ho : paramOrder? db text paranoid = some o)
    (hr : db'.orders.find? o.id = some r) :
    paramOrder? db' text true =
        (if r.deletedAt.isSome then none else some r) ∧
      paramOrder? db' text false = some r := by
  rcases Option.bind_eq_some_iff.mp ho with ⟨id, hid, hfound⟩
  rw [Database.order?_key hfound] at hr
  unfold paramOrder?
  rw [hid, Option.bind_some, Option.bind_some, order?_of_row hr,
    Database.order?_false, hr]
  exact ⟨rfl, rfl⟩

theorem authPlan_of_token {db db' : Database} {token : Token} {c : Customer}
    (hcustomers : db'.customers = db.customers)
    (hc : tokenCustomer? db.customers token = some c)
    (plan : Customer -> List Change) : authPlan db' token plan = plan c := by
  unfold authPlan
  rw [hcustomers, hc]

theorem setMove_eq_some {o o' : Order} {status : Status} {m : Move}
    (h : setMove o status = some (o', m)) : o' = o ∧ m = .set status := by
  unfold setMove at h
  split at h
  · cases h
  · cases h
    exact ⟨rfl, rfl⟩

theorem planOn_row {r : Order} {plan : Order -> List Change} {deleted test : Bool}
    {us : List Change} (h : plan r = if test then us else []) :
    planOn (if deleted then none else some r) plan =
      if !deleted && test then us else [] := by
  cases deleted with
  | true => rfl
  | false => exact h

theorem plan_again {t : OrderTask} {db db' : Database} {o r : Order} {m : Move}
    (hatomic : isAtomic t = true) (hmove : t.move db = some (o, m))
    (hcustomers : db'.customers = db.customers)
    (hr : db'.orders.find? o.id = some r) (howner : r.customerId = o.customerId) :
    t.plan db' = if t.allows m r.status r.deletedAt.isSome
      then m.changes db' r else [] := by
  cases t with
  | update token text status =>
      rcases Option.bind_eq_some_iff.mp hmove with ⟨c, hc, hfound⟩
      rcases Option.bind_eq_some_iff.mp hfound with ⟨o1, ho1, hguard⟩
      split at hguard
      · cases hguard
      · rename_i hopen
        rcases Option.bind_eq_some_iff.mp hguard with ⟨status', htext, hset⟩
        rcases setMove_eq_some hset with ⟨rfl, rfl⟩
        have hc' : r.customerId = c.id := by
          rw [howner]
          by_contra hne
          exact hopen (Or.inl hne)
        dsimp only [OrderTask.plan]
        rw [authPlan_of_token hcustomers hc, (paramOrder?_of_row ho1 hr).left]
        refine planOn_row ?_
        unfold updatePlan
        rw [htext, hc']
        simp [OrderTask.admits, Move.changes, ite_not]
  | patch token text status =>
      rcases Option.bind_eq_some_iff.mp hmove with ⟨c, hc, hfound⟩
      rcases Option.bind_eq_some_iff.mp hfound with ⟨o1, ho1, hguard⟩
      split at hguard
      · cases hguard
      · rcases Option.bind_eq_some_iff.mp hguard with ⟨status', htext, hset⟩
        rcases setMove_eq_some hset with ⟨rfl, rfl⟩
        dsimp only [OrderTask.plan]
        rw [authPlan_of_token hcustomers hc, (paramOrder?_of_row ho1 hr).left]
        refine planOn_row ?_
        unfold patchPlan
        rw [htext]
        simp [OrderTask.admits, Move.changes, ite_not]
  | softDelete token text =>
      rcases Option.bind_eq_some_iff.mp hmove with ⟨c, hc, hfound⟩
      rcases Option.bind_eq_some_iff.mp hfound with ⟨o1, ho1, hguard⟩
      split at hguard
      · cases hguard
      · cases hguard
        dsimp only [OrderTask.plan]
        rw [authPlan_of_token hcustomers hc, (paramOrder?_of_row ho1 hr).left]
        refine planOn_row ?_
        unfold softDeletePlan
        simp [Move.changes, ite_not]
  | restore token text =>
      rcases Option.bind_eq_some_iff.mp hmove with ⟨c, hc, hfound⟩
      rcases Option.bind_eq_some_iff.mp hfound with ⟨o1, ho1, hguard⟩
      split at hguard
      · cases hguard
      · cases hguard
        dsimp only [OrderTask.plan]
        rw [authPlan_of_token hcustomers hc, (paramOrder?_of_row ho1 hr).right]
        dsimp only [planOn, restorePlan]
        cases r.deletedAt with
        | none => rfl
        | some time => rfl
  | statusJob job =>
      rcases Option.bind_eq_some_iff.mp hmove with ⟨o1, ho1, hguard⟩
      split at hguard
      · cases hguard
      · rcases setMove_eq_some hguard with ⟨rfl, rfl⟩
        rw [Database.order?_key ho1] at hr
        dsimp only [OrderTask.plan]
        rw [order?_of_row hr]
        refine planOn_row ?_
        unfold statusJobPlan
        simp only [OrderTask.admits, Move.changes, decide_eq_true_eq, ne_eq,
          ← not_or, ite_not]
  | cancelJob orderId => cases hatomic

end Orders
end ExpressEcommerce
