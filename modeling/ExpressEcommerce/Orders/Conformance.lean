import ExpressEcommerce.Orders.Plan

/-!
# The handlers follow their plans

One walk over the code of every task on an existing order.  The instance
methods come first, then the handlers that are built from them.
-/

namespace ExpressEcommerce
namespace Orders

open Foundation
open Store
open Service

/-!
# Instance methods
-/

section Methods

variable {intent : Intent} {E : String -> Phase -> Prop} {inTx : Bool}
  {performed todo : List Change}

theorem wp_saveStatus {Q : Order -> Phase -> Prop} {o : Order}
    {status : Status} (htx : inTx = intent.inTx)
    (hok : forall o' : Order, o'.id = o.id -> o'.deletedAt = o.deletedAt ->
      Q o' (.acting (performed ++ statusChange o status) todo))
    (herr : forall e, E e (.stopped inTx performed)) :
    Action.wp (follow intent) (Order.saveStatus inTx o status) Q E
      (.acting performed (statusChange o status ++ todo)) := by
  unfold Order.saveStatus
  unfold statusChange at hok ⊢
  split
  · rename_i hsame
    rw [if_pos hsame, List.append_nil] at hok
    exact hok o rfl rfl
  · rename_i hdiff
    rw [if_neg hdiff] at hok
    rw [Action.wp_bind]
    refine wp_update htx (fun now => ?_) herr
    rw [Action.wp_bind]
    exact wp_invalidateOrderCache (hok _ rfl rfl)

theorem wp_destroy {Q : Order -> Phase -> Prop} {o : Order}
    (htx : inTx = intent.inTx) (hlive : o.deletedAt = none)
    (hok : forall o', Q o' (.acting (performed ++ [.orderDeleted o.id true])
      todo))
    (herr : forall e, E e (.stopped inTx performed)) :
    Action.wp (follow intent) (Order.destroy inTx o) Q E
      (.acting performed (.orderDeleted o.id true :: todo)) := by
  unfold Order.destroy
  dsimp only
  rw [if_pos (by rw [hlive]; rfl), Action.wp_bind]
  refine wp_update htx (fun now => ?_) herr
  rw [Action.wp_bind, Action.wp_pure, Action.wp_bind]
  exact wp_invalidateOrderCache (hok _)

theorem wp_restore {Q : Order -> Phase -> Prop} {o : Order}
    (htx : inTx = intent.inTx) (hdeleted : o.deletedAt.isSome = true)
    (hok : forall o' : Order, o'.id = o.id -> o'.status = o.status ->
      Q o' (.acting (performed ++ [.orderDeleted o.id false]) todo))
    (herr : forall e, E e (.stopped inTx performed)) :
    Action.wp (follow intent) (Order.restore inTx o) Q E
      (.acting performed (.orderDeleted o.id false :: todo)) := by
  unfold Order.restore
  dsimp only
  rw [if_pos hdeleted, Action.wp_bind]
  refine wp_update htx (fun now => ?_) herr
  rw [Action.wp_bind, Action.wp_pure, Action.wp_bind]
  exact wp_invalidateOrderCache (hok _ rfl rfl)

theorem wp_moveStock {Q : PUnit -> Phase -> Prop} (htx : inTx = intent.inTx)
    (amount : OrderItem -> Int) (items : List OrderItem)
    (hok : Q PUnit.unit (.acting (performed ++
      items.map (fun i => .productStock i.productId (amount i))) todo))
    (herr : forall e performed, E e (.stopped inTx performed)) :
    Action.wp (follow intent)
      (items.forM (fun i =>
        Product.incrementStock inTx i.productId (amount i))) Q E
      (.acting performed
        (items.map (fun i => .productStock i.productId (amount i)) ++
          todo)) := by
  -- the statements of the items still to come lie ahead in the phase
  refine Action.wp_forM
    (fun rest phase => exists sofar, phase = .acting sofar
        (rest.map (fun i => .productStock i.productId (amount i)) ++ todo) ∧
      sofar ++ rest.map (fun i => .productStock i.productId (amount i)) =
        performed ++
          items.map (fun i => .productStock i.productId (amount i)))
    ?_ ?_ items ⟨performed, rfl, rfl⟩
  · rintro i rest phase ⟨sofar, rfl, hsofar⟩
    unfold Product.incrementStock
    rw [Action.wp_bind]
    refine wp_update htx (fun now => ?_) (fun e => herr e _)
    refine ⟨_, rfl, ?_⟩
    rw [← hsofar, List.append_assoc]
    rfl
  · rintro phase ⟨sofar, rfl, hsofar⟩
    rw [List.map_nil, List.append_nil] at hsofar
    rw [hsofar]
    exact hok

theorem wp_restoreItems {Q : PUnit -> Phase -> Prop} {phase : Phase}
    {items : List OrderItem}
    (hlive : forall i, i ∈ items -> i.deletedAt = none)
    (hok : Q PUnit.unit phase) :
    Action.wp (follow intent)
      (items.forM (fun i => do
        let _ ← OrderItem.restore inTx i
        pure ())) Q E phase := by
  refine Action.wp_forM
    (fun rest t => t = phase ∧ forall i, i ∈ rest -> i.deletedAt = none)
    ?_ ?_ items ⟨rfl, hlive⟩
  · rintro i rest t ⟨rfl, hrest⟩
    -- items of a paranoid include are live, so restoring them does nothing
    have hi : i.deletedAt = none := hrest i List.mem_cons_self
    unfold OrderItem.restore
    rw [Action.wp_bind, if_neg (by rw [hi]; exact Bool.false_ne_true)]
    exact ⟨rfl, fun j hj => hrest j (List.mem_cons_of_mem i hj)⟩
  · rintro t ⟨rfl, _⟩
    exact hok

theorem wp_authenticateCustomer {Q : Response -> Phase -> Prop}
    {token : Token} {next : Customer -> Act Response}
    (hnone : tokenCustomer? intent.customers token = none ->
      forall r, Q r .idle)
    (herr : forall r, Q r (.stopped false []))
    (hok : forall c, tokenCustomer? intent.customers token = some c ->
      Action.wp (follow intent) (next c) Q E .idle) :
    Action.wp (follow intent) (authenticateCustomer token next) Q E
      .idle := by
  cases token with
  | missing => exact hnone rfl _
  | invalid => exact hnone rfl _
  | valid id =>
      unfold authenticateCustomer authenticated
      rw [Action.wp_bind, Action.wp_tryCatch, Action.wp_bind]
      refine wp_customer (fun db hdb => ?_) (fun e => herr _)
      have hfound : db.customer? id false =
          tokenCustomer? intent.customers (.valid id) := by
        rw [Database.customer?_false, hdb]
        rfl
      rw [hfound, Action.wp_pure]
      cases htoken : tokenCustomer? intent.customers (.valid id) with
      | none => exact hnone htoken _
      | some c => exact hok c htoken

end Methods

/-!
# Handlers
-/

theorem authPlan_of_none {db : Database} {customers : Table Customer}
    {token : Token} {plan : Customer -> List Change}
    (hdb : db.customers = customers)
    (h : tokenCustomer? customers token = none) :
    authPlan db token plan = [] := by
  unfold authPlan
  rw [hdb, h]

theorem authPlan_of_some {db : Database} {customers : Table Customer}
    {token : Token} {plan : Customer -> List Change} {c : Customer}
    (hdb : db.customers = customers)
    (h : tokenCustomer? customers token = some c) :
    authPlan db token plan = plan c := by
  unfold authPlan
  rw [hdb, h]

theorem statusChange_self (o : Order) : statusChange o o.status = [] :=
  if_pos rfl

section Handlers

variable {intent : Intent} {E : String -> Phase -> Prop}

theorem wp_findOrder {alpha : Type} {Q : alpha -> Phase -> Prop}
    {text : String} {paranoid inTx : Bool} {incl : Include} {phase : Phase}
    {rest : Option OrderGraph -> Act alpha}
    (hmay : forall id,
      phase.may intent (.query inTx (.orderByPk id paranoid incl)))
    (hbad : (forall db : Database, paramOrder? db text paranoid = none) ->
      forall e, E e phase)
    (herr : forall e, E e (.stopped inTx []))
    (hok : forall db : Database, db.customers = intent.customers ->
      Action.wp (follow intent)
        (rest ((paramOrder? db text paranoid).map (db.graph incl))) Q E
        (.acting [] (intent.plan db))) :
    Action.wp (follow intent)
      (integerParam text >>= fun id =>
        query inTx (.orderByPk id paranoid incl) >>= rest) Q E phase := by
  unfold paramOrder? at hbad hok
  refine wp_integerParam (fun hid => ?_) (fun id hid => ?_)
  · rw [hid] at hbad
    exact hbad (fun _ => rfl)
  · rw [hid] at hok
    rw [Action.wp_bind]
    exact wp_order (hmay id) hok herr

theorem wp_setStatus {o : Order} {status : Status} {todo : List Change}
    {Q : Response -> Phase -> Prop} {message : Order -> Response}
    (htx : intent.inTx = false) (htodo : todo = statusChange o status)
    (hdone : forall r performed, Q r (.acting performed []))
    (herr : forall e, E e (.stopped false [])) :
    Action.wp (follow intent)
      (do
        let order ← Order.saveStatus false o status
        pure (message order)) Q E
      (.acting [] todo) := by
  rw [Action.wp_bind, htodo, ← List.append_nil (statusChange o status)]
  exact wp_saveStatus htx.symm (fun o' _ _ => hdone _ _) herr

theorem wp_updateOrder {Q : Response -> Phase -> Prop} {customerId : Int}
    {text : String} {status : Option String} (htx : intent.inTx = false)
    (hplan : forall db : Database, db.customers = intent.customers ->
      intent.plan db =
        planOn (paramOrder? db text true) (updatePlan customerId status))
    (hidle : intent.Idle -> forall r, Q r .idle)
    (hdone : forall r performed, Q r (.acting performed []))
    (herr : forall r, Q r (.stopped false [])) :
    Action.wp (follow intent) (updateOrder customerId text status) Q E
      .idle := by
  unfold updateOrder
  rw [Action.wp_tryCatch]
  refine wp_findOrder (fun _ => ⟨rfl, htx⟩) ?_ (fun _ => herr _) ?_
  · intro hnone e
    refine hidle (fun db hdb => ?_) _
    rw [hplan db hdb, hnone db]
    rfl
  · intro db hdb
    rw [hplan db hdb]
    cases paramOrder? db text true with
    | none => exact hdone _ _
    | some o =>
        unfold planOn updatePlan
        dsimp only [Option.map_some]
        rw [Database.graph_order]
        by_cases howner : o.customerId ≠ customerId
        · rw [if_pos howner, if_pos (Or.inl howner)]
          exact hdone _ _
        · rw [if_neg howner]
          by_cases hdelivered : o.status = Status.delivered
          · rw [if_pos hdelivered, if_pos (Or.inr hdelivered)]
            exact hdone _ _
          · rw [if_neg hdelivered, if_neg (not_or.mpr ⟨howner, hdelivered⟩)]
            cases status.filter (fun s => !s.isEmpty) with
            | none =>
                -- without a status the order is saved as it is
                exact wp_setStatus htx (statusChange_self o).symm hdone
                  (fun _ => herr _)
            | some s =>
                rw [Option.bind_some]
                cases Status.ofText? s with
                | none => exact hdone _ _
                | some status =>
                    exact wp_setStatus htx rfl hdone (fun _ => herr _)

theorem wp_patchOrderStatus {Q : Response -> Phase -> Prop}
    {text : String} {status : Option String} (htx : intent.inTx = false)
    (hplan : forall db : Database, db.customers = intent.customers ->
      intent.plan db = planOn (paramOrder? db text true) (patchPlan status))
    (hidle : intent.Idle -> forall r, Q r .idle)
    (hdone : forall r performed, Q r (.acting performed []))
    (herr : forall r, Q r (.stopped false [])) :
    Action.wp (follow intent) (patchOrderStatus text status) Q E .idle := by
  unfold patchOrderStatus
  rw [Action.wp_tryCatch]
  refine wp_findOrder (fun _ => ⟨rfl, htx⟩) ?_ (fun _ => herr _) ?_
  · intro hnone e
    refine hidle (fun db hdb => ?_) _
    rw [hplan db hdb, hnone db]
    rfl
  · intro db hdb
    rw [hplan db hdb]
    cases paramOrder? db text true with
    | none => exact hdone _ _
    | some o =>
        unfold planOn patchPlan
        dsimp only [Option.map_some]
        rw [Database.graph_order]
        by_cases hdelivered : o.status = Status.delivered
        · rw [if_pos hdelivered, if_pos hdelivered]
          exact hdone _ _
        · rw [if_neg hdelivered, if_neg hdelivered]
          cases status.bind Status.ofText? with
          | none => exact hdone _ _
          | some status => exact wp_setStatus htx rfl hdone (fun _ => herr _)

theorem wp_abort {Q : Response -> Phase -> Prop} {response : Response}
    {phase : Phase} (htx : intent.inTx = true)
    (hphase : (exists isOpen performed, phase = .stopped isOpen performed) ∨
      (phase = .opened ∧ intent.Idle))
    (hstop : forall r, Q r (.stopped false []))
    (herr : forall e, E e (.stopped false [])) :
    Action.wp (follow intent)
      (do
        rollback
        pure response) Q E phase := by
  rw [Action.wp_bind]
  rcases hphase with ⟨isOpen, performed, rfl⟩ | ⟨rfl, hidle⟩
  · exact wp_rollback_stopped htx (hstop _) herr
  · exact wp_rollback_opened htx hidle (hstop _) herr

theorem wp_softDeleteOrder {Q : Response -> Phase -> Prop} {text : String}
    (htx : intent.inTx = true)
    (hplan : forall db : Database, db.customers = intent.customers ->
      intent.plan db = planOn (paramOrder? db text true)
        (fun o => softDeletePlan (db.itemsOf o.id true) o))
    (hfinished : forall r performed, Q r (.finished performed))
    (hstop : forall r, Q r (.stopped false []))
    (herr : forall e, E e (.stopped false [])) :
    Action.wp (follow intent) (softDeleteOrder text) Q E .idle := by
  unfold softDeleteOrder
  rw [Action.wp_bind]
  refine wp_begin htx ?_ herr
  rw [Action.wp_tryCatch]
  have habort : forall isOpen performed,
      Action.wp (follow intent)
        (do
          rollback
          respond 500 (.error "Internal server error")) Q E
        (.stopped isOpen performed) :=
    fun isOpen performed =>
      wp_abort htx (Or.inl ⟨isOpen, performed, rfl⟩) hstop herr
  refine wp_findOrder (fun _ => ⟨rfl, htx⟩) ?_ (fun _ => habort _ _) ?_
  · intro hnone e
    refine wp_abort htx (Or.inr ⟨rfl, fun db hdb => ?_⟩) hstop herr
    rw [hplan db hdb, hnone db]
    rfl
  · intro db hdb
    rw [hplan db hdb]
    cases hfound : paramOrder? db text true with
    | none =>
        rw [Option.map_none, Action.wp_bind]
        exact wp_rollback_declined htx (hfinished _ _) (fun _ => habort _ _)
    | some o =>
        unfold planOn softDeletePlan
        dsimp only [Option.map_some]
        rw [Database.graph_order]
        by_cases hdelivered : o.status = Status.delivered
        · rw [if_pos hdelivered, if_pos hdelivered, Action.wp_bind]
          exact wp_rollback_declined htx (hfinished _ _)
            (fun _ => habort _ _)
        · rw [if_neg hdelivered, if_neg hdelivered,
            Database.map_item_graph db rfl, List.append_assoc,
            Action.wp_bind]
          refine wp_moveStock htx.symm _ _ ?_ (fun _ _ => habort _ _)
          rw [Action.wp_bind]
          refine wp_saveStatus htx.symm (fun o' hid hdel => ?_)
            (fun _ => habort _ _)
          have hlive : o'.deletedAt = none := by
            rw [hdel]
            exact live_of_paramOrder? hfound
          rw [Action.wp_bind, ← hid]
          refine wp_destroy htx.symm hlive (fun _ => ?_) (fun _ => habort _ _)
          rw [Action.wp_bind]
          exact wp_commit htx (by simp) (hfinished _ _) (fun _ => habort _ _)

theorem wp_restoreOrder {Q : Response -> Phase -> Prop} {text : String}
    (htx : intent.inTx = true)
    (hplan : forall db : Database, db.customers = intent.customers ->
      intent.plan db = planOn (paramOrder? db text false)
        (fun o => restorePlan (db.itemsOf o.id true) o))
    (hfinished : forall r performed, Q r (.finished performed))
    (hstop : forall r, Q r (.stopped false []))
    (herr : forall e, E e (.stopped false [])) :
    Action.wp (follow intent) (restoreOrder text) Q E .idle := by
  unfold restoreOrder
  rw [Action.wp_bind]
  refine wp_begin htx ?_ herr
  rw [Action.wp_tryCatch]
  have habort : forall isOpen performed,
      Action.wp (follow intent)
        (do
          rollback
          respond 500 (.error "Internal server error")) Q E
        (.stopped isOpen performed) :=
    fun isOpen performed =>
      wp_abort htx (Or.inl ⟨isOpen, performed, rfl⟩) hstop herr
  refine wp_findOrder (fun _ => ⟨rfl, htx⟩) ?_ (fun _ => habort _ _) ?_
  · intro hnone e
    refine wp_abort htx (Or.inr ⟨rfl, fun db hdb => ?_⟩) hstop herr
    rw [hplan db hdb, hnone db]
    rfl
  · intro db hdb
    rw [hplan db hdb]
    cases paramOrder? db text false with
    | none =>
        rw [Option.map_none, Action.wp_bind]
        exact wp_rollback_declined htx (hfinished _ _) (fun _ => habort _ _)
    | some o =>
        unfold planOn restorePlan
        dsimp only [Option.map_some]
        rw [Database.graph_order]
        by_cases hlive : o.deletedAt.isNone = true
        · rw [if_pos hlive, if_pos hlive, Action.wp_bind]
          exact wp_rollback_declined htx (hfinished _ _)
            (fun _ => habort _ _)
        · rw [if_neg hlive, if_neg hlive, Database.map_item_graph db rfl,
            List.append_assoc, Action.wp_bind]
          have hdeleted : o.deletedAt.isSome = true := by
            cases hdel : o.deletedAt with
            | none => exact absurd (by rw [hdel]; rfl) hlive
            | some _ => rfl
          refine wp_restore htx.symm hdeleted (fun o' hid hstatus => ?_)
            (fun _ => habort _ _)
          rw [Action.wp_bind]
          refine wp_restoreItems
            (fun i hi => Database.live_of_mem_itemsOf hi) ?_
          have hchange : statusChange o Status.pending =
              statusChange o' Status.pending := by
            unfold statusChange
            rw [hid, hstatus]
          rw [Action.wp_bind, hchange, ← List.append_nil (takeChanges _)]
          refine wp_saveStatus htx.symm (fun o2 _ _ => ?_)
            (fun _ => habort _ _)
          rw [Action.wp_bind]
          refine wp_moveStock htx.symm _ _ ?_ (fun _ _ => habort _ _)
          rw [Action.wp_bind]
          refine wp_commit htx (by simp) ?_ (fun _ => habort _ _)
          exact hfinished _ _

theorem wp_statusProcessor {Q : Unit -> Phase -> Prop} {job : Job}
    (htx : intent.inTx = false)
    (hplan : forall db : Database, db.customers = intent.customers ->
      intent.plan db =
        planOn (db.order? job.orderId true) (statusJobPlan job.targetStatus))
    (hjob : forall id status, intent.job [.orderStatus id status] =
      (nextStatusMap status).map (fun next => ⟨id, next⟩))
    (hnothing : forall u, Q u (.acting [] []))
    (hdone : forall u performed, intent.job performed = none ->
      Q u (.acting performed []))
    (hscheduled : forall u performed, Q u (.scheduled performed))
    (herr : forall e performed, E e (.stopped false performed)) :
    Action.wp (follow intent) (statusProcessor job) Q E .idle := by
  unfold statusProcessor
  rw [Action.wp_bind]
  refine wp_order ⟨rfl, htx⟩ (fun db hdb => ?_) (fun e => herr e _)
  rw [hplan db hdb]
  cases hfound : db.order? job.orderId true with
  | none => exact hnothing _
  | some o =>
      rcases Database.order?_true_eq_some_iff.mp hfound with ⟨hrow, hlive⟩
      have hid : o.id = job.orderId := (Table.find?_eq_some_iff.mp hrow).right
      unfold planOn statusJobPlan
      dsimp only [Option.map_some]
      rw [Database.graph_order]
      by_cases hcancelled : o.status = Status.cancelled
      · rw [if_pos (Or.inr hcancelled), if_pos (Or.inl hcancelled)]
        exact hnothing _
      · rw [if_neg (by simp [hlive, hcancelled])]
        by_cases hdelivered : o.status = Status.delivered
        · rw [if_pos hdelivered, if_pos (Or.inr hdelivered)]
          exact hnothing _
        · rw [if_neg hdelivered,
            if_neg (not_or.mpr ⟨hcancelled, hdelivered⟩)]
          by_cases hsame : o.status = job.targetStatus
          · rw [if_pos hsame, ← hsame, statusChange_self]
            exact hnothing _
          · rw [if_neg hsame, Action.wp_bind,
              ← List.append_nil (statusChange _ _)]
            refine wp_saveStatus htx.symm (fun _ _ _ => ?_)
              (fun e => herr e _)
            have hnext : intent.job ([] ++ statusChange o job.targetStatus) =
                (nextStatusMap job.targetStatus).map
                  (fun next => ⟨job.orderId, next⟩) := by
              unfold statusChange
              rw [if_neg hsame, List.nil_append, hjob, hid]
            split
            · exact wp_schedule htx hnext (hdone _ _) (hscheduled _ _)
                (fun e => herr e _)
            · rename_i hlast
              rw [not_not.mp hlast] at hnext ⊢
              exact hdone _ _ hnext

theorem wp_cancelProcessor {Q : Unit -> Phase -> Prop} {orderId : Int}
    (htx : intent.inTx = false)
    (hplan : forall db : Database, db.customers = intent.customers ->
      intent.plan db = planOn (db.order? orderId true)
        (fun o => cancelPlan (db.itemsOf o.id false) o))
    (hdone : forall u performed, Q u (.acting performed []))
    (herr : forall e performed, E e (.stopped false performed)) :
    Action.wp (follow intent) (cancelProcessor orderId) Q E .idle := by
  unfold cancelProcessor
  rw [Action.wp_bind]
  refine wp_order ⟨rfl, htx⟩ (fun db hdb => ?_) (fun e => herr e _)
  rw [hplan db hdb]
  cases hfound : db.order? orderId true with
  | none => exact hdone _ _
  | some o =>
      have hlive := (Database.order?_true_eq_some_iff.mp hfound).right
      unfold planOn cancelPlan
      dsimp only [Option.map_some]
      rw [Database.graph_order]
      rw [if_neg (by rw [hlive]; exact Bool.false_ne_true)]
      by_cases hdelivered : o.status = Status.delivered
      · rw [if_pos hdelivered, if_pos hdelivered]
        exact hdone _ _
      · rw [if_neg hdelivered, if_neg hdelivered,
          Database.map_item_graph db rfl, List.append_assoc, Action.wp_bind]
        refine wp_saveStatus htx.symm (fun o' hid hdel => ?_)
          (fun e => herr e _)
        rw [Action.wp_bind, ← hid]
        refine wp_destroy htx.symm (hdel.trans hlive) (fun _ => ?_)
          (fun e => herr e _)
        rw [← List.append_nil (restockChanges _)]
        exact wp_moveStock htx.symm _ _ (hdone _ _) herr

end Handlers

/-- The code of a task follows the plan of the task. -/
theorem follows_plan (t : OrderTask) (customers : Table Customer) :
    t.task.code.wp (follow (t.intent customers))
      (fun out phase => phase.Ended (t.intent customers) out) .idle := by
  cases t with
  | update token id status =>
      refine wp_settle.mpr (wp_authenticateCustomer ?_ ?_ ?_)
      · intro hnone r db hdb
        exact authPlan_of_none hdb hnone
      · exact fun r => ⟨rfl, Or.inl rfl⟩
      · intro c hc
        exact wp_updateOrder rfl (fun db hdb => authPlan_of_some hdb hc)
          (fun hidle _ => hidle) (fun _ _ => ⟨rfl, rfl, rfl⟩)
          (fun _ => ⟨rfl, Or.inl rfl⟩)
  | patch token id status =>
      refine wp_settle.mpr (wp_authenticateCustomer ?_ ?_ ?_)
      · intro hnone r db hdb
        exact authPlan_of_none hdb hnone
      · exact fun r => ⟨rfl, Or.inl rfl⟩
      · intro c hc
        exact wp_patchOrderStatus rfl (fun db hdb => authPlan_of_some hdb hc)
          (fun hidle _ => hidle) (fun _ _ => ⟨rfl, rfl, rfl⟩)
          (fun _ => ⟨rfl, Or.inl rfl⟩)
  | softDelete token id =>
      refine wp_settle.mpr (wp_authenticateCustomer ?_ ?_ ?_)
      · intro hnone r db hdb
        exact authPlan_of_none hdb hnone
      · exact fun r => ⟨rfl, Or.inl rfl⟩
      · intro c hc
        exact wp_softDeleteOrder rfl (fun db hdb => authPlan_of_some hdb hc)
          (fun _ _ => trivial) (fun _ => ⟨rfl, Or.inl rfl⟩)
          (fun _ => ⟨rfl, Or.inl rfl⟩)
  | restore token id =>
      refine wp_settle.mpr (wp_authenticateCustomer ?_ ?_ ?_)
      · intro hnone r db hdb
        exact authPlan_of_none hdb hnone
      · exact fun r => ⟨rfl, Or.inl rfl⟩
      · intro c hc
        exact wp_restoreOrder rfl (fun db hdb => authPlan_of_some hdb hc)
          (fun _ _ => trivial) (fun _ => ⟨rfl, Or.inl rfl⟩)
          (fun _ => ⟨rfl, Or.inl rfl⟩)
  | statusJob job =>
      refine wp_settle.mpr (wp_statusProcessor rfl (fun _ _ => rfl)
        (fun _ _ => rfl) ?_ ?_ ?_ ?_)
      · exact fun _ => ⟨rfl, rfl, rfl⟩
      · exact fun _ _ hnone => ⟨rfl, rfl, hnone⟩
      · exact fun _ _ => trivial
      · exact fun e _ => ⟨rfl, Or.inr ⟨e, rfl⟩⟩
  | cancelJob orderId =>
      refine wp_settle.mpr (wp_cancelProcessor rfl (fun _ _ => rfl) ?_ ?_)
      · exact fun _ _ => ⟨rfl, rfl, rfl⟩
      · exact fun e _ => ⟨rfl, Or.inr ⟨e, rfl⟩⟩

end Orders
end ExpressEcommerce
