import ExpressEcommerce.Jobs.Retry
import ExpressEcommerce.Orders.Symbolic

/-!
# Retrying a cancellation

`cancelProcessor` marks and deletes the order first and gives the stock back
afterwards, statement by statement and outside of a transaction.  An execution
that fails in the loop leaves a deleted order, and the next execution does not
find it any more.
-/

namespace ExpressEcommerce
namespace Jobs

open Foundation
open Store
open Service
open Orders
open Foundation.Action
open Runs

/-!
# One execution
-/

def closing (o : Order) : List Change :=
  statusChange o .cancelled ++ [.orderDeleted o.id true]

/-- The order that an execution works on. -/
def Cancellable (db : Database) (id : Int) (o : Order) : Prop :=
  db.order? id true = some o ∧ o.status ≠ .delivered

/-- How an execution of `cancelProcessor` ends. -/
inductive CancelEnds (ok : Cmd -> Env -> Prop) (id : Int) (w : World) :
    Outcome -> World -> Prop where
  | idle (hnone : forall o, ¬ Cancellable w.db id o) :
      CancelEnds ok id w .returned w
  | untouched (e : String) {c : Cmd} (hmay : MayFail (ok c)) :
      CancelEnds ok id w (.threw e) w
  | marked {o : Order} {w' : World} (e : String) {c : Cmd}
      (ho : Cancellable w.db id o)
      (hperforms : Performs w.db (statusChange o .cancelled) w'.db)
      (hmay : MayFail (ok c)) : CancelEnds ok id w (.threw e) w'
  | stopped {o : Order} {w' : World} {before after : List OrderItem}
      {item : OrderItem} (e : String) (ho : Cancellable w.db id o)
      (hitems : w.db.itemsOf id false = before ++ item :: after)
      (hperforms : Performs w.db (closing o ++ restockChanges before) w'.db)
      (hstop : MayFail
          (ok (.update false (.productStock item.productId item.quantity))) ∨
        w'.db.acceptsChange (.productStock item.productId item.quantity) =
          false) : CancelEnds ok id w (.threw e) w'
  | finished {o : Order} {w' : World} {cache : Cache}
      (ho : Cancellable w.db id o)
      (hperforms : Performs w.db
        (closing o ++ restockChanges (w.db.itemsOf id false)) w'.db)
      (hcache : Dropped ok (orderKey id) cache w'.cache) :
      CancelEnds ok id w .returned w'

section Execution

variable {ok : Cmd -> Env -> Prop} {w : World}

theorem cancelEnds_of_executes {id : Int} {out : Outcome} {w' : World}
    (h : ExecutesIn ok w (.cancelJob id) out w') :
    CancelEnds ok id w out w' := by
  have hwp : (Task.cancelJob id).code.wp (direct ok)
      (fun out s => CancelEnds ok id w out s.1) (w, none) := by
    refine wp_settle.mpr ?_
    unfold cancelProcessor
    refine (wp_bind _ _ _).mpr (direct_query rfl (fun _ => ?_) ?_)
    · have hanswer : Query.eval (w.view none false)
          (.orderByPk id true { items := some false }) =
            (w.db.order? id true).map
              (w.db.graph { items := some false }) := rfl
      rw [hanswer]
      cases hfound : w.db.order? id true with
      | none =>
          refine .idle ?_
          intro o ho
          rw [ho.left] at hfound
          cases hfound
      | some o =>
          rcases Database.order?_true_eq_some_iff.mp hfound with
            ⟨hrow, hlive⟩
          have hid : o.id = id := (Table.find?_eq_some_iff.mp hrow).right
          dsimp only [Option.map_some]
          rw [Database.graph_order,
            if_neg (by rw [hlive]; exact Bool.false_ne_true)]
          split
          · rename_i hdelivered
            refine .idle ?_
            intro r hr
            rw [hr.left] at hfound
            cases hfound
            exact hr.right hdelivered
          · rename_i hopen
            have ho : Cancellable w.db id o := ⟨hfound, hopen⟩
            rw [Database.map_item_graph w.db rfl, hid]
            refine (wp_bind _ _ _).mpr (direct_saveStatus rfl ?_ ?_)
            · intro o1 s1 hid1 hdel1 hwrote1
              rcases s1 with ⟨w1, tx1⟩
              refine (wp_bind _ _ _).mpr (direct_destroy hwrote1.isSome
                (hdel1.trans hlive) ?_ ?_)
              · intro _ s2 hwrote2 hdropped
                rcases s2 with ⟨w2, tx2⟩
                rw [hid1] at hwrote2
                rw [hid1, hid] at hdropped
                have hclosing := hwrote1.trans hwrote2
                refine direct_restock hclosing.isSome ?_ ?_
                · intro s3 hwrote3 hcache
                  have hgone : Dropped ok (orderKey id) w1.cache
                      s3.1.cache := by
                    rw [hcache]
                    exact hdropped
                  exact .finished ho (hclosing.trans hwrote3).direct.right
                    hgone
                · intro before item after s3 e hitems hwrote3 _ hstop
                  exact .stopped e ho hitems
                    (hclosing.trans hwrote3).direct.right hstop
              · intro hmay e
                exact .marked e ho hwrote1.direct.right hmay
            · intro hmay e
              exact .untouched e hmay
    · intro hmay e
      exact .untouched e hmay
  rcases executes_of_wp hwp h with ⟨_, hend⟩
  exact hend

end Execution

/-!
# What the statements have done
-/

theorem Cancellable.id_eq {db : Database} {id : Int} {o : Order}
    (h : Cancellable db id o) : o.id = id :=
  (Table.find?_eq_some_iff.mp
    (Database.order?_true_eq_some_iff.mp h.left).left).right

def Closed (db : Database) (id : Int) : Prop :=
  exists r, db.orders.find? id = some r ∧ r.status = .cancelled ∧
    r.deletedAt.isSome = true

theorem Closed.not_cancellable {db : Database} {id : Int} (h : Closed db id)
    (o : Order) : ¬ Cancellable db id o := by
  intro ho
  rcases h with ⟨r, hr, _, hdeleted⟩
  rcases Database.order?_true_eq_some_iff.mp ho.left with ⟨hrow, hlive⟩
  rw [hr] at hrow
  cases hrow
  rw [hlive] at hdeleted
  cases hdeleted

section Statements

variable {db db' : Database} {id : Int} {o : Order}

theorem performs_cancelled (ho : Cancellable db id o)
    (h : Performs db (statusChange o .cancelled) db') :
    (exists r, Cancellable db' id r ∧ r.status = .cancelled) ∧
      db'.products = db.products ∧ db'.items = db.items := by
  rcases Database.order?_true_eq_some_iff.mp ho.left with ⟨hrow, hlive⟩
  have hid := ho.id_eq
  rw [← hid] at hrow
  rcases performs_statusChange hrow h with ⟨now, hproducts, hrep⟩
  have hself := hrep.find?_self rfl
  have hstatus : (if o.status = Status.cancelled then o.status
      else Status.cancelled) = Status.cancelled := by
    split
    · assumption
    · rfl
  rw [hstatus] at hself
  dsimp only at hself
  rw [hid] at hself
  refine ⟨⟨_, ⟨Database.order?_true_eq_some_iff.mpr ⟨hself, hlive⟩, ?_⟩,
    rfl⟩, hproducts, hrep.items⟩
  intro hdelivered
  cases hdelivered

theorem performs_closing (ho : Cancellable db id o)
    (h : Performs db (closing o) db') :
    Closed db' id ∧ db'.products = db.products ∧ db'.items = db.items := by
  rcases performs_append h with ⟨mid, hfirst, hsecond⟩
  rcases performs_cancelled ho hfirst with
    ⟨⟨r, hr, hcancelled⟩, hproducts, hitems⟩
  have hrow := (Database.order?_true_eq_some_iff.mp hr.left).left
  rw [ho.id_eq] at hsecond
  rcases performs_orderDeleted hrow hsecond with ⟨now, hproducts2, hrep⟩
  have hself := hrep.find?_self rfl
  dsimp only at hself
  rw [hr.id_eq] at hself
  exact ⟨⟨_, hself, hcancelled, rfl⟩, hproducts2.trans hproducts,
    hrep.items.trans hitems⟩

theorem performs_rounds {before rest : List OrderItem}
    (ho : Cancellable db id o)
    (hitems : db.itemsOf id false = before ++ rest)
    (h : Performs db (closing o ++ restockChanges before) db') :
    Closed db' id ∧
      (forall p, db'.stock p = db.stock p + quantityOf before p) ∧
      acceptsAll db (restockChanges before) = true ∧
      forall item : OrderItem,
        db'.acceptsChange (.productStock item.productId item.quantity) =
          acceptsAll db (restockChanges (before ++ [item])) := by
  rcases performs_append h with ⟨mid, hclosing, hloop⟩
  rcases performs_closing ho hclosing with ⟨hclosed, hproducts, _⟩
  have hsame : SameStocks mid db := sameStocks_of_products hproducts.symm
  have hfound : forall i, i ∈ before ->
      (mid.products.find? i.productId).isSome = true := by
    intro i hi
    have hmem : i ∈ db.itemsOf id false := by
      rw [hitems]
      exact List.mem_append_left _ hi
    rw [hproducts]
    exact products_of_itemsOf i hmem
  rcases performs_restock hfound hloop with ⟨_, horders, _, hstock⟩
  refine ⟨?_, ?_, ?_, ?_⟩
  · rcases hclosed with ⟨r, hr, hrest⟩
    refine ⟨r, ?_, hrest⟩
    rw [horders]
    exact hr
  · intro p
    rw [hstock p, stock_congr hproducts]
  · exact acceptsAll_of_performs (isPlanned_restock before) hsame hloop
  · intro item
    have hplan : restockChanges (before ++ [item]) = restockChanges before ++
        [.productStock item.productId item.quantity] := List.map_append
    rw [acceptsAll_of_sameStocks (isPlanned_restock _) hsame]
    cases haccepts : db'.acceptsChange
        (.productStock item.productId item.quantity) with
    | true =>
        have hlonger := hloop.snoc haccepts 0
        rw [← hplan] at hlonger
        exact (acceptsAll_of_performs (isPlanned_restock _)
          (sameStocks_of_products rfl) hlonger).symm
    | false =>
        refine (not_acceptsAll_of_refused (isPlanned_restock _) ?_).symm
        exact ⟨restockChanges before, _, [], db', hplan, hloop, haccepts⟩

end Statements

/-!
# Several executions
-/

/-- The order is closed and every item has been given back once. -/
structure Restocked (id : Int) (w w' : World) : Prop where
  closed : Closed w'.db id
  stock : forall p, w'.db.stock p =
    w.db.stock p + quantityOf (w.db.itemsOf id false) p

/-- Where a round of the loop may fail, or is refused, there is nothing left to
give back: the quantities from that round on add up to nothing. -/
def RestockSafe (F : Cmd -> Prop) (db : Database) (id : Int) : Prop :=
  forall before item after,
    db.itemsOf id false = before ++ item :: after ->
    acceptsAll db (restockChanges before) = true ->
    (F (.update false (.productStock item.productId item.quantity)) ∨
      acceptsAll db (restockChanges (before ++ [item])) = false) ->
    forall p, quantityOf (item :: after) p = 0

structure Waiting (id : Int) (w x : World) : Prop where
  row : exists o, Cancellable x.db id o
  products : x.db.products = w.db.products
  items : x.db.items = w.db.items

section Attempts

variable {F : Cmd -> Prop} {id : Int} {w : World}

theorem Waiting.itemsOf {x : World} (h : Waiting id w x) :
    x.db.itemsOf id false = w.db.itemsOf id false := by
  unfold Database.itemsOf
  rw [h.items]

theorem waiting_again {x mid : World} {e : String}
    (hsafe : RestockSafe F w.db id)
    (h : Waiting id w x ∨ Restocked id w x)
    (hexec : ExecutesIn (failsOnly F) x (.cancelJob id) (.threw e) mid) :
    Waiting id w mid ∨ Restocked id w mid := by
  rcases h with hwait | hdone
  · cases cancelEnds_of_executes hexec with
    | untouched => exact Or.inl hwait
    | marked e ho hperforms _ =>
        rcases performs_cancelled ho hperforms with
          ⟨⟨r, hr, _⟩, hproducts, hitems⟩
        exact Or.inl ⟨⟨r, hr⟩, hproducts.trans hwait.products,
          hitems.trans hwait.items⟩
    | @stopped o _ before after item e ho hitems hperforms hstop =>
        rcases performs_rounds ho hitems hperforms with
          ⟨hclosed, hstock, haccepts, hround⟩
        have hsame : SameStocks w.db x.db :=
          sameStocks_of_products hwait.products
        rw [hwait.itemsOf] at hitems
        rw [acceptsAll_of_sameStocks (isPlanned_restock _) hsame] at haccepts
        have hstop' :
            F (.update false (.productStock item.productId item.quantity)) ∨
              acceptsAll w.db (restockChanges (before ++ [item])) = false := by
          rcases hstop with hmay | hrefused
          · exact Or.inl (mayFail_failsOnly hmay)
          · rw [hround item, acceptsAll_of_sameStocks (isPlanned_restock _)
              hsame] at hrefused
            exact Or.inr hrefused
        refine Or.inr ⟨hclosed, ?_⟩
        intro p
        rw [hstock p, stock_congr hwait.products, hitems, quantityOf_append,
          hsafe before item after hitems haccepts hstop' p, Int.add_zero]
  · have hgone := hdone.closed.not_cancellable
    cases cancelEnds_of_executes hexec with
    | untouched => exact Or.inr hdone
    | marked _ ho => exact absurd ho (hgone _)
    | stopped _ ho => exact absurd ho (hgone _)

theorem restocked_last {x w' : World}
    (h : Waiting id w x ∨ Restocked id w x)
    (hexec : ExecutesIn (failsOnly F) x (.cancelJob id) .returned w') :
    Restocked id w w' := by
  rcases h with hwait | hdone
  · cases cancelEnds_of_executes hexec with
    | idle hnone =>
        rcases hwait.row with ⟨o, ho⟩
        exact absurd ho (hnone o)
    | finished ho hperforms _ =>
        rcases performs_rounds ho (List.append_nil _).symm hperforms with
          ⟨hclosed, hstock, _⟩
        refine ⟨hclosed, ?_⟩
        intro p
        rw [hstock p, stock_congr hwait.products, hwait.itemsOf]
  · cases cancelEnds_of_executes hexec with
    | idle => exact hdone
    | finished ho => exact absurd ho (hdone.closed.not_cancellable _)

theorem runs_rounds {o : Order} {before rest : List OrderItem}
    (ho : Cancellable w.db id o)
    (hitems : w.db.itemsOf id false = before ++ rest)
    (haccepts : acceptsAll w.db (restockChanges before) = true) :
    exists o1 o2 w1 w2 w3,
      Action.Runs (NextIn (failsOnly F))
        (Order.saveStatus false o .cancelled) (w, none) (.ok o1) (w1, none) ∧
      Action.Runs (NextIn (failsOnly F)) (Order.destroy false o1) (w1, none)
        (.ok o2) (w2, none) ∧
      Action.Runs (NextIn (failsOnly F)) (before.forM (fun item =>
        Product.incrementStock false item.productId item.quantity))
        (w2, none) (.ok ()) (w3, none) ∧
      Performs w.db (closing o ++ restockChanges before) w3.db := by
  have hlive := (Database.order?_true_eq_some_iff.mp ho.left).right
  have hsave : Action.wp (direct allHealthy)
      (Order.saveStatus false o .cancelled)
      (fun o' s => o'.id = o.id ∧ o'.deletedAt = o.deletedAt ∧
        Wrote false (statusChange o .cancelled) (w, none) s)
      (fun _ _ => False) (w, none) :=
    direct_saveStatus rfl (fun _ _ hid hdel hwrote => ⟨hid, hdel, hwrote⟩)
      (fun hmay => absurd hmay not_mayFail_healthy)
  rcases exists_run_of_wp (F := F) hsave with
    ⟨o1, ⟨w1, tx1⟩, hrun1, hid1, hdel1, hwrote1⟩
  obtain rfl : tx1 = none := hwrote1.direct.left
  have hdestroy : Action.wp (direct allHealthy) (Order.destroy false o1)
      (fun _ s => Wrote false [.orderDeleted o1.id true] (w1, none) s)
      (fun _ _ => False) (w1, none) :=
    direct_destroy rfl (hdel1.trans hlive) (fun _ _ hwrote _ => hwrote)
      (fun hmay => absurd hmay not_mayFail_healthy)
  rcases exists_run_of_wp (F := F) hdestroy with
    ⟨o2, ⟨w2, tx2⟩, hrun2, hwrote2⟩
  obtain rfl : tx2 = none := hwrote2.direct.left
  rw [hid1] at hwrote2
  have hclosing : Wrote false (closing o) (w, none) (w2, none) :=
    hwrote1.trans hwrote2
  have hloop : Action.wp (direct allHealthy) (before.forM (fun item =>
      Product.incrementStock false item.productId item.quantity))
      (fun _ s =>
        Wrote false (closing o ++ restockChanges before) (w, none) s)
      (fun _ _ => False) (w2, none) := by
    refine direct_restock rfl (fun _ hwrote _ => hclosing.trans hwrote) ?_
    intro first item more s' e hsplit hwrote _ hstop
    rcases hstop with hmay | hrefused
    · exact absurd hmay not_mayFail_healthy
    · have hperforms := (hclosing.trans hwrote).direct.right
      rw [hsplit, List.append_assoc] at hitems
      rw [show (s'.1.view s'.2 false) = s'.1.db from rfl,
        (performs_rounds ho hitems hperforms).right.right.right item]
        at hrefused
      have hplan : restockChanges before =
          restockChanges (first ++ [item]) ++ restockChanges more := by
        unfold restockChanges
        rw [hsplit, ← List.map_append, List.append_assoc]
        rfl
      rw [hplan] at haccepts
      rw [acceptsAll_append haccepts] at hrefused
      cases hrefused
  rcases exists_run_of_wp (F := F) hloop with ⟨_, ⟨w3, tx3⟩, hrun3, hwrote3⟩
  obtain rfl : tx3 = none := hwrote3.direct.left
  exact ⟨o1, o2, w1, w2, w3, hrun1, hrun2, hrun3, hwrote3.direct.right⟩

theorem executes_stopped {o : Order} {before after : List OrderItem}
    {item : OrderItem} (ho : Cancellable w.db id o)
    (hitems : w.db.itemsOf id false = before ++ item :: after)
    (haccepts : acceptsAll w.db (restockChanges before) = true)
    (hstop :
      F (.update false (.productStock item.productId item.quantity)) ∨
        acceptsAll w.db (restockChanges (before ++ [item])) = false) :
    exists e w', ExecutesIn (failsOnly F) w (.cancelJob id) (.threw e) w' ∧
      Performs w.db (closing o ++ restockChanges before) w'.db := by
  have hlive := (Database.order?_true_eq_some_iff.mp ho.left).right
  rcases runs_rounds (F := F) ho hitems haccepts with
    ⟨o1, o2, w1, w2, w3, hrun1, hrun2, hrun3, hperforms⟩
  rw [← (performs_rounds ho hitems hperforms).right.right.right item] at hstop
  rcases runs_update_error hstop with ⟨e, hrun4⟩
  have hround : Action.Runs (NextIn (failsOnly F))
      (Product.incrementStock false item.productId item.quantity) (w3, none)
      (.error e) (w3, none) := runs_bind_error hrun4
  have hquery : Action.Runs (NextIn (failsOnly F))
      (query false (.orderByPk id true { items := some false })) (w, none)
      (.ok ((w.db.order? id true).map (w.db.graph { items := some false })))
      (w, none) :=
    .call ⟨{}, (fun hfault => by cases hfault), rfl⟩ (.ret _ _)
  have hproc : Action.Runs (NextIn (failsOnly F)) (cancelProcessor id)
      (w, none) (.error e) (w3, none) := by
    refine runs_bind_ok hquery ?_
    rw [ho.left]
    dsimp only [Option.map_some]
    rw [Database.graph_order,
      if_neg (by rw [hlive]; exact Bool.false_ne_true), if_neg ho.right,
      Database.map_item_graph w.db rfl, ho.id_eq, hitems]
    exact runs_bind_ok hrun1 (runs_bind_ok hrun2
      (runs_forM_error hrun3 hround))
  exact ⟨e, w3, ⟨none, Prog.runs_bind hproc (.ret _ _)⟩, hperforms⟩

theorem executes_closed {x : World} (hclosed : Closed x.db id) :
    exists w', ExecutesIn (failsOnly F) x (.cancelJob id) .returned w' ∧
      w' = x := by
  rcases executesIn_failsAt (F := F) (G := fun _ => False)
    (fun _ h => h.elim) (.cancelJob id) x with ⟨out, w', hat, honly⟩
  have hend : out = .returned ∧ w' = x := by
    cases cancelEnds_of_executes hat with
    | idle => exact ⟨rfl, rfl⟩
    | untouched _ hmay => exact (mayFail_failsAt hmay).elim
    | marked _ ho => exact absurd ho (hclosed.not_cancellable _)
    | stopped _ ho => exact absurd ho (hclosed.not_cancellable _)
    | finished ho => exact absurd ho (hclosed.not_cancellable _)
  rcases hend with ⟨rfl, rfl⟩
  exact ⟨w', honly, rfl⟩

end Attempts

/-- Retrying a cancellation gives every item back once, exactly when no round
of the loop that matters can fail. -/
theorem cancelProcessor_retry_iff {w : World} {id : Int} {o : Order}
    (F : Cmd -> Prop) (hfound : w.db.order? id true = some o)
    (hopen : o.status ≠ .delivered) :
    (forall w', Completed (failsOnly F) (.cancelJob id) attempts w w' ->
      Restocked id w w') <-> RestockSafe F w.db id := by
  have ho : Cancellable w.db id o := ⟨hfound, hopen⟩
  constructor
  · intro hall before item after hitems haccepts hstop p
    rcases executes_stopped ho hitems haccepts hstop with
      ⟨e, mid, hfirst, hperforms⟩
    rcases performs_rounds ho hitems hperforms with ⟨hclosed, hstock, _⟩
    rcases executes_closed (F := F) hclosed with ⟨w', hsecond, rfl⟩
    have hend := (hall w' (.again hfirst (.first hsecond))).stock p
    rw [hstock p, hitems, quantityOf_append] at hend
    omega
  · intro hsafe w' hcompleted
    exact completed_induction (J := fun x => Waiting id w x ∨ Restocked id w x)
      (Q := Restocked id w) (waiting_again hsafe) restocked_last
      (Or.inl ⟨⟨o, ho⟩, rfl, rfl⟩) hcompleted

/-- The statement that gives two pens back. -/
def returnsPens : Cmd -> Bool
  | .update _ change => decide (change = .productStock 1 2)
  | _ => false

/-- The first execution deletes the order and fails at the stock; the second
does not find the order and returns.  The pens are lost. -/
theorem retried_cancellation_loses_pens :
    let task : Task := .cancelJob 1
    let mid := (attempt returnsPens task shopWithOrder).2
    let final := (attempt (fun _ => false) task mid).2
    Completed (failsOnly (fun c => returnsPens c = true)) task attempts
        shopWithOrder final ∧
      (final.db.orders.find? 1).map Order.status = some .cancelled ∧
      quantityOf (shopWithOrder.db.itemsOf 1 false) 1 = 2 ∧
      final.db.stock 1 = shopWithOrder.db.stock 1 := by
  intro task mid final
  have hcompleted : Completed (failsOnly (fun c => returnsPens c = true)) task
      attempts shopWithOrder final := by
    apply completed_twice
    · exact fun _ h => h
    · decide +kernel
    · decide +kernel
  refine ⟨hcompleted, ?_, ?_, ?_⟩
  · decide +kernel
  · decide +kernel
  · decide +kernel

theorem restockSafe_of_accepts {F : Cmd -> Prop} {db : Database} {id : Int}
    (hF : forall productId quantity,
      ¬ F (.update false (.productStock productId quantity)))
    (haccepts : acceptsAll db (restockChanges (db.itemsOf id false)) = true) :
    RestockSafe F db id := by
  intro before item after hitems _ hstop
  rcases hstop with hmay | hrefused
  · exact absurd hmay (hF _ _)
  · have hplan : restockChanges (db.itemsOf id false) =
        restockChanges (before ++ [item]) ++ restockChanges after := by
      unfold restockChanges
      rw [hitems, ← List.map_append, List.append_assoc]
      rfl
    rw [hplan] at haccepts
    rw [acceptsAll_append haccepts] at hrefused
    cases hrefused

/-- The statement that deletes the first order. -/
def deletesFirst : Cmd -> Bool
  | .update _ change => decide (change = .orderDeleted 1 true)
  | _ => false

/-- An execution that fails before the order is deleted can be repeated. -/
theorem retried_deletion_returns_pens :
    let task : Task := .cancelJob 1
    let mid := (attempt deletesFirst task shopWithOrder).2
    let final := (attempt (fun _ => false) task mid).2
    RestockSafe (fun c => deletesFirst c = true) shopWithOrder.db 1 ∧
      Restocked 1 shopWithOrder final := by
  intro task mid final
  have hsafe : RestockSafe (fun c => deletesFirst c = true)
      shopWithOrder.db 1 := by
    refine restockSafe_of_accepts ?_ (by decide +kernel)
    intro productId quantity hF
    cases hF
  have hcompleted : Completed (failsOnly (fun c => deletesFirst c = true)) task
      attempts shopWithOrder final := by
    apply completed_twice
    · exact fun _ h => h
    · decide +kernel
    · decide +kernel
  have hfound : shopWithOrder.db.order? 1 true =
      some ⟨1, 1, 500, .pending, 0, 0, none⟩ := by decide +kernel
  exact ⟨hsafe, (cancelProcessor_retry_iff _ hfound (by decide)).mpr hsafe _
    hcompleted⟩

end Jobs
end ExpressEcommerce
