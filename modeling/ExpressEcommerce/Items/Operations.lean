import ExpressEcommerce.Service.Symbolic

/-!
# Operations on order items

The model operations `create`, `update`, `destroy` and `restore` of an order
item, each as one statement on the item followed, where a hook is registered,
by the recomputation of one order.  An instance may have been read at any time
before, so its columns need not be those of the row.
-/

namespace ExpressEcommerce
namespace Items

open Foundation
open Store
open Service
open Foundation.Action

inductive ItemOp where
  | create (orderId productId quantity unitPrice : Int)
  | update (item : OrderItem) (patch : ItemPatch)
  | destroy (item : OrderItem)
  | restore (item : OrderItem)
  deriving DecidableEq, Repr

def ItemOp.code : ItemOp -> Act OrderItem
  | create orderId productId quantity unitPrice =>
      OrderItem.create false orderId productId quantity unitPrice
  | update item patch => OrderItem.update false item patch
  | destroy item => OrderItem.destroy false item
  | restore item => OrderItem.restore false item

/-!
# Amounts
-/

def amountIn (orderId : Int) (i : OrderItem) : Int :=
  if i.orderId = orderId ∧ i.deletedAt = none then i.quantity * i.unitPrice
  else 0

def lines (db : Database) (orderId : Int) : Int :=
  db.items.sum (amountIn orderId)

theorem lineSum_itemsOf (db : Database) (orderId : Int) :
    lineSum (db.itemsOf orderId true) = lines db orderId := by
  unfold lineSum lines Database.itemsOf Table.sum
  generalize db.items.rows = rows
  induction rows with
  | nil => rfl
  | cons i rest ih =>
      rw [List.map_cons, List.sum_cons, ← ih, List.filter_cons]
      unfold amountIn
      by_cases ho : i.orderId = orderId <;> cases hd : i.deletedAt <;>
        simp [ho]

def total? (db : Database) (id : Int) : Option Int :=
  (db.order? id true).map Order.totalPrice

/-- What an operation adds to the lines of an order: the amount of the row as
it is written, less the amount of the row as it was. -/
def ItemOp.gain (db : Database) (orderId : Int) : ItemOp -> Int
  | create target productId quantity unitPrice =>
      if db.accepts (.insertItem
          ⟨db.items.seq, target, productId, quantity, unitPrice, 0, 0, none⟩)
      then (if target = orderId then quantity * unitPrice else 0)
      else 0
  | update item patch =>
      let change := OrderItem.changed item patch
      if db.acceptsChange (.itemFields item.id change) then
        (db.items.find? item.id).elim 0 (fun r =>
          amountIn orderId (r.patch change) - amountIn orderId r)
      else 0
  | destroy item =>
      if item.deletedAt.isNone then
        (db.items.find? item.id).elim 0 (fun r => -amountIn orderId r)
      else 0
  | restore item =>
      if item.deletedAt.isSome then
        (db.items.find? item.id).elim 0 (fun r =>
          amountIn orderId { r with deletedAt := none } - amountIn orderId r)
      else 0

/-- The order that the hook of an operation recomputes. -/
def ItemOp.recounts : ItemOp -> Option Int
  | create orderId _ _ _ => some orderId
  | update item patch =>
      if OrderItem.changed item patch = {} then none
      else some (item.patch patch).orderId
  | destroy item => some item.orderId
  | restore _ => none

/-!
# The statements
-/

structure Written (db db' : Database) (gain : Int -> Int) : Prop where
  orders : db'.orders = db.orders
  lines : forall id, lines db' id = lines db id + gain id

theorem total?_congr {db db' : Database} (h : db'.orders = db.orders)
    (id : Int) : total? db' id = total? db id := by
  unfold total? Database.order?
  rw [h]

theorem written_insert (db : Database) {row : OrderItem} {gain : Int -> Int}
    (hid : row.id = db.items.seq) (hlive : row.deletedAt = none)
    (haccepts : (db.reserve .items).accepts (.insertItem row) = true)
    (hgain : forall id, gain id =
      if row.orderId = id then row.quantity * row.unitPrice else 0) :
    Written db ((db.reserve .items).write (.insertItem row)) gain := by
  unfold Database.accepts at haccepts
  simp only [Bool.and_eq_true] at haccepts
  rcases haccepts with ⟨⟨⟨horder, hproduct⟩, _⟩, _⟩
  have hwrite : (db.reserve .items).write (.insertItem row) =
      (db.reserve .items).withItems (db.items.reserve.insert row) _ _ :=
    dif_pos ⟨horder, hproduct⟩
  rw [hwrite]
  constructor
  · rfl
  · intro id
    have hlt : Keyed.key row < db.items.reserve.seq := by
      rw [key_orderItem, hid, Table.reserve_seq]
      omega
    have hfresh : db.items.reserve.find? (Keyed.key row) = none := by
      rw [key_orderItem, hid, Table.reserve_find?]
      exact Table.find?_seq db.items
    show (db.items.reserve.insert row).sum (amountIn id) = _
    rw [Table.sum_insert_of_fresh hlt hfresh, Table.reserve_sum, hgain]
    show lines db id + _ = lines db id + _
    unfold amountIn
    simp [hlive]

theorem written_itemFields (db : Database) (id : Int) (patch : ItemPatch)
    (now : Nat)
    (haccepts : db.acceptsChange (.itemFields id patch) = true) :
    Written db (db.update (.itemFields id patch) now) (fun orderId =>
      (db.items.find? id).elim 0 (fun r =>
        amountIn orderId (r.patch patch) - amountIn orderId r)) := by
  unfold Database.acceptsChange at haccepts
  simp only [Bool.and_eq_true] at haccepts
  have hupdate : db.update (.itemFields id patch) now =
      db.alterItem id (fun i => { i.patch patch with updatedAt := now })
        (fun _ => rfl) _ (fun _ => rfl) :=
    dif_pos haccepts.left.left
  rw [hupdate]
  constructor
  · rfl
  · intro orderId
    refine Table.sum_modify _ _ _ ?_ _
    exact fun _ => rfl

theorem written_itemDeleted (db : Database) (id : Int) (deleted : Bool)
    (now : Nat) :
    Written db (db.update (.itemDeleted id deleted) now) (fun orderId =>
      (db.items.find? id).elim 0 (fun r =>
        amountIn orderId { r with deletedAt := stamp deleted now } -
          amountIn orderId r)) := by
  constructor
  · rfl
  · intro orderId
    refine Table.sum_modify _ _ _ ?_ _
    exact fun _ => rfl

/-!
# The hook
-/

/-- The totals after the recomputation of one order. -/
structure Recounted (db : Database) (orderId : Int) (db' : Database) :
    Prop where
  lines : forall id, lines db' id = lines db id
  fits : (total? db orderId).isSome = true ->
    Database.fitsDecimal (Items.lines db orderId) = true
  total? : forall id, total? db' id =
    if id = orderId then
      (Items.total? db id).map (fun _ => Items.lines db id)
    else Items.total? db id

theorem recounted_absent {db : Database} {orderId : Int}
    (h : db.order? orderId true = none) : Recounted db orderId db := by
  have hnone : total? db orderId = none := by
    unfold total?
    rw [h]
    rfl
  constructor
  · intro id
    rfl
  · rw [hnone]
    intro hsome
    cases hsome
  · intro id
    split
    · rename_i hid
      rw [hid, hnone]
      rfl
    · rfl

theorem recounted_orderTotal {db : Database} {orderId : Int} {o : Order}
    (ho : db.order? orderId true = some o) (now : Nat)
    (hfits : Database.fitsDecimal (lines db orderId) = true) :
    Recounted db orderId
      (db.update (.orderTotal o.id (lines db orderId)) now) := by
  rcases Database.order?_true_eq_some_iff.mp ho with ⟨hrow, hlive⟩
  have hkey : o.id = orderId := (Table.find?_eq_some_iff.mp hrow).right
  rw [hkey]
  constructor
  · intro id
    rfl
  · exact fun _ => hfits
  · intro id
    unfold total? Database.order?
    rw [Database.find?_update_orderTotal]
    split
    · rename_i hid
      rw [hid, hrow]
      simp [Option.filter, hlive]
    · rfl

section Rules

variable {w : World} {E : String -> World × Tx -> Prop}

theorem direct_recalculate {item : OrderItem} {Q : Unit -> World × Tx -> Prop}
    (hok : forall w', Recounted w.db item.orderId w'.db -> Q () (w', none))
    (hrefused : (total? w.db item.orderId).isSome = true ->
      Database.fitsDecimal (lines w.db item.orderId) = false ->
      forall e, E e (w, none)) :
    Action.wp (direct allHealthy) (OrderItem.recalculate item) Q E
      (w, none) := by
  unfold OrderItem.recalculate
  refine (wp_bind _ _ _).mpr (direct_query rfl (fun _ => ?_)
    (fun h => absurd h not_mayFail_healthy))
  have hanswer : Query.eval (w.view none false)
      (.orderByPk item.orderId true { items := some true }) =
        (w.db.order? item.orderId true).map
          (w.db.graph { items := some true }) := rfl
  rw [hanswer]
  cases ho : w.db.order? item.orderId true with
  | none => exact hok w (recounted_absent ho)
  | some o =>
      have hid : o.id = item.orderId :=
        (Table.find?_eq_some_iff.mp
          (Database.order?_true_eq_some_iff.mp ho).left).right
      dsimp only [Option.map_some]
      rw [Database.graph_order, Database.map_item_graph _ rfl, hid,
        lineSum_itemsOf]
      unfold Order.saveTotal
      refine (wp_bind _ _ _).mpr ((wp_bind _ _ _).mpr (direct_update ?_ ?_
        (fun h => absurd h not_mayFail_healthy)))
      · intro now _ hfits
        refine (wp_bind _ _ _).mpr (direct_invalidateOrderCache ?_)
        intro cache _
        refine (wp_pure _ _).mpr (direct_invalidateOrderCache ?_)
        intro cache' _
        exact hok _ (recounted_orderTotal ho now hfits)
      · intro hno e
        refine hrefused ?_ hno e
        unfold total?
        rw [ho]
        rfl

end Rules

/-!
# The operations
-/

/-- What an operation does: it moves the lines, and it brings the total of the
order it recomputes in line with them unless the column cannot hold it. -/
structure Done (op : ItemOp) (db db' : Database) : Prop where
  lines : forall id, lines db' id = lines db id + op.gain db id
  others : forall id, op.recounts ≠ some id -> total? db' id = total? db id
  counted : forall id, op.recounts = some id ->
    (forall j, op.gain db j = 0) ∧ total? db' id = total? db id ∨
      total? db' id =
        if Database.fitsDecimal (Items.lines db' id) then
          (total? db id).map (fun _ => Items.lines db' id)
        else total? db id

theorem done_of_same {op : ItemOp} {db db' : Database}
    (hgain : forall id, op.gain db id = 0) (horders : db'.orders = db.orders)
    (hitems : db'.items.rows = db.items.rows) : Done op db db' := by
  constructor
  · intro id
    rw [hgain, Int.add_zero]
    unfold lines Table.sum
    rw [hitems]
  · intro id _
    exact total?_congr horders id
  · intro id _
    exact Or.inl ⟨hgain, total?_congr horders id⟩

theorem done_of_written {op : ItemOp} {db db' : Database}
    (hwritten : Written db db' (fun id => op.gain db id))
    (hrecounts : op.recounts = none) : Done op db db' := by
  constructor
  · exact hwritten.lines
  · intro id _
    exact total?_congr hwritten.orders id
  · intro id hid
    rw [hrecounts] at hid
    cases hid

theorem done_of_refused {op : ItemOp} {db db' : Database} {orderId : Int}
    (hwritten : Written db db' (fun id => op.gain db id))
    (hrecounts : op.recounts = some orderId)
    (hfits : Database.fitsDecimal (lines db' orderId) = false) :
    Done op db db' := by
  constructor
  · exact hwritten.lines
  · intro id _
    exact total?_congr hwritten.orders id
  · intro id hid
    rw [hrecounts] at hid
    cases hid
    rw [hfits]
    exact Or.inr (total?_congr hwritten.orders orderId)

theorem done_of_recounted {op : ItemOp} {db mid db' : Database}
    {orderId : Int} (hwritten : Written db mid (fun id => op.gain db id))
    (hrecounts : op.recounts = some orderId)
    (hcounted : Recounted mid orderId db') : Done op db db' := by
  constructor
  · intro id
    rw [hcounted.lines]
    exact hwritten.lines id
  · intro id hid
    have hne : id ≠ orderId := by
      intro h
      rw [h] at hid
      exact hid hrecounts
    rw [hcounted.total?, if_neg hne]
    exact total?_congr hwritten.orders id
  · intro id hid
    rw [hrecounts] at hid
    cases hid
    right
    rw [hcounted.total?, if_pos rfl, hcounted.lines,
      total?_congr hwritten.orders]
    split
    · rfl
    · -- a total that does not fit is not written, so there is no live order
      rename_i hno
      have hnone : total? db orderId = none := by
        rw [← total?_congr hwritten.orders]
        cases h : total? mid orderId with
        | none => rfl
        | some t =>
            refine absurd (hcounted.fits ?_) hno
            rw [h]
            rfl
      rw [hnone]
      rfl

theorem direct_hook {op : ItemOp} {db : Database} {w : World}
    {item : OrderItem}
    (hwritten : Written db w.db (fun id => op.gain db id))
    (hrecounts : op.recounts = some item.orderId) :
    Action.wp (direct allHealthy) (OrderItem.recalculate item)
      (fun _ s => Done op db s.1.db) (fun _ s => Done op db s.1.db)
      (w, none) := by
  refine direct_recalculate ?_ ?_
  · intro w' hcounted
    exact done_of_recounted hwritten hrecounts hcounted
  · intro _ hfits e
    exact done_of_refused hwritten hrecounts hfits

theorem done_create (w : World) (orderId productId quantity unitPrice : Int) :
    let op := ItemOp.create orderId productId quantity unitPrice
    Action.wp (direct allHealthy) op.code (fun _ s => Done op w.db s.1.db)
      (fun _ s => Done op w.db s.1.db) (w, none) := by
  intro op
  refine (wp_bind _ _ _).mpr (direct_insert ?_ ?_
    (fun h => absurd h not_mayFail_healthy))
  · intro now _ haccepts
    refine (wp_bind _ _ _).mpr (direct_hook ?_ rfl)
    refine written_insert w.db rfl rfl haccepts ?_
    intro id
    exact if_pos haccepts
  · intro now hno e
    refine done_of_same ?_ rfl rfl
    intro id
    refine if_neg ?_
    rw [Bool.not_eq_true]
    exact hno

theorem gain_unchanged {db : Database} {item : OrderItem} {patch : ItemPatch}
    (h : OrderItem.changed item patch = {}) (id : Int) :
    (ItemOp.update item patch).gain db id = 0 := by
  dsimp only [ItemOp.gain]
  rw [h]
  split
  · cases db.items.find? item.id with
    | none => rfl
    | some r => exact Int.sub_self _
  · rfl

theorem done_update (w : World) (item : OrderItem) (patch : ItemPatch) :
    let op := ItemOp.update item patch
    Action.wp (direct allHealthy) op.code (fun _ s => Done op w.db s.1.db)
      (fun _ s => Done op w.db s.1.db) (w, none) := by
  intro op
  show Action.wp _ (OrderItem.update false item patch) _ _ _
  unfold OrderItem.update
  split
  · rename_i hsame
    exact done_of_same (gain_unchanged hsame) rfl rfl
  · rename_i hdiff
    have hrecounts : op.recounts = some (item.patch patch).orderId :=
      if_neg hdiff
    refine (wp_bind _ _ _).mpr (direct_update ?_ ?_
      (fun h => absurd h not_mayFail_healthy))
    · intro now _ haccepts
      refine (wp_bind _ _ _).mpr (direct_hook ?_ hrecounts)
      have hwritten := written_itemFields w.db item.id _ now haccepts
      constructor
      · exact hwritten.orders
      · intro id
        rw [show op.gain w.db id = _ from if_pos haccepts]
        exact hwritten.lines id
    · intro hno e
      refine done_of_same ?_ rfl rfl
      intro id
      refine if_neg ?_
      rw [Bool.not_eq_true]
      exact hno

theorem done_destroy (w : World) (item : OrderItem) :
    let op := ItemOp.destroy item
    Action.wp (direct allHealthy) op.code (fun _ s => Done op w.db s.1.db)
      (fun _ s => Done op w.db s.1.db) (w, none) := by
  intro op
  show Action.wp _ (OrderItem.destroy false item) _ _ _
  unfold OrderItem.destroy
  split
  · rename_i hlive
    refine (wp_bind _ _ _).mpr (direct_update ?_ ?_
      (fun h => absurd h not_mayFail_healthy))
    · intro now _ _
      refine (wp_bind _ _ _).mpr ((wp_pure _ _).mpr ?_)
      refine (wp_bind _ _ _).mpr (direct_hook ?_ rfl)
      have hwritten := written_itemDeleted w.db item.id true now
      constructor
      · exact hwritten.orders
      · intro id
        rw [show op.gain w.db id = _ from if_pos hlive]
        refine (hwritten.lines id).trans ?_
        cases w.db.items.find? item.id with
        | none => rfl
        | some r =>
            show _ + _ = _ + _
            simp [amountIn]
    · intro hno e
      cases hno
  · rename_i hdeleted
    have hgain : forall id, op.gain w.db id = 0 := fun id => if_neg hdeleted
    refine (wp_bind _ _ _).mpr ((wp_pure _ _).mpr ?_)
    refine (wp_bind _ _ _).mpr (direct_hook ?_ rfl)
    constructor
    · rfl
    · intro id
      rw [hgain, Int.add_zero]

theorem done_restore (w : World) (item : OrderItem) :
    let op := ItemOp.restore item
    Action.wp (direct allHealthy) op.code (fun _ s => Done op w.db s.1.db)
      (fun _ s => Done op w.db s.1.db) (w, none) := by
  intro op
  show Action.wp _ (OrderItem.restore false item) _ _ _
  unfold OrderItem.restore
  split
  · rename_i hdeleted
    refine (wp_bind _ _ _).mpr (direct_update ?_ ?_
      (fun h => absurd h not_mayFail_healthy))
    · intro now _ _
      have hwritten := written_itemDeleted w.db item.id false now
      refine done_of_written ?_ rfl
      constructor
      · exact hwritten.orders
      · intro id
        rw [show op.gain w.db id = _ from if_pos hdeleted]
        exact hwritten.lines id
    · intro hno e
      cases hno
  · rename_i hlive
    exact done_of_same (fun id => if_neg hlive) rfl rfl

/-- One operation that runs alone and without failures. -/
def ItemStep (w : World) (op : ItemOp) (w' : World) : Prop :=
  exists result tx,
    Prog.Runs (Next Healthy) op.code (w, none) result (w', tx)

theorem done_of_step {w w' : World} {op : ItemOp} (h : ItemStep w op w') :
    Done op w.db w'.db := by
  rcases h with ⟨result, tx, hrun⟩
  have hwp : Action.wp (direct allHealthy) op.code
      (fun _ s => Done op w.db s.1.db) (fun _ s => Done op w.db s.1.db)
      (w, none) := by
    cases op with
    | create orderId productId quantity unitPrice =>
        exact done_create w orderId productId quantity unitPrice
    | update item patch => exact done_update w item patch
    | destroy item => exact done_destroy w item
    | restore item => exact done_restore w item
  have hend := holds_of_wp hwp hrun
  cases result with
  | ok item => exact hend
  | error e => exact hend

end Items
end ExpressEcommerce
