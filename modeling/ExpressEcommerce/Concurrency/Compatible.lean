import ExpressEcommerce.Concurrency.Committed
import ExpressEcommerce.Concurrency.Serializable

/-!
# Which tasks can run side by side

Two tasks that both find something to do may disturb each other: each of them
acts on what it has read, although the other one has changed the order in the
meantime.  This module follows the status of the order, whether it is deleted,
and how often its quantities were given back, and states which pairs of tasks
are serializable.
-/

namespace ExpressEcommerce
namespace Concurrency

open Foundation
open Store
open Service
open Orders
open Runs
open Jobs

/-!
# Shapes of a store
-/

/-- What two tasks change of a store: the status of the order, whether it is
deleted, and how often its quantities have been given back to the stock. -/
structure Shape where
  status : Status
  deleted : Bool
  times : Int
  deriving DecidableEq, Repr

/-- The statements of a move that was decided for an order with the status
`before`. -/
def Shape.apply (shape : Shape) (before : Status) (m : Move) : Shape where
  status := if before = m.status then shape.status else m.status
  deleted := m.deleted shape.deleted
  times := shape.times + m.direction

/-- The store has the shape, seen from the store at the start. -/
structure At (start : Database) (o : Order) (shape : Shape) (db : Database) :
    Prop where
  customers : db.customers = start.customers
  items : db.items = start.items
  row : exists now deletedAt, deletedAt.isSome = shape.deleted ∧
    db.orders.find? o.id = some { o with
      status := shape.status
      deletedAt := deletedAt
      updatedAt := now }
  stock : forall p, db.stock p =
    start.stock p + shape.times * quantityOf (start.itemsOf o.id true) p

def startShape (o : Order) : Shape :=
  ⟨o.status, o.deletedAt.isSome, 0⟩

section Shapes

variable {start : Database} {o : Order} {shape shape' : Shape}
  {base db db' : Database}

theorem at_start (h : start.orders.find? o.id = some o) :
    At start o (startShape o) start := by
  refine ⟨rfl, rfl, ⟨o.updatedAt, o.deletedAt, rfl, h⟩, fun p => ?_⟩
  show _ = _ + 0 * _
  rw [Int.zero_mul, Int.add_zero]

def SameShape (items : List OrderItem) (shape shape' : Shape) : Prop :=
  shape'.status = shape.status ∧ shape'.deleted = shape.deleted ∧
    forall p, shape'.times * quantityOf items p =
      shape.times * quantityOf items p

theorem SameShape.refl (items : List OrderItem) (shape : Shape) :
    SameShape items shape shape :=
  ⟨rfl, rfl, fun _ => rfl⟩

theorem sameResult_iff_of_at (h : At start o shape db)
    (h' : At start o shape' db') :
    SameResult o.id db db' <->
      SameShape (start.itemsOf o.id true) shape shape' := by
  rcases h.row with ⟨now, deletedAt, hdeleted, hrow⟩
  rcases h'.row with ⟨now', deletedAt', hdeleted', hrow'⟩
  constructor
  · rintro ⟨horder, hstock⟩
    rw [hrow, hrow'] at horder
    have horder := Option.some.inj horder
    refine ⟨congrArg Order.status horder, ?_, fun p => ?_⟩
    · have hstamp := congrArg (fun r => r.deletedAt.isSome) horder
      dsimp only [stripped] at hstamp
      rw [Option.isSome_map, Option.isSome_map, hdeleted, hdeleted'] at hstamp
      exact hstamp
    · have hp := hstock p
      rw [h.stock p, h'.stock p] at hp
      omega
  · rintro ⟨hstatus, hsame, htimes⟩
    refine ⟨?_, fun p => ?_⟩
    · rw [hrow, hrow', hstatus]
      refine congrArg some (stripped_eq ?_)
      rw [hdeleted, hdeleted', hsame]
    · rw [h.stock p, h'.stock p, htimes p]

end Shapes

/-!
# Tasks in a shape
-/

section Tasks

variable {start : Database} {o : Order} {shape shape' : Shape}
  {base db : Database} {t : OrderTask} {m : Move}

theorem plan_at (hatomic : isAtomic t = true)
    (hmove : t.move start = some (o, m)) (h : At start o shape db) :
    (t.allows m shape.status shape.deleted = false -> t.plan db = []) ∧
      (t.allows m shape.status shape.deleted = true ->
        exists r, r.id = o.id ∧ r.status = shape.status ∧
          t.plan db = m.changes db r) := by
  rcases h.row with ⟨now, deletedAt, hdeleted, hrow⟩
  have hplan := plan_again hatomic hmove h.customers hrow rfl
  dsimp only at hplan
  rw [hdeleted] at hplan
  constructor
  · intro hno
    rw [hplan, hno]
    rfl
  · intro hyes
    rw [hyes] at hplan
    refine ⟨{ o with status := shape.status, deletedAt, updatedAt := now },
      rfl, rfl, hplan⟩

theorem act_at_idle (hatomic : isAtomic t = true)
    (hmove : t.move start = some (o, m)) (h : At start o shape base)
    (hno : t.allows m shape.status shape.deleted = false) (db : Database) :
    act t base db = db :=
  act_of_idle ((plan_at hatomic hmove h).left hno) db

theorem at_act (hatomic : isAtomic t = true)
    (hmove : t.move start = some (o, m)) (hbase : At start o shape' base)
    (h : At start o shape db)
    (hyes : t.allows m shape'.status shape'.deleted = true)
    (haccepts : acceptsAll db (t.plan base) = true) :
    At start o (shape.apply shape'.status m) (act t base db) := by
  rcases (plan_at hatomic hmove hbase).right hyes with
    ⟨r', hid, hstatus, hplan⟩
  rcases h.row with ⟨now, deletedAt, hdeleted, hrow⟩
  have hact : act t base db = performAll db (t.plan base) := by
    unfold act
    rw [haccepts]
    rfl
  have hperforms := performs_performAll haccepts
  rw [← hact, hplan] at hperforms
  have hproducts : forall i, i ∈ base.items.rows ->
      (db.products.find? i.productId).isSome = true := by
    intro i hi
    refine db.itemProduct i ?_
    rw [h.items, ← hbase.items]
    exact hi
  have hfound : db.orders.find? r'.id = some { o with
      status := shape.status, deletedAt := deletedAt, updatedAt := now } := by
    rw [hid]
    exact hrow
  rcases applied_of_changes hfound hproducts hperforms with
    ⟨⟨now', deletedAt', hdeleted', hreplaced⟩, hstock⟩
  refine ⟨hreplaced.customers.trans h.customers,
    hreplaced.items.trans h.items, ⟨now', deletedAt', ?_, ?_⟩, fun p => ?_⟩
  · rw [hdeleted']
    exact congrArg m.deleted hdeleted
  · rw [hreplaced.find?, if_pos rfl, hstatus]
    rfl
  · have hitems : base.itemsOf r'.id true = start.itemsOf o.id true := by
      unfold Database.itemsOf
      rw [hid, hbase.items]
    rw [hstock p, h.stock p, hitems]
    show _ = _ + (shape.times + m.direction) * _
    rw [Int.add_mul, Int.add_assoc]

theorem acceptsAll_plan_at (hatomic : isAtomic t = true)
    (hmove : t.move start = some (o, m)) (h : At start o shape base)
    (hyes : t.allows m shape.status shape.deleted = true) (db : Database) :
    acceptsAll db (t.plan base) =
      acceptsAll db (m.stockChanges (start.itemsOf o.id true)) := by
  rcases (plan_at hatomic hmove h).right hyes with ⟨r, hid, _, hplan⟩
  have hitems : base.itemsOf r.id true = start.itemsOf o.id true := by
    unfold Database.itemsOf
    rw [hid, h.items]
  rw [hplan, acceptsAll_changes, hitems]

theorem plan_ne_nil_of_move (hmove : t.move start = some (o, m)) :
    t.plan start ≠ [] := by
  have hdecided := decided_move t start
  rw [hmove] at hdecided
  generalize t.plan start = us at hdecided
  cases hdecided.right with
  | set | cancel | cancelJob | reopen => simp

theorem allows_of_move (hatomic : isAtomic t = true)
    (hmove : t.move start = some (o, m)) :
    t.allows m (startShape o).status (startShape o).deleted = true := by
  have hat := at_start (guard_of_move hmove).left
  by_contra hno
  exact plan_ne_nil_of_move hmove
    ((plan_at hatomic hmove hat).left (Bool.eq_false_iff.mpr hno))

end Tasks

/-!
# The four stores
-/

/-- The order after a move that starts from the order as it was read. -/
def moveShape (m : Move) : Shape :=
  ⟨m.status, m.deleted false, m.direction⟩

/-- The order after two moves, the second of them stale. -/
def staleShape (o : Order) (m m' : Move) : Shape :=
  (moveShape m).apply o.status m'

def serialShape (b : OrderTask) (m m' : Move) : Shape :=
  if b.allows m' (moveShape m).status (moveShape m).deleted
  then (moveShape m).apply m.status m' else moveShape m

section Stores

variable {db : Database} {o : Order} {a b : OrderTask} {m m' : Move}

theorem at_first (ha : isAtomic a = true)
    (hA : a.effective db = some (o, m)) :
    At db o (moveShape m) (act a db db) := by
  rcases move_of_effective hA with ⟨haccepts, hmove⟩
  rcases guard_of_move hmove with ⟨hfound, hguard⟩
  have hat := at_start hfound
  have hacted := at_act ha hmove hat hat (allows_of_move ha hmove) haccepts
  have hshape : (startShape o).apply (startShape o).status m =
      moveShape m := by
    unfold Shape.apply startShape moveShape
    have hstatus : (if o.status = m.status then o.status else m.status) =
        m.status := by
      split
      · assumption
      · rfl
    have hdeleted : m.deleted o.deletedAt.isSome = m.deleted false := by
      cases m with
      | set =>
          rw [hguard.left]
          rfl
      | cancel | reopen => rfl
    dsimp only
    rw [hstatus, hdeleted, Int.zero_add]
  rw [hshape] at hacted
  exact hacted

theorem at_stale (ha : isAtomic a = true) (hb : isAtomic b = true)
    (hA : a.effective db = some (o, m)) (hmove : b.move db = some (o, m'))
    (haccepts : acceptsAll (act a db db) (b.plan db) = true) :
    At db o (staleShape o m m') (stale a b db) := by
  have hat := at_start (guard_of_move hmove).left
  exact at_act hb hmove hat (at_first ha hA) (allows_of_move hb hmove) haccepts

theorem at_serial (ha : isAtomic a = true) (hb : isAtomic b = true)
    (hA : a.effective db = some (o, m)) (hmove : b.move db = some (o, m'))
    (haccepts : acceptsAll (act a db db) (b.plan db) = true) :
    At db o (serialShape b m m') (serial a b db) := by
  have hfirst := at_first ha hA
  have hstart := at_start (guard_of_move hmove).left
  unfold serialShape
  split
  · rename_i hyes
    refine at_act hb hmove hfirst hfirst hyes ?_
    rw [acceptsAll_plan_at hb hmove hfirst hyes,
      ← acceptsAll_plan_at hb hmove hstart (allows_of_move hb hmove)]
    exact haccepts
  · rename_i hno
    have hserial : serial a b db = act a db db :=
      act_at_idle hb hmove hfirst (Bool.eq_false_iff.mpr hno) _
    rw [hserial]
    exact hfirst

theorem sameStocks_of_set {status : Status} (ha : isAtomic a = true)
    (hmove : a.move db = some (o, .set status)) :
    SameStocks db (act a db db) := by
  rcases (plan_at ha hmove (at_start (guard_of_move hmove).left)).right
    (allows_of_move ha hmove) with ⟨r, _, _, hplan⟩
  rcases orderChanges_accepted (isOrderChange_statusChange r status) db with
    ⟨haccepts, hproducts⟩
  have hplan : a.plan db = statusChange r status := hplan
  unfold act
  rw [hplan, haccepts]
  exact sameStocks_of_products hproducts

theorem accepts_beside_set (ha : isAtomic a = true) (hb : isAtomic b = true)
    (hA : a.effective db = some (o, m)) (hB : b.effective db = some (o, m'))
    (hset : (exists status, m = .set status) ∨ exists status, m' = .set status) :
    acceptsAll (act a db db) (b.plan db) = true := by
  rcases move_of_effective hA with ⟨_, hmoveA⟩
  rcases move_of_effective hB with ⟨haccepts, hmoveB⟩
  rcases hset with ⟨status, rfl⟩ | ⟨status, rfl⟩
  · rw [acceptsAll_of_sameStocks (isPlanned_plan b db)
      (sameStocks_of_set ha hmoveA)]
    exact haccepts
  · rw [acceptsAll_plan_at hb hmoveB (at_start (guard_of_move hmoveB).left)
      (allows_of_move hb hmoveB)]
    rfl

theorem staleFits_iff_shapes (ha : isAtomic a = true) (hb : isAtomic b = true)
    (hA : a.effective db = some (o, m)) (hB : b.effective db = some (o, m'))
    (hset : (exists status, m = .set status) ∨ exists status, m' = .set status) :
    StaleFits o.id db a b <->
      SameShape (db.itemsOf o.id true) (serialShape b m m')
          (staleShape o m m') ∨
        SameShape (db.itemsOf o.id true) (serialShape a m' m)
          (staleShape o m m') := by
  have hmoveA := (move_of_effective hA).right
  have hmoveB := (move_of_effective hB).right
  have haccepts := accepts_beside_set ha hb hA hB hset
  have hstale := at_stale ha hb hA hmoveB haccepts
  have hserial := at_serial ha hb hA hmoveB haccepts
  have hserial' := at_serial hb ha hB hmoveA
    (accepts_beside_set hb ha hB hA hset.symm)
  unfold StaleFits
  rw [sameResult_iff_of_at hserial hstale, sameResult_iff_of_at hserial' hstale]

/-!
# The pairs
-/

theorem staleFits_set_set {s s' : Status} (ha : isAtomic a = true)
    (hb : isAtomic b = true) (hA : a.effective db = some (o, .set s))
    (hB : b.effective db = some (o, .set s')) :
    StaleFits o.id db a b <->
      s = s' ∨ b.admits s = true ∨ a.admits s' = false := by
  have hdiff : o.status ≠ s' :=
    (guard_of_move (move_of_effective hB).right).right.right.right
  have hstale : staleShape o (.set s) (.set s') = ⟨s', false, 0⟩ := by
    unfold staleShape Shape.apply
    exact congrArg (fun status => Shape.mk status false 0) (if_neg hdiff)
  have hserial : forall (t : OrderTask) (x y : Status),
      serialShape t (.set x) (.set y) =
        ⟨if t.admits x then y else x, false, 0⟩ := by
    intro t x y
    have hallows : t.allows (.set y) x false = t.admits x := Bool.true_and _
    have happly : (moveShape (.set x)).apply x (.set y) = ⟨y, false, 0⟩ := by
      refine congrArg (fun status => Shape.mk status false 0) ?_
      show (if x = y then x else y) = y
      split
      · assumption
      · rfl
    unfold serialShape
    show (if t.allows (.set y) x false then
      (moveShape (.set x)).apply x (.set y) else ⟨x, false, 0⟩) = _
    rw [hallows, happly]
    split <;> rfl
  have hsame : forall x y : Status, SameShape (db.itemsOf o.id true)
      ⟨x, false, 0⟩ ⟨y, false, 0⟩ <-> y = x :=
    fun x y => ⟨fun h => h.left, fun h => ⟨h, rfl, fun _ => rfl⟩⟩
  rw [staleFits_iff_shapes ha hb hA hB (Or.inl ⟨s, rfl⟩), hstale, hserial,
    hserial, hsame, hsame]
  cases b.admits s <;> cases a.admits s' <;> simp [eq_comm]

theorem serialShape_cancel_set (t : OrderTask) (s : Status) :
    serialShape t .cancel (.set s) = moveShape .cancel := by
  rfl

theorem serialShape_set_cancel (t : OrderTask) (s : Status) :
    serialShape t (.set s) .cancel =
      if s = .delivered then moveShape (.set s) else moveShape .cancel := by
  have happly : (moveShape (.set s)).apply s .cancel = moveShape .cancel := by
    refine congrArg (fun status => Shape.mk status true 1) ?_
    show (if s = .cancelled then s else .cancelled) = _
    split
    · assumption
    · rfl
  unfold serialShape
  show (if decide (s ≠ .delivered) = true then
    (moveShape (.set s)).apply s .cancel else moveShape (.set s)) = _
  rw [happly]
  by_cases hs : s = .delivered
  · rw [if_pos hs, hs]
    rfl
  · rw [if_neg hs]
    exact if_pos (decide_eq_true hs)

theorem staleFits_cancel_set {s : Status} (ha : isAtomic a = true)
    (hb : isAtomic b = true) (hA : a.effective db = some (o, .cancel))
    (hB : b.effective db = some (o, .set s)) :
    StaleFits o.id db a b <-> s = .cancelled := by
  have hdiff : o.status ≠ s :=
    (guard_of_move (move_of_effective hB).right).right.right.right
  have hstale : staleShape o .cancel (.set s) = ⟨s, true, 1⟩ := by
    unfold staleShape Shape.apply
    exact congrArg (fun status => Shape.mk status true 1) (if_neg hdiff)
  rw [staleFits_iff_shapes ha hb hA hB (Or.inr ⟨s, rfl⟩), hstale,
    serialShape_cancel_set, serialShape_set_cancel]
  constructor
  · rintro (hsame | hsame)
    · exact hsame.left
    · split at hsame
      · cases hsame.right.left
      · exact hsame.left
  · rintro rfl
    exact Or.inl (SameShape.refl _ _)

theorem staleFits_set_cancelled (ha : isAtomic a = true)
    (hb : isAtomic b = true)
    (hA : a.effective db = some (o, .set .cancelled))
    (hB : b.effective db = some (o, .cancel)) :
    StaleFits o.id db a b := by
  have hstale : staleShape o (.set .cancelled) .cancel =
      moveShape .cancel := by
    refine congrArg (fun status => Shape.mk status true 1) ?_
    exact ite_self _
  rw [staleFits_iff_shapes ha hb hA hB (Or.inl ⟨_, rfl⟩), hstale,
    serialShape_cancel_set]
  exact Or.inr (SameShape.refl _ _)

theorem serial_twice (ha : isAtomic a = true) (hb : isAtomic b = true)
    (hm : m = .cancel ∨ m = .reopen) (hA : a.effective db = some (o, m))
    (hB : b.effective db = some (o, m)) : serial a b db = act a db db := by
  refine act_at_idle hb (move_of_effective hB).right (at_first ha hA) ?_ _
  rcases hm with rfl | rfl <;> rfl

theorem sameShape_twice_iff (items : List OrderItem)
    (hm : m = .cancel ∨ m = .reopen) :
    SameShape items (moveShape m) (staleShape o m m) <->
      forall p, quantityOf items p = 0 := by
  have hshape : staleShape o m m =
      ⟨m.status, m.deleted false, m.direction + m.direction⟩ := by
    rcases hm with rfl | rfl
    · exact congrArg (fun status => Shape.mk status true _) (ite_self _)
    · exact congrArg (fun status => Shape.mk status false _) (ite_self _)
  have hdirection : m.direction = 1 ∨ m.direction = -1 := by
    rcases hm with rfl | rfl
    · exact Or.inl rfl
    · exact Or.inr rfl
  rw [hshape]
  constructor
  · rintro ⟨_, _, htimes⟩ p
    have hp : (m.direction + m.direction) * _ = m.direction * _ := htimes p
    rcases hdirection with hone | hone <;> rw [hone] at hp <;> omega
  · intro hzero
    refine ⟨rfl, rfl, fun p => ?_⟩
    rw [hzero p, Int.mul_zero, Int.mul_zero]

theorem acceptsAll_twice (hA : a.effective db = some (o, m)) :
    acceptsAll db (a.plan db ++ b.plan db) =
      acceptsAll (act a db db) (b.plan db) := by
  have haccepts := (move_of_effective hA).left
  rw [acceptsAll_append_eq, haccepts, Bool.true_and]
  unfold act
  rw [haccepts]
  rfl

theorem staleFits_twice (ha : isAtomic a = true) (hb : isAtomic b = true)
    (hm : m = .cancel ∨ m = .reopen) (hA : a.effective db = some (o, m))
    (hB : b.effective db = some (o, m)) :
    StaleFits o.id db a b <->
      acceptsAll db (a.plan db ++ b.plan db) = false ∨
        forall p, quantityOf (db.itemsOf o.id true) p = 0 := by
  unfold StaleFits
  rw [serial_twice ha hb hm hA hB, serial_twice hb ha hm hB hA,
    acceptsAll_twice hA]
  have hfirst := at_first ha hA
  cases haccepts : acceptsAll (act a db db) (b.plan db) with
  | false =>
      have hstale : stale a b db = act a db db := act_of_refused haccepts
      rw [hstale]
      exact iff_of_true (Or.inl (sameResult_of_alike (.refl _) _)) (Or.inl rfl)
  | true =>
      have hstale := at_stale ha hb hA (move_of_effective hB).right haccepts
      rw [sameResult_iff_of_at hfirst hstale,
        sameResult_iff_of_at (at_first hb hB) hstale, sameShape_twice_iff _ hm,
        or_self]
      exact ⟨Or.inr, fun h => h.resolve_left (fun hno => by cases hno)⟩

end Stores

/-!
# Tasks without an effect
-/

section Idle

variable {db : Database} {o o' : Order} {a b : OrderTask} {m m' : Move}
  {id : Int}

theorem id_of_move {t : OrderTask} (hid : t.orderId? = some id)
    (hmove : t.move db = some (o, m)) : o.id = id := by
  have hparam : forall {text : String} {paranoid : Bool} {r : Order},
      pgInteger? text = some id -> paramOrder? db text paranoid = some r ->
        r.id = id := by
    intro text paranoid r htext hr
    have hkey := (find?_of_paramOrder? hr).left
    rw [htext] at hkey
    exact (Option.some.inj hkey).symm
  have hkey : forall {key : Int} {r : Order}, key = id ->
      db.order? key true = some r -> r.id = id := by
    rintro key r rfl hr
    exact (Table.find?_eq_some_iff.mp
      (Database.order?_true_eq_some_iff.mp hr).left).right
  cases t with
  | update token text status | patch token text status =>
      rcases Option.bind_eq_some_iff.mp hmove with ⟨c, _, hfound⟩
      rcases Option.bind_eq_some_iff.mp hfound with ⟨r, hr, hguard⟩
      split at hguard
      · cases hguard
      · rcases Option.bind_eq_some_iff.mp hguard with ⟨status', _, hset⟩
        rw [(setMove_eq_some hset).left]
        exact hparam hid hr
  | softDelete token text | restore token text =>
      rcases Option.bind_eq_some_iff.mp hmove with ⟨c, _, hfound⟩
      rcases Option.bind_eq_some_iff.mp hfound with ⟨r, hr, hguard⟩
      split at hguard
      · cases hguard
      · cases hguard
        exact hparam hid hr
  | statusJob job =>
      rcases Option.bind_eq_some_iff.mp hmove with ⟨r, hr, hguard⟩
      split at hguard
      · cases hguard
      · rw [(setMove_eq_some hguard).left]
        exact hkey (Option.some.inj hid) hr
  | cancelJob orderId =>
      rcases Option.bind_eq_some_iff.mp hmove with ⟨r, hr, hguard⟩
      split at hguard
      · cases hguard
      · cases hguard
        exact hkey (Option.some.inj hid) hr

theorem same_order (hidA : a.orderId? = some id)
    (hidB : b.orderId? = some id) (hA : a.move db = some (o, m))
    (hB : b.move db = some (o', m')) : o' = o := by
  have hfound := (guard_of_move hA).left
  have hfound' := (guard_of_move hB).left
  rw [id_of_move hidA hA] at hfound
  rw [id_of_move hidB hB, hfound] at hfound'
  exact (Option.some.inj hfound').symm

theorem act_of_not_effective (h : a.effective db = none) :
    act a db db = db := by
  unfold OrderTask.effective at h
  split at h
  · have hdecided := decided_move a db
    rw [h] at hdecided
    exact act_of_idle hdecided db
  · rename_i hrefused
    exact act_of_refused (Bool.eq_false_iff.mpr hrefused)

theorem acceptsAll_same_move (ha : isAtomic a = true) (hb : isAtomic b = true)
    (hA : a.move db = some (o, m)) (hB : b.move db = some (o, m)) :
    acceptsAll db (a.plan db) = acceptsAll db (b.plan db) := by
  have hat := at_start (guard_of_move hA).left
  rw [acceptsAll_plan_at ha hA hat (allows_of_move ha hA),
    acceptsAll_plan_at hb hB hat (allows_of_move hb hB)]

theorem refused_beside (ha : isAtomic a = true) (hb : isAtomic b = true)
    (hA : a.move db = some (o, m)) (hB : b.effective db = some (o, m'))
    (hrefused : acceptsAll db (a.plan db) = false) :
    acceptsAll (act b db db) (a.plan db) = false := by
  rcases move_of_effective hB with ⟨haccepts, hmove⟩
  have hguard := (guard_of_move hA).right
  have hguard' := (guard_of_move hmove).right
  cases m' with
  | set status =>
      rw [acceptsAll_of_sameStocks (isPlanned_plan a db)
        (sameStocks_of_set hb hmove)]
      exact hrefused
  | cancel =>
      cases m with
      | set status =>
          rw [acceptsAll_plan_at ha hA (at_start (guard_of_move hA).left)
            (allows_of_move ha hA)] at hrefused
          cases hrefused
      | cancel =>
          rw [acceptsAll_same_move ha hb hA hmove, haccepts] at hrefused
          cases hrefused
      | reopen =>
          have hdeleted : o.deletedAt.isSome = true := hguard
          rw [hguard'.left] at hdeleted
          cases hdeleted
  | reopen =>
      have hdeleted : o.deletedAt.isSome = true := hguard'
      cases m with
      | set status | cancel =>
          rw [hguard.left] at hdeleted
          cases hdeleted
      | reopen =>
          rw [acceptsAll_same_move ha hb hA hmove, haccepts] at hrefused
          cases hrefused

theorem act_beside_not_effective (ha : isAtomic a = true)
    (hb : isAtomic b = true) (hidA : a.orderId? = some id)
    (hidB : b.orderId? = some id) (h : a.effective db = none) :
    act a db (act b db db) = act b db db := by
  have hdecided := decided_move a db
  cases hmove : a.move db with
  | none =>
      rw [hmove] at hdecided
      exact act_of_idle hdecided _
  | some found =>
      rcases found with ⟨o, m⟩
      have hrefused : acceptsAll db (a.plan db) = false := by
        unfold OrderTask.effective at h
        rw [hmove] at h
        split at h
        · cases h
        · rename_i hrefused
          exact Bool.eq_false_iff.mpr hrefused
      cases hB : b.effective db with
      | none =>
          rw [act_of_not_effective hB]
          exact act_of_refused hrefused
      | some other =>
          rcases other with ⟨o', m'⟩
          have hsame := same_order hidA hidB hmove (move_of_effective hB).right
          subst hsame
          exact act_of_refused (refused_beside ha hb hmove hB hrefused)

end Idle

/-!
# Compatible tasks
-/

/-- A second restock, or a second taking, is refused or moves nothing. -/
def harmlessTwice (db : Database) (o : Order) (a b : OrderTask) : Bool :=
  !acceptsAll db (a.plan db ++ b.plan db) ||
    (db.itemsOf o.id true).all (fun i =>
      decide (quantityOf (db.itemsOf o.id true) i.productId = 0))

/-- Whether two tasks on one order do not disturb each other. -/
def compatible (db : Database) (a b : OrderTask) : Bool :=
  match a.effective db, b.effective db with
  | some (_, .set s), some (_, .set s') =>
      decide (s = s') || a.admits s' == b.admits s
  | some (_, .set s), some (_, .cancel) => decide (s = .cancelled)
  | some (_, .cancel), some (_, .set s) => decide (s = .cancelled)
  | some (o, .cancel), some (_, .cancel) => harmlessTwice db o a b
  | some (o, .reopen), some (_, .reopen) => harmlessTwice db o a b
  | _, _ => true

section Compatible

variable {db : Database} {o : Order} {a b : OrderTask} {m m' : Move}

theorem harmlessTwice_iff :
    harmlessTwice db o a b = true <->
      acceptsAll db (a.plan db ++ b.plan db) = false ∨
        forall p, quantityOf (db.itemsOf o.id true) p = 0 := by
  unfold harmlessTwice
  generalize db.itemsOf o.id true = items
  have hzero : (items.all (fun i =>
      decide (quantityOf items i.productId = 0)) = true) <->
        forall p, quantityOf items p = 0 := by
    rw [List.all_eq_true]
    constructor
    · intro hall p
      by_cases hp : exists i, i ∈ items ∧ i.productId = p
      · rcases hp with ⟨i, hi, rfl⟩
        exact of_decide_eq_true (hall i hi)
      · unfold quantityOf
        apply List.sum_eq_zero
        intro x hx
        rcases List.mem_map.mp hx with ⟨i, hi, rfl⟩
        exact if_neg (fun heq => hp ⟨i, hi, heq⟩)
    · intro hnone i _
      exact decide_eq_true (hnone i.productId)
  rw [Bool.or_eq_true, hzero, Bool.not_eq_true']

theorem plan_same_move (ha : isAtomic a = true) (hb : isAtomic b = true)
    (hA : a.move db = some (o, m)) (hB : b.move db = some (o, m)) :
    a.plan db = b.plan db := by
  have hfound := (guard_of_move hA).left
  have hallowsA : a.allows m o.status o.deletedAt.isSome = true :=
    allows_of_move ha hA
  have hallowsB : b.allows m o.status o.deletedAt.isSome = true :=
    allows_of_move hb hB
  rw [plan_again ha hA rfl hfound rfl, plan_again hb hB rfl hfound rfl,
    hallowsA, hallowsB]

theorem fits_iff_compatible (ha : isAtomic a = true) (hb : isAtomic b = true)
    (hA : a.effective db = some (o, m)) (hB : b.effective db = some (o, m')) :
    StaleFits o.id db a b ∧ StaleFits o.id db b a <->
      compatible db a b = true := by
  have hmoveA := (move_of_effective hA).right
  have hmoveB := (move_of_effective hB).right
  have hguardA := (guard_of_move hmoveA).right
  have hguardB := (guard_of_move hmoveB).right
  unfold compatible
  rw [hA, hB]
  cases m with
  | set s =>
      cases m' with
      | set s' =>
          rw [staleFits_set_set ha hb hA hB, staleFits_set_set hb ha hB hA]
          show _ <-> (decide (s = s') || a.admits s' == b.admits s) = true
          cases a.admits s' <;> cases b.admits s <;> simp [eq_comm]
      | cancel =>
          show _ <-> decide (s = .cancelled) = true
          rw [staleFits_cancel_set hb ha hB hA, decide_eq_true_eq]
          constructor
          · exact fun h => h.right
          · rintro rfl
            exact ⟨staleFits_set_cancelled ha hb hA hB, rfl⟩
      | reopen =>
          have hdeleted : o.deletedAt.isSome = true := hguardB
          rw [hguardA.left] at hdeleted
          cases hdeleted
  | cancel =>
      cases m' with
      | set s =>
          show _ <-> decide (s = .cancelled) = true
          rw [staleFits_cancel_set ha hb hA hB, decide_eq_true_eq]
          constructor
          · exact fun h => h.left
          · rintro rfl
            exact ⟨rfl, staleFits_set_cancelled hb ha hB hA⟩
      | cancel =>
          show _ <-> harmlessTwice db o a b = true
          rw [staleFits_twice ha hb (Or.inl rfl) hA hB,
            staleFits_twice hb ha (Or.inl rfl) hB hA, harmlessTwice_iff,
            plan_same_move ha hb hmoveA hmoveB, and_self]
      | reopen =>
          have hdeleted : o.deletedAt.isSome = true := hguardB
          rw [hguardA.left] at hdeleted
          cases hdeleted
  | reopen =>
      have hdeleted : o.deletedAt.isSome = true := hguardA
      cases m' with
      | set | cancel =>
          rw [hguardB.left] at hdeleted
          cases hdeleted
      | reopen =>
          show _ <-> harmlessTwice db o a b = true
          rw [staleFits_twice ha hb (Or.inr rfl) hA hB,
            staleFits_twice hb ha (Or.inr rfl) hB hA, harmlessTwice_iff,
            plan_same_move ha hb hmoveA hmoveB, and_self]

/-- Two tasks on one order are serializable if and only if one of them has no
effect on the store at the start or they do not disturb each other. -/
theorem serializable_iff_compatible {w : World} {id : Int}
    (ha : isAtomic a = true) (hb : isAtomic b = true)
    (hidA : a.orderId? = some id) (hidB : b.orderId? = some id) :
    Serializable w a b id <-> compatible w.db a b = true := by
  rw [serializable_iff_staleFits ha hb]
  cases hA : a.effective w.db with
  | none =>
      refine iff_of_true (staleFits_of_idle (act_of_not_effective hA)
        (act_beside_not_effective ha hb hidA hidB hA)) ?_
      unfold compatible
      rw [hA]
  | some found =>
      rcases found with ⟨o, m⟩
      cases hB : b.effective w.db with
      | none =>
          refine iff_of_true (staleFits_of_idle (act_of_not_effective hB)
            (act_beside_not_effective hb ha hidB hidA hB)).symm ?_
          unfold compatible
          rw [hA, hB]
          cases m <;> rfl
      | some other =>
          rcases other with ⟨o', m'⟩
          have hmove := (move_of_effective hA).right
          have hsame := same_order hidA hidB hmove (move_of_effective hB).right
          subst hsame
          rw [← id_of_move hidA hmove]
          exact fits_iff_compatible ha hb hA hB

end Compatible

def processFirst : OrderTask :=
  .update (.valid 1) "1" (some "processing")

theorem open_status_updates_serializable :
    isAtomic shipFirst = true ∧ isAtomic processFirst = true ∧
      shipFirst.orderId? = some 1 ∧ processFirst.orderId? = some 1 ∧
      Serializable shopWithOrder shipFirst processFirst 1 := by
  have hidA : shipFirst.orderId? = some 1 := by decide +kernel
  have hidB : processFirst.orderId? = some 1 := by decide +kernel
  refine ⟨rfl, rfl, hidA, hidB, ?_⟩
  refine (serializable_iff_compatible rfl rfl hidA hidB).mpr ?_
  decide +kernel

/-- A deletion of the order of two pens. -/
def deletePens : OrderTask :=
  .softDelete (.valid 1) "1"

/-- A delivery and a deletion that overlap leave a delivered order deleted. -/
example : compatible shopWithOrder.db (.statusJob ⟨1, .delivered⟩) deletePens =
    false := by
  decide +kernel

/-- Both deletions read the order before one of them restocks. -/
def deletedTwice : Tasks :=
  afterTurns shopWithOrder [deletePens.task, deletePens.task]
    ([0, 0, 0, 1, 1, 1] ++ List.replicate 12 0 ++ List.replicate 12 1)

/-- Eight pens are left, the deleted order has two, and twelve come back. -/
theorem overlapping_deletions_restock_twice :
    shopWithOrder.db.stock 1 = 8 ∧
      Pool.Reaches (system Healthy)
        (startPool shopWithOrder [deletePens.task, deletePens.task])
        deletedTwice ∧
      Finished deletedTwice ∧ deletedTwice.shared.db.stock 1 = 12 ∧
      (serial deletePens deletePens shopWithOrder.db).stock 1 = 10 ∧
      ¬ Serializable shopWithOrder deletePens deletePens 1 := by
  have hhealthy : Healthy {} := rfl
  have hreach : Pool.Reaches (system Healthy)
      (startPool shopWithOrder [deletePens.task, deletePens.task])
      deletedTwice := by
    unfold deletedTwice
    exact reaches_afterTurns hhealthy _ _ _
  have hfinished : Finished deletedTwice := by decide +kernel
  have htwelve : deletedTwice.shared.db.stock 1 = 12 := by decide +kernel
  have hten : (serial deletePens deletePens shopWithOrder.db).stock 1 = 10 := by
    decide +kernel
  refine ⟨by decide +kernel, hreach, hfinished, htwelve, hten, ?_⟩
  intro hserializable
  have hserial : SerialRun shopWithOrder deletePens deletePens 1
      deletedTwice.shared.db :=
    (hserializable deletedTwice hreach hfinished).elim id id
  have hstock := ((serialRun_iff rfl rfl).mp hserial).stock 1
  rw [htwelve, hten] at hstock
  cases hstock

end Concurrency
end ExpressEcommerce
