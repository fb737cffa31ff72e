import ExpressEcommerce.Stock.Conservation

/-!
# Delivered orders

Once an order is delivered, no request or job changes its row again.  The guards
of the handlers look at the status, but the restoration of an order does not; it
relies on deleted orders being cancelled, which every step keeps.
-/

namespace ExpressEcommerce
namespace Runs

open Foundation
open Store
open Service
open Orders
open Products
open Stock

/-- Everything that works on orders. -/
def orderTasks (_ : World) : RunTask -> Prop
  | .product _ => False
  | _ => True

def DeletedAreCancelled (db : Database) : Prop :=
  forall id o, db.orders.find? id = some o -> o.deletedAt.isSome = true ->
    o.status = .cancelled

theorem deletedAreCancelled_moved {t : OrderTask} {db db' : Database}
    {o : Order} {m : Move} (hmove : t.move db = some (o, m))
    (h : Moved db db' o m) (hinv : DeletedAreCancelled db) :
    DeletedAreCancelled db' := by
  rcases guard_of_move hmove with ⟨_, hguard⟩
  rcases h.replaced with ⟨now, deletedAt, hdeleted, hrep⟩
  intro id o' ho' hdel
  rw [hrep.find?] at ho'
  split at ho'
  · cases ho'
    -- the row that was written
    cases m with
    | set status =>
        rw [show deletedAt.isSome = o.deletedAt.isSome from hdeleted,
          hguard.left] at hdel
        cases hdel
    | cancel => rfl
    | reopen =>
        rw [show deletedAt.isSome = false from hdeleted] at hdel
        cases hdel
  · exact hinv id o' ho' hdel

theorem find?_of_rows {db db' : Database}
    (h : db'.orders.rows = db.orders.rows) (id : Int) :
    db'.orders.find? id = db.orders.find? id := by
  unfold Table.find?
  rw [h]

theorem deletedAreCancelled_step {ok : Env -> Prop} {w w' : World}
    {t : RunTask} {out : Outcome} (hlive : w.db.NoDeletedItems)
    (hinv : DeletedAreCancelled w.db) (hfinishes : t.Finishes out)
    (h : Executes ok w t.task out w') : DeletedAreCancelled w'.db := by
  cases t with
  | order t =>
      rcases executes_move hlive hfinishes h with hsame | ⟨o, m, hmove, hmoved⟩
      · rw [hsame]
        exact hinv
      · exact deletedAreCancelled_moved hmove hmoved hinv
  | place token items =>
      rcases executes_createOrder h with ⟨stage, _, hstored, _, _, hsound⟩
      intro id o ho hdel
      cases stage with
      | committed d now =>
          rcases hstored with ⟨mid, hgrows, hplaced⟩
          rw [hplaced.order] at ho
          split at ho
          · cases ho
            rw [show (d.placed now).deletedAt = none from
              (hsound d now rfl).right.new.right.right] at hdel
            cases hdel
          · rw [find?_of_rows hgrows.orders] at ho
            exact hinv id o ho hdel
      | _ =>
          rw [find?_of_rows hstored.orders] at ho
          exact hinv id o ho hdel
  | product t =>
      intro id o ho hdel
      rw [find?_of_rows (executes_edit h).orders] at ho
      exact hinv id o ho hdel

/-!
# The row of a delivered order
-/

theorem delivered_row_step {ok : Env -> Prop} {w w' : World} {t : RunTask}
    {out : Outcome} {id : Int} {o : Order} (hlive : w.db.NoDeletedItems)
    (hinv : DeletedAreCancelled w.db) (hfinishes : t.Finishes out)
    (h : Executes ok w t.task out w') (hrow : w.db.orders.find? id = some o)
    (hdelivered : o.status = .delivered) :
    w'.db.orders.find? id = some o ∧
      forall p, w'.db.itemTotal id p = w.db.itemTotal id p := by
  cases t with
  | order t =>
      rcases executes_move hlive hfinishes h with hsame | ⟨o1, m, hmove, hmoved⟩
      · rw [hsame]
        exact ⟨hrow, fun _ => rfl⟩
      · rcases guard_of_move hmove with ⟨hfound, hguard⟩
        rcases hmoved.replaced with ⟨_, _, _, hrep⟩
        have hother : id ≠ o1.id := by
          intro hid
          rw [hid, hfound] at hrow
          cases hrow
          cases m with
          | set status => exact hguard.right.left hdelivered
          | cancel => exact hguard.right hdelivered
          | reopen =>
              have hcancelled := hinv _ _ hfound hguard
              rw [hdelivered] at hcancelled
              cases hcancelled
        constructor
        · rw [hrep.find?, if_neg hother]
          exact hrow
        · intro p
          unfold Database.itemTotal
          rw [hrep.items]
  | place token items =>
      rcases executes_createOrder h with ⟨stage, _, hstored, _, _, _⟩
      cases stage with
      | committed d now =>
          rcases hstored with ⟨mid, hgrows, hplaced⟩
          have hother : id ≠ d.order.id := by
            intro hid
            have hfree := hplaced.free
            rw [find?_of_rows hgrows.orders, ← hid, hrow] at hfree
            cases hfree
          constructor
          · rw [hplaced.order, if_neg hother, find?_of_rows hgrows.orders]
            exact hrow
          · intro p
            unfold Database.itemTotal Table.sum
            rw [hplaced.items, hgrows.items, List.map_append, List.sum_append]
            have hzero : (d.items.map (fun i =>
                if i.orderId = id ∧ i.productId = p then i.quantity
                else 0)).sum = 0 := by
              apply List.sum_eq_zero
              intro x hx
              rcases List.mem_map.mp hx with ⟨i, hi, rfl⟩
              rw [hplaced.owner i hi, if_neg]
              exact fun hboth => hother hboth.left.symm
            rw [hzero, Int.add_zero]
      | _ =>
          constructor
          · rw [find?_of_rows hstored.orders]
            exact hrow
          · intro p
            unfold Database.itemTotal Table.sum
            rw [hstored.items]
  | product t =>
      constructor
      · rw [find?_of_rows (executes_edit h).orders]
        exact hrow
      · intro p
        unfold Database.itemTotal Table.sum
        rw [(executes_edit h).items]

theorem live_of_delivered {db : Database} {id : Int} {o : Order}
    (hinv : DeletedAreCancelled db) (hrow : db.orders.find? id = some o)
    (hdelivered : o.status = .delivered) : o.deletedAt = none := by
  cases hdel : o.deletedAt with
  | none => rfl
  | some n =>
      have hcancelled := hinv id o hrow (by rw [hdel]; rfl)
      rw [hdelivered] at hcancelled
      cases hcancelled

/-- What live orders other than a given one hold. -/
def othersLive (id : Int) (o : Order) : Bool :=
  isLive o && decide (o.id ≠ id)

theorem held_isLive {db : Database} {id : Int} {o : Order}
    (hrow : db.orders.find? id = some o) (hlive : o.deletedAt = none)
    (p : Int) :
    db.held isLive p = db.held (othersLive id) p + db.itemTotal id p := by
  unfold Database.held Database.itemTotal
  rw [← Table.sum_add]
  apply Table.sum_congr
  intro i hi
  by_cases hid : i.orderId = id
  · have hkey : o.id = id := (Table.find?_eq_some_iff.mp hrow).right
    rw [hid, hrow, Option.any_some, Option.any_some]
    have hothers : othersLive id o = false := by
      unfold othersLive
      simp [hkey]
    have hthis : isLive o = true := by
      unfold isLive
      rw [hlive]
      rfl
    rw [hothers, hthis]
    by_cases hp : i.productId = p <;> simp [hp]
  · rcases Option.isSome_iff_exists.mp (db.itemOrder i hi) with ⟨o1, ho1⟩
    have hkey : o1.id = i.orderId := (Table.find?_eq_some_iff.mp ho1).right
    have hothers : othersLive id o1 = isLive o1 := by
      unfold othersLive
      rw [hkey]
      simp [hid]
    simp [ho1, hothers, hid]

/-!
# Runs
-/

/-- What holds of a delivered order from some world on. -/
structure StaysDelivered (w w' : World) (id : Int) (o : Order) : Prop where
  items : w'.db.NoDeletedItems
  deleted : DeletedAreCancelled w'.db
  row : w'.db.orders.find? id = some o
  held : forall p, w'.db.itemTotal id p = w.db.itemTotal id p
  stock : forall p, w'.db.stock p + w'.db.held (othersLive id) p =
    w.db.stock p + w.db.held (othersLive id) p

theorem staysDelivered_step {ok : Env -> Prop} {w w1 w2 : World}
    {t : RunTask} {out : Outcome} {id : Int} {o : Order}
    (hdelivered : o.status = .delivered) (h : StaysDelivered w w1 id o)
    (hallowed : orderTasks w1 t) (hfinishes : t.Finishes out)
    (hexec : Executes ok w1 t.task out w2) : StaysDelivered w w2 id o := by
  rcases delivered_row_step h.items h.deleted hfinishes hexec h.row hdelivered
    with ⟨hrow, htotal⟩
  have hlive := live_of_delivered h.deleted h.row hdelivered
  refine ⟨noDeleted_step h.items hfinishes hexec,
    deletedAreCancelled_step h.items h.deleted hfinishes hexec, hrow,
    fun p => (htotal p).trans (h.held p), fun p => ?_⟩
  have hconserved : stockAndHeld w2.db p = stockAndHeld w1.db p := by
    rcases stockAndHeld_step h.items hfinishes hexec p with hsame | ⟨hw, _⟩
    · exact hsame
    · cases t with
      | order | place => cases hw
      | product => cases hallowed
  unfold stockAndHeld at hconserved
  rw [held_isLive hrow hlive, held_isLive h.row hlive, htotal p] at hconserved
  have hstock := h.stock p
  omega

/-- In every reachable world deleted orders are cancelled; an order that is
delivered there keeps its row in all later worlds, and the stock of its items is
never given back: stock and what the other live orders hold stay in balance. -/
theorem delivered_is_final {start w : World}
    (hitems : start.db.NoDeletedItems)
    (hdeleted : DeletedAreCancelled start.db)
    (hrun : Run AnyEnv orderTasks start w) :
    DeletedAreCancelled w.db ∧
      forall id o, w.db.orders.find? id = some o -> o.status = .delivered ->
        forall w', Run AnyEnv orderTasks w w' ->
          w'.db.orders.find? id = some o ∧ o.deletedAt = none ∧
          (forall p, w'.db.itemTotal id p = w.db.itemTotal id p) ∧
          (forall p, w'.db.stock p + w'.db.held (othersLive id) p =
            w.db.stock p + w.db.held (othersLive id) p) := by
  have hreach := run_invariant
    (J := fun w => w.db.NoDeletedItems ∧ DeletedAreCancelled w.db)
    (fun hinv _ hfin hexec => ⟨noDeleted_step hinv.left hfin hexec,
      deletedAreCancelled_step hinv.left hinv.right hfin hexec⟩)
    ⟨hitems, hdeleted⟩ hrun
  refine ⟨hreach.right, fun id o hrow hdelivered w' hrun' => ?_⟩
  have hstart : StaysDelivered w w id o :=
    ⟨hreach.left, hreach.right, hrow, fun _ => rfl, fun _ => rfl⟩
  have hstays := run_invariant (J := fun w' => StaysDelivered w w' id o)
    (fun hinv hallowed hfin hexec =>
      staysDelivered_step hdelivered hinv hallowed hfin hexec) hstart hrun'
  exact ⟨hstays.row, live_of_delivered hreach.right hrow hdelivered,
    hstays.held, hstays.stock⟩

/-- The shop after an order of two pens was delivered. -/
def shopDelivered : World :=
  after shopWithOrder (.order (.patch (.valid 1) "1" (some "delivered")))

/-- A request to delete the delivered order leaves its row alone. -/
theorem delivered_order_is_not_deleted :
    (after shopDelivered (.order (.softDelete (.valid 1)
      "1"))).db.orders.find? 1 =
        some ⟨1, 1, 500, .delivered, 0, 0, none⟩ := by
  have hitems : shop.db.NoDeletedItems := by decide
  have hdeleted : DeletedAreCancelled shop.db := by
    intro id o ho
    cases ho
  have hpatch : Step AnyEnv orderTasks shopWithOrder shopDelivered :=
    step_after (t := .order (.patch (.valid 1) "1" (some "delivered")))
      trivial trivial
  have hdelete : Step AnyEnv orderTasks shopDelivered
      (after shopDelivered (.order (.softDelete (.valid 1) "1"))) :=
    step_after (t := .order (.softDelete (.valid 1) "1")) trivial trivial
  have hfinal := delivered_is_final hitems hdeleted
    (.tail (run_shopWithOrder trivial) hpatch)
  exact (hfinal.right 1 ⟨1, 1, 500, .delivered, 0, 0, none⟩ (by decide) rfl
    _ (.single hdelete)).left

end Runs
end ExpressEcommerce
