import ExpressEcommerce.Stock.Conservation

/-!
# Stock and the cancelled status

The README promises that stock is restored on cancellation.  Cancellation is
recorded by the status, but the stock follows the paranoid column: setting the
status to cancelled by hand gives nothing back, and deleting such an order gives
the stock back a second time.  The sum of the stock and of what orders that are
not cancelled hold is kept by exactly those steps that move both together.
-/

namespace ExpressEcommerce
namespace Stock

open Foundation
open Store
open Service
open Orders
open Products
open Runs

def notCancelled (o : Order) : Bool :=
  decide (o.status ≠ .cancelled)

/-- The stock of a product and what orders that are not cancelled hold. -/
def stockAndOpen (db : Database) (p : Int) : Int :=
  db.stock p + db.held notCancelled p

/-- Order requests and status jobs. -/
def orderSteps : RunTask -> Bool
  | .order (.cancelJob _) => false
  | .order _ => true
  | .place _ _ => true
  | .product _ => false

/-- The move changes the status and the stock together: it does not cross the
cancelled status without the stock, nor move the stock without crossing it. -/
def Move.InStep (o : Order) : Move -> Prop
  | .set status => o.status ≠ .cancelled ∧ status ≠ .cancelled
  | .cancel => o.status ≠ .cancelled
  | .reopen => o.status = .cancelled

/-- The step makes no move, or one that is in step, or one on an order whose
items add up to nothing. -/
def InStep (db : Database) : RunTask -> Prop
  | .order t => forall o m, t.effective db = some (o, m) ->
      Move.InStep o m ∨ forall p, db.itemTotal o.id p = 0
  | _ => True

/-- How the sum changes, in multiples of what the items of the order hold. -/
def Move.excess (o : Order) (m : Move) : Int :=
  m.direction + (if m.status = .cancelled then 0 else 1) -
    (if o.status = .cancelled then 0 else 1)

theorem excess_eq_zero_iff {o : Order} {m : Move} (h : m.Guard o) :
    Move.excess o m = 0 <-> Move.InStep o m := by
  unfold Move.excess Move.InStep
  cases m with
  | set status =>
      rcases h with ⟨_, _, hdiff⟩
      by_cases hold : o.status = .cancelled
      · have hnew : status ≠ .cancelled := fun heq => hdiff (by rw [hold, heq])
        simp [Move.direction, Move.status, hold, hnew]
      · by_cases hnew : status = .cancelled <;>
          simp [Move.direction, Move.status, hold, hnew]
  | cancel =>
      by_cases hold : o.status = .cancelled <;>
        simp [Move.direction, Move.status, hold]
  | reopen =>
      by_cases hold : o.status = .cancelled <;>
        simp [Move.direction, Move.status, hold]

theorem stockAndOpen_moved {db db' : Database} {o : Order} {m : Move}
    (hfound : db.orders.find? o.id = some o) (h : Moved db db' o m)
    (p : Int) :
    stockAndOpen db' p =
      stockAndOpen db p + Move.excess o m * db.itemTotal o.id p := by
  rcases h.replaced with ⟨now, deletedAt, _, hrep⟩
  have hheld :=
    Database.held_replace hrep.items hfound hrep.find? notCancelled p
  have hstock := h.stock p
  unfold stockAndOpen Move.excess
  unfold notCancelled at hheld ⊢
  simp only [decide_eq_true_eq] at hheld
  rw [hstock, Int.sub_mul, Int.add_mul]
  split at hheld <;> split at hheld <;> simp_all <;> omega

theorem stockAndOpen_createOrder {ok : Env -> Prop} {token : Token}
    {items : List ItemRequest} {w w' : World} {out : Outcome}
    (h : Executes ok w (.request (.createOrder token items)) out w')
    (p : Int) : stockAndOpen w'.db p = stockAndOpen w.db p := by
  refine stock_held_createOrder (fun o hpending _ => ?_) h p
  unfold notCancelled
  rw [hpending]
  rfl

theorem completes_of_orderSteps {t : OrderTask} {out : Outcome}
    (h : orderSteps (.order t) = true) : Completes t out := by
  cases t <;> cases h <;> trivial

theorem stockAndOpen_step {ok : Env -> Prop} {w w' : World} {t : RunTask}
    {out : Outcome} (hlive : w.db.NoDeletedItems)
    (hscope : orderSteps t = true) (hinStep : InStep w.db t)
    (h : Executes ok w t.task out w') (p : Int) :
    stockAndOpen w'.db p = stockAndOpen w.db p := by
  cases t with
  | order t =>
      rcases executes_effective hlive (completes_of_orderSteps hscope) h with
        hsame | ⟨o, m, heffective, hmoved⟩
      · rw [hsame]
      · rcases guard_of_move (move_of_effective heffective).right with
          ⟨hfound, hguard⟩
        rw [stockAndOpen_moved hfound hmoved]
        rcases hinStep o m heffective with hm | hzero
        · rw [(excess_eq_zero_iff hguard).mpr hm, Int.zero_mul, Int.add_zero]
        · rw [hzero p, Int.mul_zero, Int.add_zero]
  | place token items => exact stockAndOpen_createOrder h p
  | product t => cases hscope

theorem inStep_of_kept {w w' : World} {t : RunTask} {out : Outcome}
    (hlive : w.db.NoDeletedItems) (h : Executes Healthy w t.task out w')
    (hkept : forall p, stockAndOpen w'.db p = stockAndOpen w.db p) :
    InStep w.db t := by
  cases t with
  | order t =>
      intro o m heffective
      have hmoved := moved_of_effective hlive heffective h
      rcases guard_of_move (move_of_effective heffective).right with
        ⟨hfound, hguard⟩
      rw [← excess_eq_zero_iff hguard]
      by_cases hexcess : Move.excess o m = 0
      · exact Or.inl hexcess
      · right
        intro p
        have hp := stockAndOpen_moved hfound hmoved p
        rw [hkept p] at hp
        have hzero : Move.excess o m * w.db.itemTotal o.id p = 0 := by omega
        exact (Int.mul_eq_zero.mp hzero).resolve_left hexcess
  | place token items => trivial
  | product t => trivial

/-!
# Runs
-/

/-- The steps of a run that are in step. -/
def inStepOnly (w : World) (t : RunTask) : Prop :=
  orderSteps t = true ∧ InStep w.db t

def orderStepsOnly (_ : World) (t : RunTask) : Prop :=
  orderSteps t = true

/-- A step keeps the sum in all of its executions exactly when it is in step,
and a run of such steps keeps it from beginning to end. -/
theorem stock_follows_cancellation_iff_inStep {start : World}
    (hlive : start.db.NoDeletedItems) :
    (forall w t, Run AnyEnv orderStepsOnly start w -> orderSteps t = true ->
      ((forall out w' p, Executes AnyEnv w t.task out w' ->
        stockAndOpen w'.db p = stockAndOpen w.db p) <-> InStep w.db t)) ∧
    (forall w, Run AnyEnv inStepOnly start w ->
      forall p, stockAndOpen w.db p = stockAndOpen start.db p) := by
  constructor
  · intro w t hrun hscope
    have hitems : w.db.NoDeletedItems :=
      run_invariant (fun hinv _ hfin hexec => noDeleted_step hinv hfin hexec)
        hlive hrun
    constructor
    · intro hkept
      have hexec := executes_after w t
      exact inStep_of_kept hitems hexec (fun p => hkept _ _ p hexec.anyEnv)
    · intro hinStep out w' p hexec
      exact stockAndOpen_step hitems hscope hinStep hexec p
  · intro w hrun
    have hboth := run_invariant
      (J := fun w => w.db.NoDeletedItems ∧
        forall p, stockAndOpen w.db p = stockAndOpen start.db p)
      (fun hinv hallowed hfin hexec => ⟨noDeleted_step hinv.left hfin hexec,
        fun p => (stockAndOpen_step hinv.left hallowed.left hallowed.right
          hexec p).trans (hinv.right p)⟩)
      ⟨hlive, fun _ => rfl⟩ hrun
    exact hboth.right

/-- A patch to cancelled leaves the stock where it is: the sum falls by the
quantity of the order. -/
theorem patch_to_cancelled_gives_nothing_back :
    Run AnyEnv orderStepsOnly shop shopWithOrder ∧
      Executes AnyEnv shopWithOrder
        (RunTask.order (.patch (.valid 1) "1" (some "cancelled"))).task
        ((RunTask.order (.patch (.valid 1) "1"
          (some "cancelled"))).task.perform shopWithOrder).1
        (after shopWithOrder (.order (.patch (.valid 1) "1"
          (some "cancelled")))) ∧
      stockAndOpen shopWithOrder.db 1 = 10 ∧
      stockAndOpen (after shopWithOrder (.order (.patch (.valid 1) "1"
        (some "cancelled")))).db 1 = 8 :=
  ⟨run_shopWithOrder rfl, (executes_after shopWithOrder _).anyEnv, by decide,
    by decide⟩

/-- Deleting the order instead is in step. -/
theorem stock_follows_deletion_of_two_pens :
    InStep shopWithOrder.db (.order (.softDelete (.valid 1) "1")) ∧
      stockAndOpen (after shopWithOrder (.order (.softDelete (.valid 1)
        "1"))).db 1 = stockAndOpen shopWithOrder.db 1 := by
  have hinStep : InStep shopWithOrder.db
      (.order (.softDelete (.valid 1) "1")) := by
    intro o m h
    have hmove : OrderTask.effective shopWithOrder.db
        (.softDelete (.valid 1) "1") =
          some (⟨1, 1, 500, .pending, 0, 0, none⟩, .cancel) := by decide
    rw [hmove] at h
    cases h
    exact Or.inl (fun hcancelled => by cases hcancelled)
  have hlive : shop.db.NoDeletedItems := by
    intro i hi
    cases hi
  have hiff := (stock_follows_cancellation_iff_inStep hlive).left
    shopWithOrder (.order (.softDelete (.valid 1) "1"))
    (run_shopWithOrder rfl) rfl
  exact ⟨hinStep, hiff.mpr hinStep _ _ 1 (executes_after _ _).anyEnv⟩

end Stock
end ExpressEcommerce
