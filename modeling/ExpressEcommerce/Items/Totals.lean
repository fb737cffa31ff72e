import ExpressEcommerce.Items.Operations
import ExpressEcommerce.Runs.Sequential

/-!
# Totals under operations on items

The hooks keep the totals of the live orders exactly as long as an operation
changes the lines of no other live order than the one its hook recomputes, and
the column can hold the new total.  A restoration has no hook, and an item that
is moved to another order leaves the first order as it was.
-/

namespace ExpressEcommerce
namespace Items

open Foundation
open Store
open Service
open Runs

/-- Every live order's total is the sum over its live items. -/
def TotalsKept (db : Database) : Prop :=
  forall o, o ∈ db.orders.rows -> o.deletedAt = none ->
    o.totalPrice = lineSum (db.itemsOf o.id true)

instance (db : Database) : Decidable (TotalsKept db) :=
  inferInstanceAs (Decidable (forall o, o ∈ db.orders.rows ->
    o.deletedAt = none -> o.totalPrice = lineSum (db.itemsOf o.id true)))

/-- Every live order whose lines an operation changes is the one that its hook
recomputes, and the new total fits the column. -/
def Accounted (db : Database) (op : ItemOp) : Prop :=
  forall o, o ∈ db.orders.rows -> o.deletedAt = none ->
    op.gain db o.id ≠ 0 ->
      op.recounts = some o.id ∧
        Database.fitsDecimal (lines db o.id + op.gain db o.id) = true

instance (db : Database) (op : ItemOp) : Decidable (Accounted db op) :=
  inferInstanceAs (Decidable (forall o, o ∈ db.orders.rows ->
    o.deletedAt = none -> op.gain db o.id ≠ 0 ->
      op.recounts = some o.id ∧
        Database.fitsDecimal (lines db o.id + op.gain db o.id) = true))

theorem total?_eq_some_iff {db : Database} {id t : Int} :
    total? db id = some t <->
      exists o, o ∈ db.orders.rows ∧ o.deletedAt = none ∧ o.id = id ∧
        o.totalPrice = t := by
  unfold total?
  rw [Option.map_eq_some_iff]
  constructor
  · intro h
    rcases h with ⟨o, ho, ht⟩
    rcases Database.order?_true_eq_some_iff.mp ho with ⟨hrow, hlive⟩
    rcases Table.find?_eq_some_iff.mp hrow with ⟨hmem, hkey⟩
    exact ⟨o, hmem, hlive, hkey, ht⟩
  · intro h
    rcases h with ⟨o, hmem, hlive, hkey, ht⟩
    refine ⟨o, Database.order?_true_eq_some_iff.mpr ⟨?_, hlive⟩, ht⟩
    exact Table.find?_eq_some_iff.mpr ⟨hmem, hkey⟩

theorem totalsKept_iff {db : Database} :
    TotalsKept db <->
      forall id t, total? db id = some t -> t = lines db id := by
  constructor
  · intro h id t ht
    rcases total?_eq_some_iff.mp ht with ⟨o, hmem, hlive, rfl, rfl⟩
    rw [← lineSum_itemsOf]
    exact h o hmem hlive
  · intro h o hmem hlive
    rw [lineSum_itemsOf]
    exact h o.id _ (total?_eq_some_iff.mpr ⟨o, hmem, hlive, rfl, rfl⟩)

theorem accounted_iff {db : Database} {op : ItemOp} :
    Accounted db op <->
      forall id t, total? db id = some t -> op.gain db id ≠ 0 ->
        op.recounts = some id ∧
          Database.fitsDecimal (lines db id + op.gain db id) = true := by
  constructor
  · intro h id t ht
    rcases total?_eq_some_iff.mp ht with ⟨o, hmem, hlive, rfl, _⟩
    exact h o hmem hlive
  · intro h o hmem hlive
    exact h o.id _ (total?_eq_some_iff.mpr ⟨o, hmem, hlive, rfl, rfl⟩)

/-!
# One operation
-/

theorem totalsKept_of_accounted {db db' : Database} {op : ItemOp}
    (hdone : Done op db db') (hkept : TotalsKept db)
    (haccounted : Accounted db op) : TotalsKept db' := by
  rw [totalsKept_iff] at hkept ⊢
  rw [accounted_iff] at haccounted
  intro id t ht
  have hunchanged : total? db' id = total? db id -> op.gain db id = 0 ->
      t = lines db' id := by
    intro hsame hgain
    rw [hsame] at ht
    rw [hdone.lines, hgain, Int.add_zero]
    exact hkept id t ht
  by_cases hid : op.recounts = some id
  · rcases hdone.counted id hid with ⟨hnone, hsame⟩ | hcounted
    · exact hunchanged hsame (hnone id)
    · split at hcounted
      · rw [hcounted] at ht
        rcases Option.map_eq_some_iff.mp ht with ⟨_, _, rfl⟩
        rfl
      · -- the column did not take the total, so there was nothing to add
        rename_i hno
        apply hunchanged hcounted
        by_contra hgain
        rw [hcounted] at ht
        have hfits := (haccounted id t ht hgain).right
        rw [← hdone.lines] at hfits
        exact hno hfits
  · have hsame := hdone.others id hid
    apply hunchanged hsame
    by_contra hgain
    rw [hsame] at ht
    exact hid (haccounted id t ht hgain).left

theorem accounted_of_totalsKept {db db' : Database} {op : ItemOp}
    (hdone : Done op db db') (hkept : TotalsKept db)
    (hkept' : TotalsKept db') : Accounted db op := by
  rw [totalsKept_iff] at hkept hkept'
  rw [accounted_iff]
  intro id t ht hgain
  -- an order that keeps its total while its lines change is out of line
  have hchanged : total? db' id ≠ total? db id := by
    intro hsame
    rw [ht] at hsame
    have hnew := hkept' id t hsame
    rw [hdone.lines, ← hkept id t ht] at hnew
    omega
  by_cases hid : op.recounts = some id
  · refine ⟨hid, ?_⟩
    rcases hdone.counted id hid with ⟨_, hsame⟩ | hcounted
    · exact absurd hsame hchanged
    · split at hcounted
      · rename_i hfits
        rw [hdone.lines] at hfits
        exact hfits
      · exact absurd hcounted hchanged
  · exact absurd (hdone.others id hid) hchanged

/-!
# Runs
-/

def ItemRun (Allowed : World -> ItemOp -> Prop) : World -> World -> Prop :=
  Relation.ReflTransGen
    (fun w w' => exists op, Allowed w op ∧ ItemStep w op w')

def accountedOnly (w : World) (op : ItemOp) : Prop :=
  Accounted w.db op

/-- A run of operations that are accounted for keeps the totals in every state,
and in such a state an operation keeps them exactly when it is accounted for. -/
theorem totals_kept_iff_accounted {start w : World}
    (hstart : TotalsKept start.db) (hrun : ItemRun accountedOnly start w) :
    TotalsKept w.db ∧
      forall op w', ItemStep w op w' ->
        (TotalsKept w'.db <-> Accounted w.db op) := by
  have hkept : TotalsKept w.db := by
    refine invariant_of_steps (J := fun w => TotalsKept w.db) ?_ hstart hrun
    rintro w w' hkept ⟨op, haccounted, hstep⟩
    exact totalsKept_of_accounted (done_of_step hstep) hkept haccounted
  refine ⟨hkept, ?_⟩
  intro op w' hstep
  have hdone := done_of_step hstep
  constructor
  · exact accounted_of_totalsKept hdone hkept
  · exact totalsKept_of_accounted hdone hkept

/-- The world after an operation that nothing disturbs. -/
def itemAfter (w : World) (op : ItemOp) : World :=
  (Prog.eval (exec {}) op.code (w, none)).2.1

theorem step_itemAfter (w : World) (op : ItemOp) :
    ItemStep w op (itemAfter w op) :=
  ⟨_, _, Prog.runs_eval (fun _ _ => ⟨{}, rfl, rfl⟩) op.code (w, none)⟩

/-- The item of two pens in the order of the shop. -/
def twoPens (deletedAt : Option Nat) : OrderItem :=
  ⟨1, 1, 1, 2, 250, 0, 0, deletedAt⟩

/-- An item is deleted and restored: the order keeps the total of an empty
order. -/
theorem restored_item_is_not_counted :
    let deleted := itemAfter shopWithOrder (.destroy (twoPens none))
    let restored := itemAfter deleted (.restore (twoPens (some 0)))
    TotalsKept shopWithOrder.db ∧
      ItemStep shopWithOrder (.destroy (twoPens none)) deleted ∧
      ItemStep deleted (.restore (twoPens (some 0))) restored ∧
      (restored.db.order? 1 true).map Order.totalPrice = some 0 ∧
      lineSum (restored.db.itemsOf 1 true) = 500 :=
  ⟨by decide +kernel, step_itemAfter _ _, step_itemAfter _ _,
    by decide +kernel, by decide +kernel⟩

/-- The deletion alone is accounted for. -/
theorem deleted_item_is_discounted :
    Accounted shopWithOrder.db (.destroy (twoPens none)) ∧
      TotalsKept
        (itemAfter shopWithOrder (.destroy (twoPens none))).db := by
  have hkept : TotalsKept shopWithOrder.db := by decide +kernel
  have haccounted : Accounted shopWithOrder.db (.destroy (twoPens none)) := by
    decide +kernel
  have hiff := (totals_kept_iff_accounted hkept .refl).right
    (.destroy (twoPens none)) _ (step_itemAfter _ _)
  exact ⟨haccounted, hiff.mpr haccounted⟩

end Items
end ExpressEcommerce
