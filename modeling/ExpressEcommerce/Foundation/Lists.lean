import Mathlib.Algebra.BigOperators.Group.Finset.Basic
import Mathlib.Algebra.Group.Action.Defs
import Mathlib.Algebra.Order.BigOperators.Group.Finset
import Mathlib.Algebra.Order.Ring.Int
import Mathlib.Data.List.Forall2
import Mathlib.Data.List.TakeWhile

/-!
# Lists
-/

namespace ExpressEcommerce
namespace Foundation

variable {alpha beta : Type}

theorem getElem?_snoc {xs : List alpha} {i : Nat} {x : alpha}
    (h : xs[i]? = some x) (y : alpha) : (xs ++ [y])[i]? = some x := by
  rw [List.getElem?_append_left (List.getElem?_eq_some_iff.mp h).1]
  exact h

/-!
# Trimming
-/

/-- The list without the blanks at both ends. -/
def trim (blank : alpha -> Bool) (xs : List alpha) : List alpha :=
  ((xs.dropWhile blank).reverse.dropWhile blank).reverse

theorem dropWhile_of_none {p : alpha -> Bool} {xs : List alpha}
    (h : forall x, x ∈ xs -> p x = false) : xs.dropWhile p = xs := by
  cases xs with
  | nil => rfl
  | cons x rest =>
      rw [List.dropWhile_cons_of_neg]
      rw [h x List.mem_cons_self]
      exact Bool.false_ne_true

theorem trim_between {blank : alpha -> Bool} {front xs back : List alpha}
    (hfront : forall x, x ∈ front -> blank x = true)
    (hback : forall x, x ∈ back -> blank x = true)
    (hxs : forall x, x ∈ xs -> blank x = false) :
    trim blank (front ++ xs ++ back) = xs := by
  unfold trim
  rw [List.append_assoc, List.dropWhile_append_of_pos hfront]
  cases xs with
  | nil =>
      rw [List.nil_append, List.dropWhile_eq_nil_iff.mpr hback]
      rfl
  | cons x rest =>
      rw [List.cons_append, List.dropWhile_cons_of_neg]
      · rw [← List.cons_append, List.reverse_append,
          List.dropWhile_append_of_pos, dropWhile_of_none,
          List.reverse_reverse]
        · intro y hy
          exact hxs y (List.mem_reverse.mp hy)
        · intro y hy
          exact hback y (List.mem_reverse.mp hy)
      · rw [hxs x List.mem_cons_self]
        exact Bool.false_ne_true

theorem trim_of_none {blank : alpha -> Bool} {xs : List alpha}
    (h : forall x, x ∈ xs -> blank x = false) : trim blank xs = xs := by
  have hnone : forall x, x ∈ ([] : List alpha) -> blank x = true := by
    intro x hx
    cases hx
  have hbetween := trim_between hnone hnone h
  rwa [List.nil_append, List.append_nil] at hbetween

theorem exists_trim (blank : alpha -> Bool) (xs : List alpha) :
    exists front back, xs = front ++ trim blank xs ++ back ∧
      (forall x, x ∈ front -> blank x = true) ∧
      (forall x, x ∈ back -> blank x = true) := by
  refine ⟨xs.takeWhile blank,
    ((xs.dropWhile blank).reverse.takeWhile blank).reverse, ?_, ?_, ?_⟩
  · unfold trim
    rw [List.append_assoc, ← List.reverse_append,
      List.takeWhile_append_dropWhile, List.reverse_reverse,
      List.takeWhile_append_dropWhile]
  · intro x hx
    exact List.mem_takeWhile_imp hx
  · intro x hx
    exact List.mem_takeWhile_imp (List.mem_reverse.mp hx)

/-!
# Reading every entry
-/

theorem length_filter_le {xs : List alpha} {ys : List beta}
    {f : alpha -> Bool} {g : beta -> Bool}
    (h : forall (i : Nat) (x : alpha), xs[i]? = some x -> f x = true ->
      exists y, ys[i]? = some y ∧ g y = true) :
    (xs.filter f).length <= (ys.filter g).length := by
  induction xs generalizing ys with
  | nil => simp
  | cons x xs ih =>
      cases ys with
      | nil =>
          have hnone : f x = false := by
            cases hx : f x with
            | false => rfl
            | true =>
                rcases h 0 x rfl hx with ⟨y, hy, _⟩
                cases hy
          rw [List.filter_cons_of_neg (by simp [hnone])]
          refine ih (fun i x hx hfx => ?_)
          rcases h (i + 1) x hx hfx with ⟨y, hy, _⟩
          cases hy
      | cons y ys =>
          have hrest := ih (fun i x hx hfx => h (i + 1) x hx hfx)
          cases hx : f x with
          | false =>
              rw [List.filter_cons_of_neg (by simp [hx])]
              refine hrest.trans ?_
              exact ((List.sublist_cons_self y ys).filter g).length_le
          | true =>
              rcases h 0 x rfl hx with ⟨_, hy, hgy⟩
              cases hy
              rw [List.filter_cons_of_pos hx, List.filter_cons_of_pos hgy]
              exact Nat.succ_le_succ hrest

theorem sum_eq_length_iff {f : alpha -> Nat}
    (hf : forall x, 1 <= f x) (xs : List alpha) :
    (xs.map f).sum = xs.length <-> forall x, x ∈ xs -> f x = 1 := by
  have hle : forall ys : List alpha, ys.length <= (ys.map f).sum := by
    intro ys
    induction ys with
    | nil => exact Nat.le_refl _
    | cons y rest ih =>
        have hy := hf y
        rw [List.map_cons, List.sum_cons, List.length_cons]
        omega
  induction xs with
  | nil => simp
  | cons x rest ih =>
      have hx := hf x
      have hrest := hle rest
      rw [List.map_cons, List.sum_cons, List.length_cons,
        List.forall_mem_cons]
      constructor
      · intro h
        exact ⟨by omega, ih.mp (by omega)⟩
      · rintro ⟨hone, hall⟩
        have hsum := ih.mpr hall
        omega

theorem length_le_of_count [DecidableEq alpha] {n : Nat}
    {xs ys : List alpha} (hcount : forall x, xs.count x ≤ n)
    (hmem : forall x, x ∈ xs -> x ∈ ys) : xs.length ≤ n * ys.length := by
  have hsub : xs.toFinset ⊆ ys.toFinset := by
    intro x hx
    exact List.mem_toFinset.mpr (hmem x (List.mem_toFinset.mp hx))
  calc xs.length
      = ∑ x ∈ xs.toFinset, xs.count x :=
        (List.sum_toFinset_count_eq_length xs).symm
    _ ≤ xs.toFinset.card • n :=
        Finset.sum_le_card_nsmul _ _ _ (fun x _ => hcount x)
    _ ≤ n * ys.length := by
        rw [smul_eq_mul, Nat.mul_comm]
        exact Nat.mul_le_mul_left n
          ((Finset.card_le_card hsub).trans (List.toFinset_card_le ys))

end Foundation
end ExpressEcommerce
