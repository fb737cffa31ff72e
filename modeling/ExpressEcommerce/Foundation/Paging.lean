import Mathlib.Data.List.Basic
import Mathlib.Order.Bounds.Basic

/-!
# Pages of a list

A list that is handed out page by page, each page of the same size.  The first
pages together are a beginning of the list, and they are the whole list from the
least number of pages on that have room for it.
-/

namespace ExpressEcommerce
namespace Foundation

variable {alpha : Type}

/-- The page with a number, counted from zero. -/
def pageOf (size number : Nat) (xs : List alpha) : List alpha :=
  (xs.drop (number * size)).take size

theorem pageOf_map {beta : Type} (f : alpha -> beta) (size number : Nat)
    (xs : List alpha) :
    pageOf size number (xs.map f) = (pageOf size number xs).map f := by
  unfold pageOf
  rw [List.map_take, List.map_drop]

/-- `LIMIT` and `OFFSET` -/
def slice (limit offset : Int) (xs : List alpha) : List alpha :=
  (xs.drop offset.toNat).take limit.toNat

theorem slice_map {beta : Type} (f : alpha -> beta) (limit offset : Int)
    (xs : List alpha) :
    slice limit offset (xs.map f) = (slice limit offset xs).map f := by
  unfold slice
  rw [← List.map_drop, ← List.map_take]

theorem flatten_pages (size n : Nat) (xs : List alpha) :
    ((List.range n).map (fun number => pageOf size number xs)).flatten =
      xs.take (n * size) := by
  induction n with
  | zero => simp
  | succ n ih =>
      rw [List.range_succ, List.map_append, List.flatten_append, ih,
        Nat.add_one_mul, List.take_add]
      simp [pageOf]

theorem pageOf_ne_nil {size number : Nat} {xs : List alpha}
    (hsize : 0 < size) (h : number * size < xs.length) :
    pageOf size number xs ≠ [] := by
  intro hnil
  have hlength := congrArg List.length hnil
  unfold pageOf at hlength
  rw [List.length_take, List.length_drop, List.length_nil] at hlength
  omega

theorem isLeast_ceil {count size : Int} (hsize : 0 < size) :
    IsLeast { n : Int | count <= n * size } (-((-count) / size)) := by
  constructor
  · show count <= -((-count) / size) * size
    have hdiv := Int.ediv_mul_le (-count) (ne_of_gt hsize)
    rw [Int.neg_mul]
    omega
  · intro n hn
    have hn : count <= n * size := hn
    have hle : -n <= (-count) / size := by
      rw [Int.le_ediv_iff_mul_le hsize, Int.neg_mul]
      omega
    omega

end Foundation
end ExpressEcommerce
