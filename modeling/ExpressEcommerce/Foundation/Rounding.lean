import Mathlib.Algebra.BigOperators.Group.List.Basic
import Mathlib.Algebra.Order.Ring.Rat
import Mathlib.Data.Int.Log
import Mathlib.Data.Rat.Floor
import Mathlib.Tactic.FieldSimp
import Mathlib.Tactic.Linarith
import Mathlib.Tactic.Positivity
import Mathlib.Tactic.Ring

/-!
# Rounding to a binary precision

A binary floating-point format of a given precision holds the integers of that
many bits, scaled by powers of two.  Rounding takes a rational number to the
nearest of them, ties to the even one.  The exponent is not bounded here.

The relative error of one rounding is at most half a unit in the last place; the
error of a sum whose terms and partial sums are all rounded grows with the number
of roundings.
-/

namespace ExpressEcommerce
namespace Foundation

/-!
# The nearest integer
-/

/-- The nearest integer, ties to the even one. -/
def nearestEven (x : Rat) : Int :=
  if x - ⌊x⌋ < 1 / 2 then ⌊x⌋
  else if 1 / 2 < x - ⌊x⌋ then ⌊x⌋ + 1
  else if ⌊x⌋ % 2 = 0 then ⌊x⌋
  else ⌊x⌋ + 1

theorem abs_nearestEven_sub_le (x : Rat) : |(nearestEven x : Rat) - x| ≤ 1 / 2 := by
  have hlow : (⌊x⌋ : Rat) ≤ x := Int.floor_le x
  have hhigh : x < ⌊x⌋ + 1 := Int.lt_floor_add_one x
  unfold nearestEven
  rw [abs_le]
  split
  · constructor <;> linarith
  · split
    · push_cast
      constructor <;> linarith
    · split
      · constructor <;> linarith
      · push_cast
        constructor <;> linarith

theorem nearestEven_intCast (n : Int) : nearestEven (n : Rat) = n := by
  unfold nearestEven
  rw [Int.floor_intCast, sub_self, if_pos (by norm_num)]

/-!
# Representable numbers
-/

/-- The distance of the neighbours of a number. -/
def spacing (precision : Nat) (x : Rat) : Rat :=
  2 ^ (Int.log 2 |x| + 1 - precision)

def roundTo (precision : Nat) (x : Rat) : Rat :=
  if x = 0 then 0
  else nearestEven (x / spacing precision x) * spacing precision x

theorem spacing_pos (precision : Nat) (x : Rat) : 0 < spacing precision x :=
  zpow_pos two_pos _

@[simp] theorem roundTo_zero (precision : Nat) : roundTo precision 0 = 0 :=
  if_pos rfl

theorem abs_roundTo_sub_le (precision : Nat) (x : Rat) :
    |roundTo precision x - x| ≤ 1 / 2 ^ precision * |x| := by
  by_cases hx : x = 0
  · subst hx
    simp
  · have hpos := spacing_pos precision x
    have hsplit : roundTo precision x - x =
        (nearestEven (x / spacing precision x) - x / spacing precision x) *
          spacing precision x := by
      unfold roundTo
      rw [if_neg hx, sub_mul, div_mul_cancel₀ _ hpos.ne']
    have hhalf : 1 / 2 * spacing precision x =
        1 / 2 ^ precision * 2 ^ Int.log 2 |x| := by
      unfold spacing
      rw [zpow_sub₀ two_ne_zero, zpow_add₀ two_ne_zero, zpow_one, zpow_natCast]
      ring
    have hlog : (2 : Rat) ^ Int.log 2 |x| ≤ |x| := by
      have h := Int.zpow_log_le_self (b := 2) (r := |x|) (by decide)
        (abs_pos.mpr hx)
      exact_mod_cast h
    calc |roundTo precision x - x|
        = |(nearestEven (x / spacing precision x) : Rat) -
            x / spacing precision x| * spacing precision x := by
          rw [hsplit, abs_mul, abs_of_pos hpos]
      _ ≤ 1 / 2 * spacing precision x :=
          mul_le_mul_of_nonneg_right (abs_nearestEven_sub_le _) hpos.le
      _ = 1 / 2 ^ precision * 2 ^ Int.log 2 |x| := hhalf
      _ ≤ 1 / 2 ^ precision * |x| :=
          mul_le_mul_of_nonneg_left hlog (by positivity)

theorem roundTo_of_multiple {precision : Nat} {x : Rat} {n : Int}
    (h : x = n * spacing precision x) : roundTo precision x = x := by
  unfold roundTo
  split
  · rename_i hx
    exact hx.symm
  · have hdiv : x / spacing precision x = n := by
      rw [div_eq_iff (spacing_pos precision x).ne']
      exact h
    rw [hdiv, nearestEven_intCast]
    exact h.symm

theorem roundTo_scaled {precision : Nat} (m e : Int)
    (hm : |m| < 2 ^ precision) :
    roundTo precision (m * 2 ^ e) = m * 2 ^ e := by
  by_cases hzero : m = 0
  · subst hzero
    simp
  · have habs : |(m * 2 ^ e : Rat)| = (|m| : Int) * 2 ^ e := by
      have hscale : (0 : Rat) < 2 ^ e := zpow_pos two_pos e
      rw [abs_mul, abs_of_pos hscale, Int.cast_abs]
    have hpos : (0 : Rat) < |(m * 2 ^ e : Rat)| := by
      rw [abs_pos]
      exact mul_ne_zero (Int.cast_ne_zero.mpr hzero)
        (zpow_ne_zero e two_ne_zero)
    have hlt : |(m * 2 ^ e : Rat)| < 2 ^ (precision + e) := by
      rw [habs, zpow_add₀ two_ne_zero, zpow_natCast]
      refine mul_lt_mul_of_pos_right ?_ (zpow_pos two_pos e)
      exact_mod_cast hm
    have hlog : Int.log 2 |(m * 2 ^ e : Rat)| < precision + e := by
      refine (Int.lt_zpow_iff_log_lt (by decide) hpos).mp ?_
      exact_mod_cast hlt
    -- the spacing is a smaller power of two
    let k : Nat := (e - (Int.log 2 |(m * 2 ^ e : Rat)| + 1 - precision)).toNat
    have hk : e = k + (Int.log 2 |(m * 2 ^ e : Rat)| + 1 - precision) := by
      omega
    refine roundTo_of_multiple (n := m * 2 ^ k) ?_
    unfold spacing
    push_cast
    rw [mul_assoc, ← zpow_natCast, ← zpow_add₀ two_ne_zero, ← hk]

theorem roundTo_intCast {precision : Nat} (n : Int)
    (hn : |n| < 2 ^ precision) : roundTo precision (n : Rat) = n := by
  have h := roundTo_scaled n 0 hn
  rwa [zpow_zero, mul_one] at h

theorem abs_nearestEven_le {x : Rat} {n : Nat} (h : |x| < n) :
    |nearestEven x| ≤ n := by
  have hnear := abs_nearestEven_sub_le x
  have htriangle : |(nearestEven x : Rat)| ≤ |(nearestEven x : Rat) - x| + |x| := by
    simpa using abs_add_le ((nearestEven x : Rat) - x) x
  have hlt : ((|nearestEven x| : Int) : Rat) < ((n + 1 : Int) : Rat) := by
    rw [Int.cast_abs]
    push_cast
    linarith
  exact Int.lt_add_one_iff.mp (Int.cast_lt.mp hlt)

theorem roundTo_roundTo {precision : Nat} (hprecision : 0 < precision)
    (x : Rat) :
    roundTo precision (roundTo precision x) = roundTo precision x := by
  by_cases hx : x = 0
  · rw [hx, roundTo_zero, roundTo_zero]
  · have hpos := spacing_pos precision x
    let m := nearestEven (x / spacing precision x)
    let e := Int.log 2 |x| + 1 - precision
    have hround : roundTo precision x = m * 2 ^ e := if_neg hx
    have hsmall : |x / spacing precision x| < (2 ^ precision : Nat) := by
      rw [abs_div, abs_of_pos hpos, div_lt_iff₀ hpos]
      have hlog := Int.lt_zpow_succ_log_self (b := 2) (by decide) |x|
      unfold spacing
      push_cast at hlog ⊢
      rw [← zpow_natCast, ← zpow_add₀ two_ne_zero]
      rwa [show (precision : Int) + (Int.log 2 |x| + 1 - precision) =
        Int.log 2 |x| + 1 by omega]
    have hm : |m| ≤ 2 ^ precision := by
      have hle := abs_nearestEven_le hsmall
      exact_mod_cast hle
    rw [hround]
    rcases lt_or_eq_of_le hm with hlt | heq
    · exact roundTo_scaled m e hlt
    · -- the mantissa was rounded up to the next power of two
      have hone : (1 : Int) < 2 ^ precision :=
        one_lt_pow₀ (by decide) hprecision.ne'
      have hcase : (m * 2 ^ e : Rat) = (1 : Int) * 2 ^ (precision + e) ∨
          (m * 2 ^ e : Rat) = (-1 : Int) * 2 ^ (precision + e) := by
        rw [zpow_add₀ two_ne_zero, zpow_natCast]
        rcases abs_eq (by positivity) |>.mp heq with hup | hdown
        · left
          rw [hup]
          push_cast
          ring
        · right
          rw [hdown]
          push_cast
          ring
      rcases hcase with hup | hdown
      · rw [hup]
        exact roundTo_scaled 1 _ (by simpa using hone)
      · rw [hdown]
        exact roundTo_scaled (-1) _ (by simpa using hone)

/-!
# Rounded sums

Each rounding multiplies the error that is already there by `1 + u` and adds
`u` of the exact value.
-/

/-- The relative error after a number of roundings. -/
def growth (u : Rat) (roundings : Nat) : Rat :=
  (1 + u) ^ roundings - 1

section Sums

variable {u : Rat} (hu : 0 ≤ u)

@[simp] theorem growth_zero : growth u 0 = 0 := by
  unfold growth
  rw [pow_zero, sub_self]

theorem growth_succ (n : Nat) :
    growth u (n + 1) = u * (1 + growth u n) + growth u n := by
  unfold growth
  ring

theorem growth_one : growth u 1 = u := by
  rw [growth_succ, growth_zero]
  ring

include hu

theorem growth_mono {m n : Nat} (h : m ≤ n) : growth u m ≤ growth u n := by
  unfold growth
  have hpow : (1 + u) ^ m ≤ (1 + u) ^ n :=
    pow_le_pow_right₀ (by linarith) h
  linarith

/-- The classical bound: `n` roundings of relative error `u` together. -/
theorem growth_mul_le (n : Nat) : growth u n * (1 - n * u) ≤ n * u := by
  have hpow : (1 + u) ^ n * (1 - n * u) ≤ 1 := by
    induction n with
    | zero => simp
    | succ n ih =>
        have hfactor : (1 + u) * (1 - (n + 1) * u) ≤ 1 - n * u := by
          nlinarith [mul_nonneg (mul_nonneg (Nat.cast_nonneg (α := Rat) n) hu)
            hu, mul_nonneg hu hu]
        calc (1 + u) ^ (n + 1) * (1 - ((n + 1 : Nat) : Rat) * u)
            = (1 + u) ^ n * ((1 + u) * (1 - (n + 1) * u)) := by
              push_cast
              ring
          _ ≤ (1 + u) ^ n * (1 - n * u) :=
              mul_le_mul_of_nonneg_left hfactor
                (pow_nonneg (by linarith) n)
          _ ≤ 1 := ih
  unfold growth
  linarith

variable {rnd : Rat -> Rat} (hrnd : forall x, |rnd x - x| ≤ u * |x|)

include hrnd

theorem abs_rnd_sub_le {x ideal magnitude : Rat} {n : Nat}
    (hideal : |ideal| ≤ magnitude)
    (h : |x - ideal| ≤ growth u n * magnitude) :
    |rnd x - ideal| ≤ growth u (n + 1) * magnitude := by
  have hx : |x| ≤ (1 + growth u n) * magnitude := by
    have htriangle : |x| ≤ |x - ideal| + |ideal| := by
      simpa using abs_add_le (x - ideal) ideal
    linarith
  have hround : |rnd x - x| ≤ u * ((1 + growth u n) * magnitude) :=
    (hrnd x).trans (mul_le_mul_of_nonneg_left hx hu)
  calc |rnd x - ideal|
      ≤ |rnd x - x| + |x - ideal| := abs_sub_le _ _ _
    _ ≤ u * ((1 + growth u n) * magnitude) + growth u n * magnitude :=
        add_le_add hround h
    _ = growth u (n + 1) * magnitude := by
        rw [growth_succ]
        ring

theorem abs_rnd_mul_sub_le (a b : Rat) :
    |rnd (rnd a * rnd b) - a * b| ≤ growth u 3 * |a * b| := by
  refine abs_rnd_sub_le hu hrnd le_rfl ?_
  have hb : |rnd b| ≤ (1 + u) * |b| := by
    have htriangle : |rnd b| ≤ |rnd b - b| + |b| := by
      simpa using abs_add_le (rnd b - b) b
    linarith [hrnd b]
  have hsplit : rnd a * rnd b - a * b = (rnd a - a) * rnd b + a * (rnd b - b) := by
    ring
  calc |rnd a * rnd b - a * b|
      ≤ |rnd a - a| * |rnd b| + |a| * |rnd b - b| := by
        rw [hsplit, ← abs_mul, ← abs_mul]
        exact abs_add_le _ _
    _ ≤ u * |a| * ((1 + u) * |b|) + |a| * (u * |b|) := by
        refine add_le_add (mul_le_mul (hrnd a) hb (abs_nonneg _)
          (mul_nonneg hu (abs_nonneg _))) ?_
        exact mul_le_mul_of_nonneg_left (hrnd b) (abs_nonneg _)
    _ = growth u 2 * |a * b| := by
        rw [growth_succ, growth_one, abs_mul]
        ring

/-- A running sum of near terms, rounded after every addition. -/
theorem abs_roundedSum_sub_le {terms : List (Rat × Rat)} {n : Nat}
    (hterms : forall t, t ∈ terms -> |t.1 - t.2| ≤ growth u n * |t.2|)
    {sum ideal magnitude : Rat} (hideal : |ideal| ≤ magnitude)
    (hsum : |sum - ideal| ≤ growth u n * magnitude) :
    |terms.foldl (fun s t => rnd (s + t.1)) sum -
        (ideal + (terms.map Prod.snd).sum)| ≤
      growth u (n + terms.length) *
        (magnitude + (terms.map (fun t => |t.2|)).sum) := by
  -- by induction on the terms; both the sums and the rounding count move on
  induction terms generalizing sum ideal magnitude n with
  | nil => simpa using hsum
  | cons t rest ih =>
      have hnew : |sum + t.1 - (ideal + t.2)| ≤
          growth u n * (magnitude + |t.2|) := by
        have hhead := hterms t List.mem_cons_self
        calc |sum + t.1 - (ideal + t.2)|
            = |(sum - ideal) + (t.1 - t.2)| := by ring_nf
          _ ≤ |sum - ideal| + |t.1 - t.2| := abs_add_le _ _
          _ ≤ growth u n * (magnitude + |t.2|) := by linarith
      have hbound : |ideal + t.2| ≤ magnitude + |t.2| :=
        (abs_add_le _ _).trans (by linarith)
      have hlater : forall t', t' ∈ rest ->
          |t'.1 - t'.2| ≤ growth u (n + 1) * |t'.2| := by
        intro t' ht'
        refine (hterms t' (List.mem_cons_of_mem _ ht')).trans ?_
        exact mul_le_mul_of_nonneg_right (growth_mono hu (Nat.le_succ n))
          (abs_nonneg _)
      have hrest := ih hlater hbound (abs_rnd_sub_le hu hrnd hbound hnew)
      rw [List.foldl_cons, List.map_cons, List.map_cons, List.sum_cons,
        List.sum_cons, List.length_cons, Nat.add_comm rest.length 1,
        ← Nat.add_assoc, ← add_assoc ideal, ← add_assoc magnitude]
      exact hrest

theorem abs_roundedSum_le {terms : List (Rat × Rat)} {n : Nat}
    (hterms : forall t, t ∈ terms -> |t.1 - t.2| ≤ growth u n * |t.2|) :
    |terms.foldl (fun s t => rnd (s + t.1)) 0 - (terms.map Prod.snd).sum| ≤
      growth u (n + terms.length) * (terms.map (fun t => |t.2|)).sum := by
  have hideal : |(0 : Rat)| ≤ 0 := by simp
  have hstart : |(0 : Rat) - 0| ≤ growth u n * 0 := by simp
  have h := abs_roundedSum_sub_le hu hrnd hterms hideal hstart
  rwa [zero_add, zero_add] at h

end Sums

end Foundation
end ExpressEcommerce
