import Mathlib.Algebra.BigOperators.Group.List.Basic
import Mathlib.Algebra.Order.Ring.Int
import Mathlib.Data.List.Forall2
import Mathlib.Data.List.Nodup

/-!
# Keyed tables

A table is a list of rows with an integer primary key that a sequence hands
out.  Key uniqueness and the bound on used keys are fields of the structure, so
that every table is one a relational database can hold.  Rows are inserted and
modified, never removed.
-/

namespace ExpressEcommerce
namespace Foundation

/-!
# Lists that are related entry by entry
-/

theorem exists_left_of_mem {alpha beta : Type} {R : alpha -> beta -> Prop}
    {xs : List alpha} {ys : List beta} (h : List.Forall₂ R xs ys) {y : beta}
    (hy : y ∈ ys) : exists x, x ∈ xs ∧ R x y := by
  induction h with
  | nil => cases hy
  | cons hxy _ ih =>
      rcases List.mem_cons.mp hy with rfl | hrest
      · exact ⟨_, List.mem_cons_self, hxy⟩
      · rcases ih hrest with ⟨x, hmem, hx⟩
        exact ⟨x, List.mem_cons_of_mem _ hmem, hx⟩

class Keyed (rho : Type) where
  key : rho -> Int

open Keyed (key)

variable {rho : Type} [Keyed rho]

@[ext] structure Table (rho : Type) [Keyed rho] where
  rows : List rho
  /-- The next value of the key sequence. -/
  seq : Int
  nodup : (rows.map key).Nodup
  below : forall r, r ∈ rows -> key r < seq

namespace Table

def find? (t : Table rho) (id : Int) : Option rho :=
  t.rows.find? (fun r => decide (key r = id))

/-- Sequences are advanced outside of transactions and never go back. -/
def reserve (t : Table rho) : Table rho where
  rows := t.rows
  seq := t.seq + 1
  nodup := t.nodup
  below := fun r hr => by
    have := t.below r hr
    omega

def modify (t : Table rho) (id : Int) (f : rho -> rho)
    (hf : forall r, key (f r) = key r) : Table rho where
  rows := t.rows.map (fun r => if key r = id then f r else r)
  seq := t.seq
  nodup := by
    have hkeys :
        (t.rows.map (fun r => if key r = id then f r else r)).map key =
          t.rows.map key := by
      rw [List.map_map]
      apply List.map_congr_left
      intro r _
      simp only [Function.comp_apply]
      split
      · exact hf r
      · rfl
    rw [hkeys]
    exact t.nodup
  below := by
    intro r hr
    rcases List.mem_map.mp hr with ⟨r0, hr0, rfl⟩
    split
    · rw [hf]
      exact t.below r0 hr0
    · exact t.below r0 hr0

/-- Every row replaced by one with the same key. -/
def mapRows (t : Table rho) (f : rho -> rho)
    (hf : forall r, key (f r) = key r) : Table rho where
  rows := t.rows.map f
  seq := t.seq
  nodup := by
    have hkeys : (t.rows.map f).map key = t.rows.map key := by
      rw [List.map_map]
      exact List.map_congr_left (fun r _ => hf r)
    rw [hkeys]
    exact t.nodup
  below := by
    intro r hr
    rcases List.mem_map.mp hr with ⟨r0, hr0, rfl⟩
    rw [hf]
    exact t.below r0 hr0

/-- Insertion of a row whose key was reserved before; a key that is in use or
was never handed out is refused. -/
def insert (t : Table rho) (r : rho) : Table rho :=
  if h : key r < t.seq ∧ t.find? (key r) = none then
    { rows := t.rows ++ [r]
      seq := t.seq
      nodup := by
        have hfresh : key r ∉ t.rows.map key := by
          intro hmem
          rcases List.mem_map.mp hmem with ⟨r0, hr0, hkey⟩
          have := List.find?_eq_none.mp h.right r0 hr0
          simp [hkey] at this
        rw [List.map_append, List.nodup_append]
        refine ⟨t.nodup, List.nodup_singleton _, ?_⟩
        intro a ha b hb hab
        rw [List.map_singleton, List.mem_singleton] at hb
        rw [hab, hb] at ha
        exact hfresh ha
      below := by
        intro r0 hr0
        rcases List.mem_append.mp hr0 with hold | hnew
        · exact t.below r0 hold
        · rw [List.mem_singleton.mp hnew]
          exact h.left }
  else t

/-!
# Lookup

Since keys are unique, looking a key up and being a row with that key are the
same thing.
-/

theorem find?_eq_some_iff {t : Table rho} {id : Int} {r : rho} :
    t.find? id = some r <-> r ∈ t.rows ∧ key r = id := by
  constructor
  · intro h
    exact ⟨List.mem_of_find?_eq_some h, by simpa using List.find?_some h⟩
  · rintro ⟨hmem, hkey⟩
    unfold find?
    cases hfind : t.rows.find? (fun r => decide (key r = id)) with
    | none =>
        have := List.find?_eq_none.mp hfind r hmem
        simp [hkey] at this
    | some r0 =>
        have hmem0 := List.mem_of_find?_eq_some hfind
        have hkey0 : key r0 = id := by simpa using List.find?_some hfind
        have : r0 = r :=
          List.inj_on_of_nodup_map t.nodup hmem0 hmem (hkey0.trans hkey.symm)
        rw [this]

theorem find?_eq_none_iff {t : Table rho} {id : Int} :
    t.find? id = none <-> forall r, r ∈ t.rows -> key r ≠ id := by
  unfold find?
  simp [List.find?_eq_none]

theorem find?_of_mem {t : Table rho} {r : rho} (h : r ∈ t.rows) :
    t.find? (key r) = some r :=
  find?_eq_some_iff.mpr ⟨h, rfl⟩

theorem lt_seq_of_find? {t : Table rho} {id : Int} {r : rho}
    (h : t.find? id = some r) : id < t.seq := by
  rcases find?_eq_some_iff.mp h with ⟨hmem, rfl⟩
  exact t.below r hmem

theorem find?_seq (t : Table rho) : t.find? t.seq = none := by
  cases h : t.find? t.seq with
  | none => rfl
  | some r => exact absurd (lt_seq_of_find? h) (lt_irrefl _)

@[simp] theorem reserve_rows (t : Table rho) : t.reserve.rows = t.rows := rfl

@[simp] theorem reserve_seq (t : Table rho) : t.reserve.seq = t.seq + 1 := rfl

@[simp] theorem reserve_find? (t : Table rho) (id : Int) :
    t.reserve.find? id = t.find? id := rfl

@[simp] theorem modify_seq (t : Table rho) (id : Int) (f : rho -> rho)
    (hf : forall r, key (f r) = key r) : (t.modify id f hf).seq = t.seq := rfl

theorem find?_modify (t : Table rho) (id : Int) (f : rho -> rho)
    (hf : forall r, key (f r) = key r) (j : Int) :
    (t.modify id f hf).find? j =
      if j = id then (t.find? j).map f else t.find? j := by
  cases hfind : t.find? j with
  | none =>
      have hnone : (t.modify id f hf).find? j = none := by
        rw [find?_eq_none_iff] at hfind ⊢
        intro r hr
        rcases List.mem_map.mp hr with ⟨r0, hr0, rfl⟩
        split
        · rw [hf]
          exact hfind r0 hr0
        · exact hfind r0 hr0
      rw [hnone]
      split <;> rfl
  | some r =>
      rcases find?_eq_some_iff.mp hfind with ⟨hmem, hkey⟩
      have hrow : (if key r = id then f r else r) ∈ (t.modify id f hf).rows :=
        List.mem_map.mpr ⟨r, hmem, rfl⟩
      by_cases hj : j = id
      · rw [if_pos hj]
        rw [if_pos (hkey.trans hj)] at hrow
        exact find?_eq_some_iff.mpr ⟨hrow, (hf r).trans hkey⟩
      · rw [if_neg hj]
        rw [if_neg (fun h => hj (hkey.symm.trans h))] at hrow
        exact find?_eq_some_iff.mpr ⟨hrow, hkey⟩

theorem isSome_find?_modify (t : Table rho) (id : Int) (f : rho -> rho)
    (hf : forall r, key (f r) = key r) (j : Int) :
    ((t.modify id f hf).find? j).isSome = (t.find? j).isSome := by
  rw [find?_modify]
  split <;> simp

theorem insert_of_fresh {t : Table rho} {r : rho} (hlt : key r < t.seq)
    (hfresh : t.find? (key r) = none) : (t.insert r).rows = t.rows ++ [r] := by
  unfold insert
  rw [dif_pos ⟨hlt, hfresh⟩]

@[simp] theorem insert_seq (t : Table rho) (r : rho) :
    (t.insert r).seq = t.seq := by
  unfold insert
  split <;> rfl

theorem find?_insert_of_fresh {t : Table rho} {r : rho} (hlt : key r < t.seq)
    (hfresh : t.find? (key r) = none) (j : Int) :
    (t.insert r).find? j = if j = key r then some r else t.find? j := by
  unfold find? at hfresh ⊢
  rw [insert_of_fresh hlt hfresh, List.find?_append]
  by_cases hj : j = key r
  · subst hj
    rw [if_pos rfl, hfresh]
    simp
  · rw [if_neg hj]
    have hne : key r ≠ j := fun h => hj h.symm
    cases List.find? (fun r => decide (key r = j)) t.rows <;> simp [hne]

theorem find?_insert (t : Table rho) (r : rho) (j : Int) :
    (t.insert r).find? j = t.find? j ∨
      j = key r ∧ (t.insert r).find? j = some r := by
  by_cases hfresh : key r < t.seq ∧ t.find? (key r) = none
  · rw [find?_insert_of_fresh hfresh.left hfresh.right]
    by_cases hj : j = key r
    · exact Or.inr ⟨hj, if_pos hj⟩
    · exact Or.inl (if_neg hj)
  · unfold insert
    rw [dif_neg hfresh]
    exact Or.inl rfl

theorem isSome_find?_insert {t : Table rho} {r : rho} {j : Int}
    (h : (t.find? j).isSome = true) :
    ((t.insert r).find? j).isSome = true := by
  by_cases hcond : key r < t.seq ∧ t.find? (key r) = none
  · rw [find?_insert_of_fresh hcond.left hcond.right]
    split
    · rfl
    · exact h
  · unfold insert
    rw [dif_neg hcond]
    exact h

theorem mem_insert {t : Table rho} {r x : rho} (h : x ∈ (t.insert r).rows) :
    x ∈ t.rows ∨ x = r := by
  unfold insert at h
  split at h
  · rcases List.mem_append.mp h with hold | hnew
    · exact Or.inl hold
    · exact Or.inr (List.mem_singleton.mp hnew)
  · exact Or.inl h

theorem mem_modify {t : Table rho} {id : Int} {f : rho -> rho}
    {hf : forall r, key (f r) = key r} {x : rho}
    (h : x ∈ (t.modify id f hf).rows) :
    exists r, r ∈ t.rows ∧ x = if key r = id then f r else r := by
  rcases List.mem_map.mp h with ⟨r, hr, rfl⟩
  exact ⟨r, hr, rfl⟩

theorem find?_mapRows (t : Table rho) {f : rho -> rho}
    (hf : forall r, key (f r) = key r) (id : Int) :
    (t.mapRows f hf).find? id = (t.find? id).map f := by
  unfold find? mapRows
  rw [List.find?_map]
  congr 2
  funext r
  rw [Function.comp_apply, hf]

theorem mapRows_modify (t : Table rho) {f g : rho -> rho}
    (hf : forall r, key (f r) = key r) (hg : forall r, key (g r) = key r)
    (hfg : forall r, f (g r) = g (f r)) (id : Int) :
    (t.modify id g hg).mapRows f hf = (t.mapRows f hf).modify id g hg := by
  refine Table.ext ?_ rfl
  unfold mapRows modify
  simp only [List.map_map]
  apply List.map_congr_left
  intro r _
  simp only [Function.comp_apply, hf]
  split
  · exact hfg r
  · rfl

/-!
# Sums over a table
-/

def sum (t : Table rho) (g : rho -> Int) : Int :=
  (t.rows.map g).sum

@[simp] theorem reserve_sum (t : Table rho) (g : rho -> Int) :
    t.reserve.sum g = t.sum g := rfl

theorem sum_congr {t : Table rho} {g h : rho -> Int}
    (hgh : forall r, r ∈ t.rows -> g r = h r) : t.sum g = t.sum h := by
  unfold sum
  rw [List.map_congr_left hgh]

theorem sum_add (t : Table rho) (g h : rho -> Int) :
    t.sum (fun r => g r + h r) = t.sum g + t.sum h := by
  unfold sum
  exact List.sum_map_add

theorem sum_insert_of_fresh {t : Table rho} {r : rho} (hlt : key r < t.seq)
    (hfresh : t.find? (key r) = none) (g : rho -> Int) :
    (t.insert r).sum g = t.sum g + g r := by
  unfold sum
  rw [insert_of_fresh hlt hfresh]
  simp

theorem sum_modify (t : Table rho) (id : Int) (f : rho -> rho)
    (hf : forall r, key (f r) = key r) (g : rho -> Int) :
    (t.modify id f hf).sum g =
      t.sum g + (t.find? id).elim 0 (fun r => g (f r) - g r) := by
  have hkeys := t.nodup
  unfold sum modify find?
  dsimp only
  generalize t.rows = rows at hkeys ⊢
  induction rows with
  | nil => rfl
  | cons r rest ih =>
      rw [List.map_cons, List.nodup_cons] at hkeys
      rw [List.map_cons, List.map_cons, List.sum_cons, List.map_cons,
        List.sum_cons, List.find?_cons]
      by_cases hr : key r = id
      · -- the other rows have other keys
        have hrest : rest.map (fun r => if key r = id then f r else r) =
            rest := by
          conv_rhs => rw [← List.map_id rest]
          apply List.map_congr_left
          intro r' hr'
          apply if_neg
          intro hkey
          exact hkeys.left (List.mem_map.mpr ⟨r', hr', hkey.trans hr.symm⟩)
        rw [hrest, if_pos hr, decide_eq_true hr]
        show g (f r) + _ = g r + _ + (g (f r) - g r)
        omega
      · rw [ih hkeys.right, if_neg hr, decide_eq_false hr, Int.add_assoc]

end Table

end Foundation
end ExpressEcommerce
