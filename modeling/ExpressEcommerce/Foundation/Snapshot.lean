import Mathlib.Data.List.Basic
import Mathlib.Logic.Relation

/-!
# Check, then act

An abstract model of tasks that run side by side.  Each task reads the state
once and later acts in one step: what it does depends on the state it has read
and on the state it then finds.  Between the two other tasks may act.
-/

namespace ExpressEcommerce
namespace Foundation
namespace Snapshot

variable {state : Type}

inductive Progress (state : Type) where
  | waiting
  | read (base : state)
  | done

structure Config (state : Type) where
  current : state
  progress : List (Progress state)

/-- What the task with a number may do, from the state it has read and the one
it finds, to the one it leaves. -/
abbrev Acts (state : Type) : Type :=
  Nat -> state -> state -> state -> Prop

inductive Step (acts : Acts state) : Config state -> Config state -> Prop where
  | read {c : Config state} (i : Nat) :
      c.progress[i]? = some .waiting ->
      Step acts c ⟨c.current, c.progress.set i (.read c.current)⟩
  | act {c : Config state} (i : Nat) {base s : state} :
      c.progress[i]? = some (.read base) ->
      acts i base c.current s ->
      Step acts c ⟨s, c.progress.set i .done⟩

def Reaches (acts : Acts state) : Config state -> Config state -> Prop :=
  Relation.ReflTransGen (Step acts)

section Steps

variable {acts : Acts state}

/-- One task comes so far, and the others stay where they are. -/
def Advances (acts : Acts state) (i : Nat) (s : state) (p : Progress state)
    (s' : state) (p' : Progress state) : Prop :=
  forall progress, progress[i]? = some p ->
    Reaches acts ⟨s, progress⟩ ⟨s', progress.set i p'⟩

theorem advances_refl (i : Nat) (s : state) (p : Progress state) :
    Advances acts i s p s p := by
  intro progress hi
  rcases List.getElem?_eq_some_iff.mp hi with ⟨hlt, hget⟩
  rw [← hget, List.set_getElem_self hlt]
  exact Relation.ReflTransGen.refl

theorem advances_read (i : Nat) (s : state) :
    Advances acts i s .waiting s (.read s) := by
  intro progress hi
  exact .single (.read i hi)

theorem advances_act {i : Nat} {base s s' : state}
    (hact : acts i base s s') :
    Advances acts i s (.read base) s' .done := by
  intro progress hi
  exact .single (.act i hi hact)

theorem Advances.trans {i : Nat} {s mid s' : state}
    {p q p' : Progress state} (h1 : Advances acts i s p mid q)
    (h2 : Advances acts i mid q s' p') : Advances acts i s p s' p' := by
  intro progress hi
  have hlt := (List.getElem?_eq_some_iff.mp hi).1
  have hrest := h2 (progress.set i q) (List.getElem?_set_self hlt)
  rw [List.set_set] at hrest
  exact (h1 progress hi).trans hrest

theorem done_of_reaches {c c' : Config state} (h : Reaches acts c c')
    {k : Nat} (hk : c.progress[k]? = some .done) :
    c'.progress[k]? = some .done := by
  induction h with
  | refl => exact hk
  | tail _ hstep ih =>
      cases hstep with
      | read i hi =>
          have hne : i ≠ k := by
            rintro rfl
            rw [ih] at hi
            cases hi
          rw [List.getElem?_set_ne hne]
          exact ih
      | act i hi _ =>
          have hne : i ≠ k := by
            rintro rfl
            rw [ih] at hi
            cases hi
          rw [List.getElem?_set_ne hne]
          exact ih

theorem not_waiting_of_reaches {c c' : Config state} (h : Reaches acts c c')
    {k : Nat} (hk : c.progress[k]? ≠ some .waiting) :
    c'.progress[k]? ≠ some .waiting := by
  induction h with
  | refl => exact hk
  | tail _ hstep ih =>
      cases hstep with
      | read i hi =>
          rw [List.getElem?_set]
          split
          · split <;> simp
          · exact ih
      | act i hi _ =>
          rw [List.getElem?_set]
          split
          · split <;> simp
          · exact ih

theorem first_act {c c' : Config state} (h : Reaches acts c c')
    (hready : forall k : Nat, c.progress[k]? ≠ some .waiting) :
    c' = c ∨ exists k base s, c.progress[k]? = some (.read base) ∧
      acts k base c.current s ∧
      Reaches acts ⟨s, c.progress.set k .done⟩ c' ∧
      c'.progress[k]? = some .done := by
  rcases Relation.ReflTransGen.cases_head h with rfl | ⟨d, hstep, hrest⟩
  · exact Or.inl rfl
  · cases hstep with
    | read k hk => exact absurd hk (hready k)
    | @act k base s hk hact =>
        have hlt := (List.getElem?_eq_some_iff.mp hk).1
        refine Or.inr ⟨k, base, s, hk, hact, hrest, ?_⟩
        exact done_of_reaches hrest (List.getElem?_set_self hlt)

theorem current_of_reaches_same {c c' : Config state}
    (h : Reaches acts c c')
    (hready : forall k : Nat, c.progress[k]? ≠ some .waiting)
    (hsame : c'.progress = c.progress) : c'.current = c.current := by
  rcases first_act h hready with rfl | ⟨k, base, s, hk, _, _, hdone⟩
  · rfl
  · rw [hsame, hk] at hdone
    cases hdone

theorem acts_of_reaches {c c' : Config state} (h : Reaches acts c c')
    (hready : forall k : Nat, c.progress[k]? ≠ some .waiting) {i : Nat}
    {base : state} (hi : c.progress[i]? = some (.read base))
    (hset : c'.progress = c.progress.set i .done) :
    acts i base c.current c'.current := by
  have hlt := (List.getElem?_eq_some_iff.mp hi).1
  have hself : c'.progress[i]? = some .done := by
    rw [hset]
    exact List.getElem?_set_self hlt
  rcases first_act h hready with rfl | ⟨k, base', s, hk, hact, hrest, hdone⟩
  · rw [hi] at hself
    cases hself
  · have hki : k = i := by
      by_contra hne
      rw [hset, List.getElem?_set_ne (Ne.symm hne), hk] at hdone
      cases hdone
    subst hki
    rw [hi] at hk
    cases hk
    have hready' : forall j : Nat,
        (c.progress.set k .done)[j]? ≠ some .waiting := by
      intro j hj
      by_cases hkj : k = j
      · subst hkj
        rw [List.getElem?_set_self hlt] at hj
        cases hj
      · rw [List.getElem?_set_ne hkj] at hj
        exact hready j hj
    have hcurrent := current_of_reaches_same hrest hready' hset
    rw [hcurrent]
    exact hact

end Steps

/-!
# Two tasks
-/

section Two

variable {acts : Acts state}

/-- One task after the other. -/
def Serial (acts : Acts state) (i j : Nat) (s s' : state) : Prop :=
  exists mid, acts i s s mid ∧ acts j mid mid s'

/-- Both tasks have read before one of them acts. -/
def Stale (acts : Acts state) (i j : Nat) (s s' : state) : Prop :=
  exists mid, acts i s s mid ∧ acts j s mid s'

/-- The ways in which two tasks may have gone. -/
def Outcome (acts : Acts state) (s s' : state) : Prop :=
  Serial acts 0 1 s s' ∨ Serial acts 1 0 s s' ∨ Stale acts 0 1 s s' ∨
    Stale acts 1 0 s s'

theorem reaches_ends {s : state} {p q : Progress state}
    (hp : Advances acts 0 s p s .done) (hq : Advances acts 1 s q s .done) :
    Reaches acts ⟨s, [p, q]⟩ ⟨s, [.done, .done]⟩ :=
  (hp [p, q] rfl).trans (hq [.done, q] rfl)

/-- What is known when the tasks have come so far. -/
def Known (acts : Acts state) (start s : state) :
    Progress state -> Progress state -> Prop
  | .waiting, .waiting => s = start
  | .read base, .waiting => base = start ∧ s = start
  | .waiting, .read base => base = start ∧ s = start
  | .read base, .read base' =>
      base = start ∧ base' = start ∧ s = start
  | .done, .waiting => acts 0 start start s
  | .waiting, .done => acts 1 start start s
  | .done, .read base =>
      acts 0 start start s ∧ (base = start ∨ base = s)
  | .read base, .done =>
      acts 1 start start s ∧ (base = start ∨ base = s)
  | .done, .done => Outcome acts start s

theorem known_read {start s : state} {p q : Progress state}
    (h : Known acts start s p q) :
    (p = .waiting -> Known acts start s (.read s) q) ∧
      (q = .waiting -> Known acts start s p (.read s)) := by
  constructor
  · intro hp
    subst hp
    cases q with
    | waiting => exact ⟨h, h⟩
    | read base =>
        rcases h with ⟨hbase, hs⟩
        exact ⟨hs, hbase, hs⟩
    | done => exact ⟨h, Or.inr rfl⟩
  · intro hq
    subst hq
    cases p with
    | waiting => exact ⟨h, h⟩
    | read base =>
        rcases h with ⟨hbase, hs⟩
        exact ⟨hbase, hs, hs⟩
    | done => exact ⟨h, Or.inr rfl⟩

theorem known_act_first {start s s' base : state} {q : Progress state}
    (h : Known acts start s (.read base) q)
    (hact : acts 0 base s s') :
    Known acts start s' .done q := by
  cases q with
  | waiting =>
      rcases h with ⟨hbase, hs⟩
      subst hbase
      rw [show s = base from hs] at hact
      exact hact
  | read base' =>
      rcases h with ⟨hbase, hbase', hs⟩
      subst hbase
      rw [show s = base from hs] at hact
      exact ⟨hact, Or.inl hbase'⟩
  | done =>
      rcases h with ⟨hother, hbase | hbase⟩
      · subst hbase
        exact Or.inr (Or.inr (Or.inr ⟨s, hother, hact⟩))
      · rw [show base = s from hbase] at hact
        exact Or.inr (Or.inl ⟨s, hother, hact⟩)

theorem known_act_second {start s s' base : state} {p : Progress state}
    (h : Known acts start s p (.read base))
    (hact : acts 1 base s s') :
    Known acts start s' p .done := by
  cases p with
  | waiting =>
      rcases h with ⟨hbase, hs⟩
      subst hbase
      rw [show s = base from hs] at hact
      exact hact
  | read base' =>
      rcases h with ⟨hbase', hbase, hs⟩
      subst hbase
      rw [show s = base from hs] at hact
      exact ⟨hact, Or.inl hbase'⟩
  | done =>
      rcases h with ⟨hother, hbase | hbase⟩
      · subst hbase
        exact Or.inr (Or.inr (Or.inl ⟨s, hother, hact⟩))
      · rw [show base = s from hbase] at hact
        exact Or.inl ⟨s, hother, hact⟩

theorem known_of_reaches {start : state} {c : Config state}
    (h : Reaches acts ⟨start, [.waiting, .waiting]⟩ c) :
    exists p q, c.progress = [p, q] ∧ Known acts start c.current p q := by
  induction h with
  | refl => exact ⟨.waiting, .waiting, rfl, rfl⟩
  | @tail c c' _ hstep ih =>
      rcases ih with ⟨p, q, hprogress, hknown⟩
      rcases c with ⟨s, progress⟩
      have hprogress : progress = [p, q] := hprogress
      subst hprogress
      cases hstep with
      | read i hi =>
          rcases i with _ | _ | i
          · exact ⟨_, _, rfl, (known_read hknown).left (Option.some.inj hi)⟩
          · exact ⟨_, _, rfl, (known_read hknown).right (Option.some.inj hi)⟩
          · cases hi
      | act i hi hact =>
          rcases i with _ | _ | i
          · have hp := Option.some.inj hi
            subst hp
            exact ⟨_, _, rfl, known_act_first hknown hact⟩
          · have hq := Option.some.inj hi
            subst hq
            exact ⟨_, _, rfl, known_act_second hknown hact⟩
          · cases hi

/-- Two tasks that have both ended went one after the other, or both of them
read the state at the start. -/
theorem outcome_of_reaches {start final : state}
    (h : Reaches acts ⟨start, [.waiting, .waiting]⟩ ⟨final, [.done, .done]⟩) :
    Outcome acts start final := by
  rcases known_of_reaches h with ⟨p, q, hprogress, hknown⟩
  cases hprogress
  exact hknown

end Two

end Snapshot
end Foundation
end ExpressEcommerce
