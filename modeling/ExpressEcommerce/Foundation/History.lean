import ExpressEcommerce.Foundation.Interleaving

/-!
# Histories

A system can be made to record the shared states it has passed.  What a run is
said to have seen earlier is then a statement about its last state.  Every run
can be recorded, and a recorded run is a run.
-/

namespace ExpressEcommerce
namespace Foundation

variable {I : Interface} {alpha shared priv : Type}

/-- The shared state comes with those before it, the latest first. -/
def System.recorded (S : System I shared priv) :
    System I (shared × List shared) priv where
  next := fun s c r s' =>
    S.next (s.1.1, s.2) c r (s'.1.1, s'.2) ∧ s'.1.2 = s.1.1 :: s.1.2
  enabled := S.enabled

/-- Something has held of the shared state, now or earlier. -/
def Once (R : shared -> Prop) (s : shared × List shared) : Prop :=
  exists old, old ∈ s.1 :: s.2 ∧ R old

theorem once_now {R : shared -> Prop} {s : shared × List shared} (h : R s.1) :
    Once R s :=
  ⟨s.1, List.mem_cons_self, h⟩

theorem Once.later {R : shared -> Prop} {s s' : shared × List shared}
    (h : Once R s) (hpast : s'.2 = s.1 :: s.2) : Once R s' := by
  rcases h with ⟨old, hold, hR⟩
  refine ⟨old, ?_, hR⟩
  rw [hpast]
  exact List.mem_cons_of_mem _ hold

namespace Pool

def recorded (pool : Pool I shared priv alpha) (past : List shared) :
    Pool I (shared × List shared) priv alpha where
  shared := (pool.shared, past)
  threads := pool.threads

theorem step_recorded {S : System I shared priv}
    {pool pool' : Pool I shared priv alpha} (h : Step S pool pool')
    (past : List shared) :
    Step S.recorded (pool.recorded past)
      (pool'.recorded (pool.shared :: past)) := by
  cases h with
  | @mk i here here' c k r s' hthread henabled hnext =>
      have hrecorded : S.recorded.next ((pool.shared, past), here) c r
          ((s', pool.shared :: past), here') := ⟨hnext, rfl⟩
      exact Step.mk i hthread henabled hrecorded

/-- Every run has a history. -/
theorem reaches_recorded {S : System I shared priv}
    {pool pool' : Pool I shared priv alpha} (h : Reaches S pool pool') :
    exists past, Reaches S.recorded (pool.recorded []) (pool'.recorded past) := by
  induction h with
  | refl => exact ⟨[], Relation.ReflTransGen.refl⟩
  | tail _ hstep ih =>
      rcases ih with ⟨past, hpast⟩
      exact ⟨_, hpast.tail (step_recorded hstep past)⟩

theorem reaches_monotone {S : System I shared priv} {R : shared -> shared -> Prop}
    (hrefl : forall s, R s s) (htrans : forall {a b c}, R a b -> R b c -> R a c)
    (hstep : forall {s c r s'}, S.next s c r s' -> R s.1 s'.1)
    {pool pool' : Pool I shared priv alpha} {past : List shared}
    (h : Reaches S.recorded (pool.recorded []) (pool'.recorded past)) :
    forall old, old ∈ pool'.shared :: past -> R old pool'.shared := by
  have hall : forall last : Pool I (shared × List shared) priv alpha,
      Reaches S.recorded (pool.recorded []) last ->
        forall old, old ∈ last.shared.1 :: last.shared.2 ->
          R old last.shared.1 := by
    intro last hreach
    induction hreach with
    | refl =>
        intro old hold
        rw [List.mem_singleton.mp hold]
        exact hrefl _
    | tail _ hlast ih =>
        cases hlast with
        | mk i hthread henabled hnext =>
            intro old hold
            rcases List.mem_cons.mp hold with rfl | hpast
            · exact hrefl _
            · rw [hnext.right] at hpast
              exact htrans (ih old hpast) (hstep hnext.left)
  exact hall _ h

end Pool

end Foundation
end ExpressEcommerce
