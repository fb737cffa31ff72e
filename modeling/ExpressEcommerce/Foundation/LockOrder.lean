import Mathlib.Logic.Relation
import Mathlib.Order.Basic

/-!
# Locks that are taken in order

Threads hold locks, and a thread may want one more.  If no lock is held by two
threads and a thread that wants a new lock holds only locks of a smaller rank,
then no threads wait for each other in a cycle.
-/

namespace ExpressEcommerce
namespace Foundation

variable {thread lock rho : Type}

/-- A thread wants a lock that another thread holds. -/
def WaitsFor (wants : thread -> Option lock) (holds : thread -> lock -> Prop)
    (i j : thread) : Prop :=
  i ≠ j ∧ exists k, wants i = some k ∧ holds j k

def WaitCycle (wants : thread -> Option lock)
    (holds : thread -> lock -> Prop) : Prop :=
  exists i, Relation.TransGen (WaitsFor wants holds) i i

section Ranked

variable {wants : thread -> Option lock} {holds : thread -> lock -> Prop}
variable [Preorder rho] (rank : lock -> rho)
variable (hexclusive : forall i j k, holds i k -> holds j k -> i = j)
variable (hclimbs : forall i k l, wants i = some k -> ¬ holds i k ->
  holds i l -> rank l < rank k)

include hexclusive hclimbs

theorem rank_lt_of_waitsFor {i j m : thread} {k l : lock}
    (hij : WaitsFor wants holds i j) (hjm : WaitsFor wants holds j m)
    (hk : wants i = some k) (hl : wants j = some l) : rank k < rank l := by
  rcases hij with ⟨_, k', hk', hheld⟩
  rcases hjm with ⟨hne, l', hl', hheld'⟩
  rw [hk] at hk'
  rw [hl] at hl'
  cases hk'
  cases hl'
  -- the next thread in the chain holds the lock, so this one does not
  exact hclimbs j l k hl (fun hself => hne (hexclusive _ _ _ hself hheld'))
    hheld

theorem rank_lt_of_chain {i j m : thread} {k l : lock}
    (hij : Relation.TransGen (WaitsFor wants holds) i j)
    (hjm : WaitsFor wants holds j m) (hk : wants i = some k)
    (hl : wants j = some l) : rank k < rank l := by
  induction hij generalizing m l with
  | single hstep =>
      exact rank_lt_of_waitsFor rank hexclusive hclimbs hstep hjm hk hl
  | tail _ hstep ih =>
      have hnext := hstep
      rcases hstep with ⟨_, k', hk', _⟩
      exact lt_trans (ih hnext hk')
        (rank_lt_of_waitsFor rank hexclusive hclimbs hnext hjm hk' hl)

theorem no_waitCycle : ¬ WaitCycle wants holds := by
  rintro ⟨i, hcycle⟩
  rcases Relation.TransGen.head'_iff.mp hcycle with ⟨j, hfirst, _⟩
  have hwaits := hfirst
  rcases hfirst with ⟨_, k, hk, _⟩
  exact lt_irrefl _
    (rank_lt_of_chain rank hexclusive hclimbs hcycle hwaits hk hk)

end Ranked

end Foundation
end ExpressEcommerce
