import ExpressEcommerce.Foundation.Interleaving

/-!
# Marked threads

To speak about what has happened in a run, every thread gets a mark that is set
once one of its commands has had a certain reply.  The marks change nothing else:
every run is the run of some marked pool.
-/

namespace ExpressEcommerce
namespace Foundation

variable {I : Interface} {alpha shared priv : Type}

/-- The same system, with marks that remember the replies in `marks`. -/
def System.marking (S : System I shared priv)
    (marks : (c : I.Cmd) -> I.Reply c -> Bool) :
    System I shared (priv × Bool) where
  next := fun s c r s' => S.next (s.1, s.2.1) c r (s'.1, s'.2.1) ∧
    s'.2.2 = (s.2.2 || marks c r)
  enabled := fun others c => S.enabled (others.map Prod.fst) c

/-- Marks can be set while a schedule is executed. -/
def markingExec (exec : (c : I.Cmd) -> shared × priv ->
      I.Reply c × (shared × priv))
    (marks : (c : I.Cmd) -> I.Reply c -> Bool) (c : I.Cmd)
    (s : shared × (priv × Bool)) : I.Reply c × (shared × (priv × Bool)) :=
  let answer := exec c (s.1, s.2.1)
  (answer.1, (answer.2.1, (answer.2.2, s.2.2 || marks c answer.1)))

theorem next_markingExec {S : System I shared priv}
    {exec : (c : I.Cmd) -> shared × priv -> I.Reply c × (shared × priv)}
    {marks : (c : I.Cmd) -> I.Reply c -> Bool}
    (hexec : forall c s, S.next s c (exec c s).1 (exec c s).2) (c : I.Cmd)
    (s : shared × (priv × Bool)) :
    (S.marking marks).next s c (markingExec exec marks c s).1
      (markingExec exec marks c s).2 :=
  ⟨hexec c (s.1, s.2.1), rfl⟩

namespace Pool

def unmark (pool : Pool I shared (priv × Bool) alpha) :
    Pool I shared priv alpha :=
  ⟨pool.shared, pool.threads.map (fun t => ⟨t.here.1, t.prog⟩)⟩

theorem others_unmark (pool : Pool I shared (priv × Bool) alpha) (i : Nat) :
    pool.unmark.others i = (pool.others i).map Prod.fst := by
  unfold others unmark
  rw [List.eraseIdx_map, List.map_map, List.map_map]
  rfl

theorem step_marking {S : System I shared priv}
    (marks : (c : I.Cmd) -> I.Reply c -> Bool)
    {pool : Pool I shared (priv × Bool) alpha}
    {pool' : Pool I shared priv alpha} (h : Step S pool.unmark pool') :
    exists marked, Step (S.marking marks) pool marked ∧
      marked.unmark = pool' := by
  cases h with
  | @mk i here here' c k r s' hthread henabled hnext =>
      have hmap : (pool.threads.map
          (fun t => (⟨t.here.1, t.prog⟩ : Thread I priv alpha)))[i]? =
          some ⟨here, .call c k⟩ := hthread
      rw [List.getElem?_map] at hmap
      rcases Option.map_eq_some_iff.mp hmap with ⟨⟨⟨_, mark⟩, _⟩, hmarked, heq⟩
      cases heq
      rw [others_unmark] at henabled
      refine ⟨⟨s', pool.threads.set i ⟨(here', mark || marks c r), k r⟩⟩,
        Step.mk i hmarked henabled ⟨hnext, rfl⟩, ?_⟩
      unfold unmark
      rw [List.map_set]

/-- Every run is the run of a marked pool. -/
theorem reaches_marking {S : System I shared priv}
    (marks : (c : I.Cmd) -> I.Reply c -> Bool)
    {pool : Pool I shared (priv × Bool) alpha}
    {pool' : Pool I shared priv alpha} (h : Reaches S pool.unmark pool') :
    exists marked, Reaches (S.marking marks) pool marked ∧
      marked.unmark = pool' := by
  generalize hstart : pool.unmark = start at h
  induction h with
  | refl => exact ⟨pool, .refl, hstart⟩
  | tail _ hstep ih =>
      rcases ih with ⟨mid, hreach, rfl⟩
      rcases step_marking marks hstep with ⟨marked, hlast, heq⟩
      exact ⟨marked, .tail hreach hlast, heq⟩

end Pool

end Foundation
end ExpressEcommerce
