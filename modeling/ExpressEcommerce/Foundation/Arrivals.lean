import ExpressEcommerce.Foundation.Interleaving

/-!
# Arrivals

Threads may also join a pool while it runs.  A server has a door with a state of
its own: it decides which requests come in, and it sees the results that go out.
What happens at the door does not touch the pool, and a thread that has not yet
begun disturbs no other.  So the pool of a server is reached like one in which
all requests were there from the beginning.
-/

namespace ExpressEcommerce
namespace Foundation

variable {I : Interface} {alpha shared priv rho front gamma : Type}

/-- How requests of a type come in and results go out.  What comes in may depend
on the shared state and on the local states of the threads. -/
structure Door (shared priv rho alpha front : Type) where
  enters : shared -> List priv -> front -> rho -> front -> Prop
  leaves : front -> rho -> alpha -> front -> Prop

/-- A pool with its door.  Thread `i` runs request `i`; the results of the
threads in the last list have gone out. -/
structure Server (I : Interface) (shared priv alpha rho front : Type) where
  front : front
  pool : Pool I shared priv alpha
  visits : List rho
  answered : List Nat

namespace Server

def opened (first : front) (s : shared) :
    Server I shared priv alpha rho front :=
  ⟨first, ⟨s, []⟩, [], []⟩

section Steps

variable (S : System I shared priv) (D : Door shared priv rho alpha front)
variable (idle : priv) (code : rho -> Prog I alpha)

inductive Step : Server I shared priv alpha rho front ->
    Server I shared priv alpha rho front -> Prop where
  | enter {s : Server I shared priv alpha rho front} {q : rho} {f : front}
      (hdoor : D.enters s.pool.shared (s.pool.threads.map Thread.here) s.front
        q f) :
      Step s ⟨f, ⟨s.pool.shared, s.pool.threads ++ [⟨idle, code q⟩]⟩,
        s.visits ++ [q], s.answered⟩
  | work {s : Server I shared priv alpha rho front}
      {pool : Pool I shared priv alpha} (hstep : Pool.Step S s.pool pool) :
      Step s ⟨s.front, pool, s.visits, s.answered⟩
  | leave {s : Server I shared priv alpha rho front} (i : Nat) {q : rho}
      {here : priv} {a : alpha} {f : front} (hnew : i ∉ s.answered)
      (hvisit : s.visits[i]? = some q)
      (hend : s.pool.threads[i]? = some ⟨here, .ret a⟩)
      (hdoor : D.leaves s.front q a f) :
      Step s ⟨f, s.pool, s.visits, i :: s.answered⟩

def Reaches : Server I shared priv alpha rho front ->
    Server I shared priv alpha rho front -> Prop :=
  Relation.ReflTransGen (Step S D idle code)

end Steps

variable {S : System I shared priv} {D : Door shared priv rho alpha front}
variable {idle : priv} {code : rho -> Prog I alpha}

theorem reaches_work {s : Server I shared priv alpha rho front}
    {pool : Pool I shared priv alpha} (h : Pool.Reaches S s.pool pool) :
    Reaches S D idle code s ⟨s.front, pool, s.visits, s.answered⟩ := by
  induction h with
  | refl => exact Relation.ReflTransGen.refl
  | tail _ hstep ih => exact ih.tail (.work hstep)

theorem reaches_alone {exec : (c : I.Cmd) -> shared × priv ->
      I.Reply c × (shared × priv)}
    (hexec : forall c s, S.next s c (exec c s).1 (exec c s).2)
    {threads : List (Thread I priv alpha)}
    (henabled : forall c, S.enabled (threads.map Thread.here) c)
    (p : Prog I alpha) (s : shared) (here : priv) :
    Pool.Reaches S ⟨s, threads ++ [⟨here, p⟩]⟩
      ⟨(p.eval exec (s, here)).2.1,
        threads ++ [⟨(p.eval exec (s, here)).2.2,
          .ret (p.eval exec (s, here)).1⟩]⟩ := by
  induction p generalizing s here with
  | ret a => exact Relation.ReflTransGen.refl
  | call c k ih =>
      have hothers : (⟨s, threads ++ [⟨here, .call c k⟩]⟩ :
          Pool I shared priv alpha).others threads.length =
            threads.map Thread.here := by
        unfold Pool.others
        dsimp only
        rw [List.eraseIdx_append_of_length_le (le_refl _), Nat.sub_self]
        simp
      have hset : forall t t' : Thread I priv alpha,
          (threads ++ [t]).set threads.length t' = threads ++ [t'] := by
        intro t t'
        rw [List.set_append_right _ _ (le_refl _), Nat.sub_self]
        rfl
      have hstep : Pool.Step S
          (⟨s, threads ++ [⟨here, .call c k⟩]⟩ : Pool I shared priv alpha)
          ⟨(exec c (s, here)).2.1, (threads ++ [Thread.mk here (.call c k)]).set
            threads.length ⟨(exec c (s, here)).2.2, k (exec c (s, here)).1⟩⟩ := by
        refine Pool.Step.mk threads.length List.getElem?_concat_length ?_
          (hexec c (s, here))
        rw [hothers]
        exact henabled c
      rw [hset] at hstep
      exact (Relation.ReflTransGen.single hstep).trans
        (ih _ (exec c (s, here)).2.1 (exec c (s, here)).2.2)

/-- The pool in which all requests are about to start. -/
def batch (idle : priv) (code : rho -> Prog I alpha) (s : shared)
    (visits : List rho) : Pool I shared priv alpha :=
  ⟨s, visits.map (fun q => ⟨idle, code q⟩)⟩

theorem others_snoc {threads : List (Thread I priv alpha)} {s : shared}
    {i : Nat} (hi : i < threads.length) (t : Thread I priv alpha) :
    Pool.others ⟨s, threads ++ [t]⟩ i =
      Pool.others ⟨s, threads⟩ i ++ [t.here] := by
  unfold Pool.others
  rw [List.eraseIdx_append_of_lt_length hi, List.map_append]
  rfl

theorem step_snoc (hidle : forall {others c}, S.enabled others c ->
      S.enabled (others ++ [idle]) c)
    {pool pool' : Pool I shared priv alpha} (h : Pool.Step S pool pool')
    (p : Prog I alpha) :
    Pool.Step S ⟨pool.shared, pool.threads ++ [⟨idle, p⟩]⟩
      ⟨pool'.shared, pool'.threads ++ [⟨idle, p⟩]⟩ := by
  cases h with
  | @mk i here here' c k r s' hthread henabled hnext =>
      have hi : i < pool.threads.length :=
        (List.getElem?_eq_some_iff.mp hthread).1
      dsimp only
      rw [← List.set_append_left _ _ hi]
      refine Pool.Step.mk i ?_ ?_ hnext
      · rw [List.getElem?_append_left hi]
        exact hthread
      · rw [others_snoc hi]
        exact hidle henabled

theorem reaches_snoc (hidle : forall {others c}, S.enabled others c ->
      S.enabled (others ++ [idle]) c)
    {pool pool' : Pool I shared priv alpha} (h : Pool.Reaches S pool pool')
    (p : Prog I alpha) :
    Pool.Reaches S ⟨pool.shared, pool.threads ++ [⟨idle, p⟩]⟩
      ⟨pool'.shared, pool'.threads ++ [⟨idle, p⟩]⟩ := by
  induction h with
  | refl => exact Relation.ReflTransGen.refl
  | tail _ hstep ih => exact ih.tail (step_snoc hidle hstep p)

/-- The pool of a server is reached as if all requests had been there from the
beginning. -/
theorem reaches_batch (hidle : forall {others c}, S.enabled others c ->
      S.enabled (others ++ [idle]) c)
    {first : front} {start : shared}
    {s : Server I shared priv alpha rho front}
    (h : Reaches S D idle code (opened first start) s) :
    Pool.Reaches S (batch idle code start s.visits) s.pool := by
  induction h with
  | refl => exact Relation.ReflTransGen.refl
  | tail _ hstep ih =>
      cases hstep with
      | @enter q _ hdoor =>
          have hjoin := reaches_snoc hidle ih (code q)
          unfold batch at hjoin ⊢
          rw [List.map_append]
          exact hjoin
      | work hstep => exact ih.tail hstep
      | leave => exact ih

/-!
# Invariants of a server

As for pools, with an invariant that also speaks about the door.
-/

theorem covered_enter {P : Protocol I gamma} {Q : rho -> alpha -> gamma -> Prop}
    {pool : Pool I shared priv alpha} {visits : List rho}
    {ghosts : List (gamma × priv)} {q : rho} {g : gamma}
    (hlength : visits.length = ghosts.length)
    (h : Pool.Covered P (fun i a g => exists q, visits[i]? = some q ∧ Q q a g)
      pool ghosts)
    (hwp : (code q).wp P (Q q) g) :
    Pool.Covered P
      (fun i a g => exists q', (visits ++ [q])[i]? = some q' ∧ Q q' a g)
      ⟨pool.shared, pool.threads ++ [⟨idle, code q⟩]⟩ (ghosts ++ [(g, idle)]) := by
  constructor
  · simp [h.length]
  · intro i t ht
    dsimp only at ht
    by_cases hi : i < pool.threads.length
    · rw [List.getElem?_append_left hi] at ht
      rcases h.follows ht with ⟨g0, hg0, hwp0⟩
      refine ⟨g0, ?_, Prog.wp_mono (fun a g h => ?_) _ hwp0⟩
      · rw [List.getElem?_append_left (by rw [h.length]; exact hi)]
        exact hg0
      · rcases h with ⟨q', hq', hQ⟩
        refine ⟨q', ?_, hQ⟩
        rw [List.getElem?_append_left (List.getElem?_eq_some_iff.mp hq').1]
        exact hq'
    · rw [List.getElem?_append_right (Nat.le_of_not_lt hi)] at ht
      have hlast : i - pool.threads.length = 0 := by
        have hlt := (List.getElem?_eq_some_iff.mp ht).1
        rw [List.length_singleton] at hlt
        omega
      have hi' : i = pool.threads.length := by omega
      rw [hlast] at ht
      cases ht
      subst hi'
      refine ⟨g, ?_, Prog.wp_mono (fun a g hQ => ⟨q, ?_, hQ⟩) _ hwp⟩
      · rw [← h.length, List.getElem?_concat_length]
      · rw [← h.length, ← hlength, List.getElem?_concat_length]

theorem jointly_enter {J J' : shared -> List (gamma × priv) -> Prop}
    {L : shared -> gamma -> priv -> Prop} {A : gamma -> gamma -> Prop}
    (hsymm : forall {g h}, A g h -> A h g) {s : shared}
    {ghosts : List (gamma × priv)} {g : gamma}
    (h : Pool.Jointly J L A s ghosts) (hall : J' s (ghosts ++ [(g, idle)]))
    (heach : L s g idle) (htwo : forall e, e ∈ ghosts -> A e.1 g) :
    Pool.Jointly J' L A s (ghosts ++ [(g, idle)]) := by
  have hget : forall {i : Nat} {e : gamma × priv},
      (ghosts ++ [(g, idle)])[i]? = some e ->
        ghosts[i]? = some e ∨ i = ghosts.length ∧ e = (g, idle) := by
    intro i e hi
    by_cases hlt : i < ghosts.length
    · rw [List.getElem?_append_left hlt] at hi
      exact Or.inl hi
    · have hlen := (List.getElem?_eq_some_iff.mp hi).1
      rw [List.length_append, List.length_singleton] at hlen
      have hlast : i = ghosts.length := by omega
      subst hlast
      rw [List.getElem?_concat_length] at hi
      exact Or.inr ⟨rfl, (Option.some.inj hi).symm⟩
  refine ⟨hall, ?_, ?_⟩
  · intro i g' here hi
    rcases hget hi with hold | ⟨_, heq⟩
    · exact h.each hold
    · cases heq
      exact heach
  · intro i j g1 g2 here there hij hi hj
    rcases hget hi with hold | ⟨hlast, heq⟩
    · rcases hget hj with hold' | ⟨_, heq'⟩
      · exact h.two hij hold hold'
      · cases heq'
        exact htwo _ (List.mem_of_getElem? hold)
    · cases heq
      rcases hget hj with hold' | ⟨hlast', _⟩
      · exact hsymm (htwo _ (List.mem_of_getElem? hold'))
      · exact absurd (hlast.trans hlast'.symm) hij

/-- The run lemma for servers. -/
theorem reaches_attended {P : Protocol I gamma}
    {J : front -> shared -> List rho -> List (gamma × priv) -> Prop}
    {Q : rho -> alpha -> gamma -> Prop} {ghost : rho -> gamma}
    (hwork : forall {f visits}, Pool.Preserves S P (fun s => J f s visits))
    (henter : forall {f f' s visits ghosts q}, J f s visits ghosts ->
      D.enters s (ghosts.map Prod.snd) f q f' ->
        (code q).wp P (Q q) (ghost q) ∧
          J f' s (visits ++ [q]) (ghosts ++ [(ghost q, idle)]))
    (hleave : forall {f f' s visits ghosts q a e}, J f s visits ghosts ->
      e ∈ ghosts -> Q q a e.1 -> D.leaves f q a f' -> J f' s visits ghosts)
    {first : front} {start : shared} (hstart : J first start [] [])
    {s : Server I shared priv alpha rho front}
    (h : Reaches S D idle code (opened first start) s) :
    exists ghosts, J s.front s.pool.shared s.visits ghosts ∧
      s.visits.length = ghosts.length ∧
      Pool.Covered P (fun i a g => exists q, s.visits[i]? = some q ∧ Q q a g)
        s.pool ghosts := by
  induction h with
  | refl =>
      refine ⟨[], hstart, rfl, rfl, ?_⟩
      intro i t ht
      cases ht
  | tail _ hstep ih =>
      rcases ih with ⟨ghosts, hinv, hlength, hcovered⟩
      cases hstep with
      | @enter q f hdoor =>
          rw [← Pool.map_here_of_covered hcovered] at hdoor
          rcases henter hinv hdoor with ⟨hwp, hinv'⟩
          refine ⟨_, hinv', ?_, covered_enter hlength hcovered hwp⟩
          simp [hlength]
      | work hstep =>
          rcases Pool.step_covered hwork hinv hcovered hstep with
            ⟨ghosts', hinv', hcovered'⟩
          refine ⟨ghosts', hinv', ?_, hcovered'⟩
          cases hstep with
          | mk i _ _ _ =>
              rw [hcovered'.length, List.length_set, ← hcovered.length]
              exact hlength
      | leave i _ hvisit hend hdoor =>
          rcases hcovered.follows hend with ⟨g, hg, q, hq, hQ⟩
          rw [hvisit] at hq
          cases hq
          exact ⟨ghosts, hleave hinv (List.mem_of_getElem? hg) hQ hdoor,
            hlength, hcovered⟩

end Server

end Foundation
end ExpressEcommerce
