import ExpressEcommerce.Foundation.Program
import Mathlib.Algebra.BigOperators.Group.List.Basic
import Mathlib.Algebra.Order.Ring.Int
import Mathlib.Data.List.InsertIdx
import Mathlib.Logic.Relation

/-!
# Interleaved programs

A pool runs several programs over one shared state.  Each thread has a local
state of its own; a step executes one command of one thread.  A command may
have to wait for the local states of the other threads, which is how locks are
expressed.
-/

namespace ExpressEcommerce
namespace Foundation

variable {I : Interface} {alpha beta gamma shared priv sigma : Type}

/-- The induction rule for runs of any kind of step. -/
theorem invariant_of_steps {step : sigma -> sigma -> Prop}
    {J : sigma -> Prop} {s s' : sigma}
    (hstep : forall {s s' : sigma}, J s -> step s s' -> J s') (hstart : J s)
    (hrun : Relation.ReflTransGen step s s') : J s' := by
  induction hrun with
  | refl => exact hstart
  | tail _ hlast ih => exact hstep ih hlast

/-- A semantics for interleaved programs: what a command does to the shared
and the local state, and when the other threads let it run. -/
structure System (I : Interface) (shared priv : Type) where
  next : I.Transitions (shared × priv)
  enabled : List priv -> I.Cmd -> Prop

structure Thread (I : Interface) (priv alpha : Type) where
  here : priv
  prog : Prog I alpha

structure Pool (I : Interface) (shared priv alpha : Type) where
  shared : shared
  threads : List (Thread I priv alpha)

namespace Pool

def others (pool : Pool I shared priv alpha) (i : Nat) : List priv :=
  (pool.threads.eraseIdx i).map Thread.here

inductive Step (S : System I shared priv) :
    Pool I shared priv alpha -> Pool I shared priv alpha -> Prop where
  | mk {pool : Pool I shared priv alpha} (i : Nat) {here here' : priv}
      {c : I.Cmd} {k : I.Reply c -> Prog I alpha} {r : I.Reply c}
      {s' : shared} :
      pool.threads[i]? = some ⟨here, .call c k⟩ ->
      S.enabled (pool.others i) c ->
      S.next (pool.shared, here) c r (s', here') ->
      Step S pool ⟨s', pool.threads.set i ⟨here', k r⟩⟩

def Reaches (S : System I shared priv) :
    Pool I shared priv alpha -> Pool I shared priv alpha -> Prop :=
  Relation.ReflTransGen (Step S)

theorem reaches_mono {S S' : System I shared priv}
    (hnext : forall {s c r s'}, S.next s c r s' -> S'.next s c r s')
    (henabled : forall {others c}, S.enabled others c -> S'.enabled others c)
    {pool pool' : Pool I shared priv alpha} (h : Reaches S pool pool') :
    Reaches S' pool pool' := by
  refine Relation.ReflTransGen.mono ?_ _ _ h
  rintro _ _ ⟨i, hthread, hgo, hstep⟩
  exact ⟨i, hthread, henabled hgo, hnext hstep⟩

theorem reaches_stages {S : System I shared priv}
    {Inv : Nat -> Pool I shared priv alpha -> Prop} (n : Nat)
    (hstep : forall k pool, k < n -> Inv k pool ->
      exists pool', Reaches S pool pool' ∧ Inv (k + 1) pool')
    {pool : Pool I shared priv alpha} (h : Inv 0 pool) :
    exists pool', Reaches S pool pool' ∧ Inv n pool' := by
  induction n with
  | zero => exact ⟨pool, Relation.ReflTransGen.refl, h⟩
  | succ n ih =>
      rcases ih (fun k p hk => hstep k p (by omega)) with
        ⟨mid, hreach, hmid⟩
      rcases hstep n mid (by omega) hmid with ⟨last, hlast, hinv⟩
      exact ⟨last, hreach.trans hlast, hinv⟩

/-!
# Invariants of a pool

Every thread follows a protocol on an abstract state of its own.  The abstract
states of all threads and the shared state are tied together by an invariant
that each allowed command keeps.
-/

/-- The threads of the pool are described by abstract states. -/
structure Covered (P : Protocol I gamma) (Q : Nat -> alpha -> gamma -> Prop)
    (pool : Pool I shared priv alpha) (ghosts : List (gamma × priv)) :
    Prop where
  length : ghosts.length = pool.threads.length
  follows : forall {i : Nat} {t : Thread I priv alpha},
    pool.threads[i]? = some t ->
    exists g, ghosts[i]? = some (g, t.here) ∧ t.prog.wp P (Q i) g

theorem map_here_of_covered {P : Protocol I gamma}
    {Q : Nat -> alpha -> gamma -> Prop} {pool : Pool I shared priv alpha}
    {ghosts : List (gamma × priv)} (h : Covered P Q pool ghosts) :
    ghosts.map Prod.snd = pool.threads.map Thread.here := by
  apply List.ext_getElem?
  intro i
  simp only [List.getElem?_map]
  cases ht : pool.threads[i]? with
  | none =>
      have hlen : ghosts.length ≤ i := by
        rw [h.length]
        exact List.getElem?_eq_none_iff.mp ht
      rw [List.getElem?_eq_none_iff.mpr hlen]
      rfl
  | some t =>
      rcases h.follows ht with ⟨g, hg, _⟩
      rw [hg]
      rfl

theorem Covered.ended {P : Protocol I gamma} {Q : Nat -> alpha -> gamma -> Prop}
    {pool : Pool I shared priv alpha} {ghosts : List (gamma × priv)}
    (h : Covered P Q pool ghosts)
    (hended : forall t, t ∈ pool.threads -> exists a, t.prog = .ret a)
    {i : Nat} {e : gamma × priv} (hi : ghosts[i]? = some e) :
    exists a, Q i a e.1 := by
  have hlt : i < pool.threads.length := by
    rw [← h.length]
    exact (List.getElem?_eq_some_iff.mp hi).1
  have hthread := List.getElem?_eq_getElem hlt
  rcases h.follows hthread with ⟨g, hg, hwp⟩
  rw [hi] at hg
  cases hg
  rcases hended _ (List.mem_of_getElem? hthread) with ⟨a, ha⟩
  rw [ha] at hwp
  exact ⟨a, hwp⟩


/-- What the invariant has to satisfy: it survives a command of any thread
that the protocol allows there, and the protocol foresees the reply. -/
def Preserves (S : System I shared priv) (P : Protocol I gamma)
    (J : shared -> List (gamma × priv) -> Prop) : Prop :=
  forall {s s' : shared} {ghosts : List (gamma × priv)} {i : Nat} {g : gamma}
    {here here' : priv} {c : I.Cmd} {r : I.Reply c},
    J s ghosts -> ghosts[i]? = some (g, here) -> P.may g c ->
    S.enabled ((ghosts.eraseIdx i).map Prod.snd) c ->
    S.next (s, here) c r (s', here') ->
    exists g', P.next g c r g' ∧ J s' (ghosts.set i (g', here'))

theorem covered_command {P : Protocol I gamma}
    {J : List (gamma × priv) -> Prop} {Q : Nat -> alpha -> gamma -> Prop}
    {pool : Pool I shared priv alpha} {ghosts : List (gamma × priv)}
    (hcov : Covered P Q pool ghosts) {i : Nat} {here here' : priv} {c : I.Cmd}
    {k : I.Reply c -> Prog I alpha} {r : I.Reply c} (s' : shared)
    (hthread : pool.threads[i]? = some ⟨here, .call c k⟩)
    (hcommand : forall g, ghosts[i]? = some (g, here) -> P.may g c ->
      exists g', P.next g c r g' ∧ J (ghosts.set i (g', here'))) :
    exists g', J (ghosts.set i (g', here')) ∧
      Covered P Q ⟨s', pool.threads.set i ⟨here', k r⟩⟩
        (ghosts.set i (g', here')) := by
  rcases hcov.follows hthread with ⟨g, hg, hwp⟩
  rcases hcommand g hg hwp.left with ⟨g', hg', hinv'⟩
  refine ⟨g', hinv', ?_, ?_⟩
  · simp [hcov.length]
  · intro j t ht
    by_cases hij : i = j
    · subst hij
      have hlt : i < pool.threads.length :=
        (List.getElem?_eq_some_iff.mp hthread).1
      have hlt' : i < ghosts.length := by
        rw [hcov.length]
        exact hlt
      rw [List.getElem?_set_self hlt] at ht
      cases ht
      refine ⟨g', ?_, hwp.right r g' hg'⟩
      rw [List.getElem?_set_self hlt']
    · rw [List.getElem?_set_ne hij] at ht
      rcases hcov.follows ht with ⟨g0, hg0, hwp0⟩
      refine ⟨g0, ?_, hwp0⟩
      rw [List.getElem?_set_ne hij]
      exact hg0

theorem command_covered {S : System I shared priv} {P : Protocol I gamma}
    {J : shared -> List (gamma × priv) -> Prop} (hJ : Preserves S P J)
    {Q : Nat -> alpha -> gamma -> Prop}
    {pool : Pool I shared priv alpha} {ghosts : List (gamma × priv)}
    (hinv : J pool.shared ghosts) (hcov : Covered P Q pool ghosts) {i : Nat}
    {here here' : priv} {c : I.Cmd} {k : I.Reply c -> Prog I alpha}
    {r : I.Reply c} {s' : shared}
    (hthread : pool.threads[i]? = some ⟨here, .call c k⟩)
    (henabled : S.enabled (pool.others i) c)
    (hnext : S.next (pool.shared, here) c r (s', here')) :
    exists g', J s' (ghosts.set i (g', here')) ∧
      Covered P Q ⟨s', pool.threads.set i ⟨here', k r⟩⟩
        (ghosts.set i (g', here')) := by
  have hothers : (ghosts.eraseIdx i).map Prod.snd = pool.others i := by
    unfold others
    rw [← List.eraseIdx_map, map_here_of_covered hcov, List.eraseIdx_map]
  rw [← hothers] at henabled
  exact covered_command hcov s' hthread
    (fun g hg hmay => hJ hinv hg hmay henabled hnext)

theorem step_covered {S : System I shared priv} {P : Protocol I gamma}
    {J : shared -> List (gamma × priv) -> Prop} (hJ : Preserves S P J)
    {Q : Nat -> alpha -> gamma -> Prop}
    {pool pool' : Pool I shared priv alpha} {ghosts : List (gamma × priv)}
    (hinv : J pool.shared ghosts) (hcov : Covered P Q pool ghosts)
    (hstep : Step S pool pool') :
    exists ghosts', J pool'.shared ghosts' ∧ Covered P Q pool' ghosts' := by
  cases hstep with
  | mk i hthread henabled hnext =>
      rcases command_covered hJ hinv hcov hthread henabled hnext with
        ⟨g', hinv', hcov'⟩
      exact ⟨_, hinv', hcov'⟩

/-- The run lemma: the invariant holds in every pool that is reached. -/
theorem reaches_covered {S : System I shared priv} {P : Protocol I gamma}
    {J : shared -> List (gamma × priv) -> Prop} (hJ : Preserves S P J)
    {Q : Nat -> alpha -> gamma -> Prop}
    {pool pool' : Pool I shared priv alpha} {ghosts : List (gamma × priv)}
    (hinv : J pool.shared ghosts) (hcov : Covered P Q pool ghosts)
    (hreach : Reaches S pool pool') :
    exists ghosts', J pool'.shared ghosts' ∧ Covered P Q pool' ghosts' := by
  induction hreach with
  | refl => exact ⟨ghosts, hinv, hcov⟩
  | tail _ hstep ih =>
      rcases ih with ⟨ghosts1, hinv1, hcov1⟩
      exact step_covered hJ hinv1 hcov1 hstep

theorem covered_start {P : Protocol I gamma} {Q : Nat -> alpha -> gamma -> Prop}
    {tasks : List beta} {s : shared} {here : priv} {code : beta -> Prog I alpha}
    {ghost : beta -> gamma}
    (hwp : forall i b, tasks[i]? = some b -> (code b).wp P (Q i) (ghost b)) :
    Covered P Q
      (⟨s, tasks.map (fun b => ⟨here, code b⟩)⟩ : Pool I shared priv alpha)
      (tasks.map (fun b => (ghost b, here))) := by
  constructor
  · simp
  · intro i t ht
    rw [List.getElem?_map] at ht ⊢
    rcases Option.map_eq_some_iff.mp ht with ⟨b, hb, rfl⟩
    refine ⟨ghost b, ?_, hwp i b hb⟩
    rw [hb]
    rfl

/-- An invariant that speaks about all threads (`I`), about each of them (`L`)
and about any two of them (`A`). -/
structure Jointly (I : shared -> List (gamma × priv) -> Prop)
    (L : shared -> gamma -> priv -> Prop) (A : gamma -> gamma -> Prop)
    (s : shared) (ghosts : List (gamma × priv)) : Prop where
  all : I s ghosts
  each : forall {i : Nat} {g : gamma} {here : priv},
    ghosts[i]? = some (g, here) -> L s g here
  two : forall {i j : Nat} {g h : gamma} {here there : priv}, i ≠ j ->
    ghosts[i]? = some (g, here) -> ghosts[j]? = some (h, there) -> A g h

theorem reaches_jointly {S : System I shared priv} {P : Protocol I gamma}
    {J : shared -> List (gamma × priv) -> Prop}
    {L : shared -> gamma -> priv -> Prop} {A : gamma -> gamma -> Prop}
    (hJ : Preserves S P (Jointly J L A)) {Q : beta -> alpha -> gamma -> Prop}
    {tasks : List beta} {s : shared} {here : priv} {code : beta -> Prog I alpha}
    {ghost : beta -> gamma} {pool : Pool I shared priv alpha}
    (hwp : forall b, (code b).wp P (Q b) (ghost b))
    (hall : J s (tasks.map (fun b => (ghost b, here))))
    (heach : forall b, b ∈ tasks -> L s (ghost b) here)
    (htwo : forall b b', A (ghost b) (ghost b'))
    (hreach : Reaches S ⟨s, tasks.map (fun b => ⟨here, code b⟩)⟩ pool) :
    exists ghosts, Jointly J L A pool.shared ghosts ∧
      Covered P (fun i out g => exists b, tasks[i]? = some b ∧ Q b out g) pool
        ghosts := by
  have hget : forall {i : Nat} {g : gamma} {there : priv},
      (tasks.map (fun b => (ghost b, here)))[i]? = some (g, there) ->
      exists b, b ∈ tasks ∧ ghost b = g ∧ here = there := by
    intro i g there hi
    rw [List.getElem?_map] at hi
    rcases Option.map_eq_some_iff.mp hi with ⟨b, hb, heq⟩
    cases heq
    exact ⟨b, List.mem_of_getElem? hb, rfl, rfl⟩
  have hstart : Jointly J L A s (tasks.map (fun b => (ghost b, here))) := by
    refine ⟨hall, fun hi => ?_, fun _ hi hj => ?_⟩
    · rcases hget hi with ⟨b, hb, rfl, rfl⟩
      exact heach b hb
    · rcases hget hi with ⟨b, _, rfl, _⟩
      rcases hget hj with ⟨b', _, rfl, _⟩
      exact htwo b b'
  refine reaches_covered hJ hstart (covered_start (fun i b hb => ?_)) hreach
  exact Prog.wp_mono (fun _ _ h => ⟨b, hb, h⟩) _ (hwp b)

/-- The obligations of a thread that takes a step: its own part of the
invariant, and what the others rely on. -/
theorem preserves_jointly {S : System I shared priv} {P : Protocol I gamma}
    {J : shared -> List (gamma × priv) -> Prop}
    {L : shared -> gamma -> priv -> Prop} {A : gamma -> gamma -> Prop}
    (hsymm : forall {g h}, A g h -> A h g)
    (hstep : forall {s s' : shared} {ghosts : List (gamma × priv)} {i : Nat}
      {g : gamma} {here here' : priv} {c : I.Cmd} {r : I.Reply c}
      {others : List priv},
      J s ghosts -> ghosts[i]? = some (g, here) -> L s g here -> P.may g c ->
      S.enabled others c -> S.next (s, here) c r (s', here') ->
      exists g', P.next g c r g' ∧ J s' (ghosts.set i (g', here')) ∧
        L s' g' here' ∧
        forall h there, there ∈ others -> L s h there -> A g h ->
          L s' h there ∧ A g' h) :
    Preserves S P (Jointly J L A) := by
  intro s s' ghosts i g here here' c r hinv hi hmay henabled hnext
  rcases hstep hinv.all hi (hinv.each hi) hmay henabled hnext with
    ⟨g', hg', hall, hself, hothers⟩
  have hlt : i < ghosts.length := (List.getElem?_eq_some_iff.mp hi).1
  have hnew : (ghosts.set i (g', here'))[i]? = some (g', here') :=
    List.getElem?_set_self hlt
  have hold : forall {j : Nat}, i ≠ j ->
      (ghosts.set i (g', here'))[j]? = ghosts[j]? :=
    fun hij => List.getElem?_set_ne hij
  have hrely : forall {j : Nat} {h : gamma} {there : priv}, i ≠ j ->
      ghosts[j]? = some (h, there) -> L s' h there ∧ A g' h :=
    fun hij hj => hothers _ _ (List.mem_map_of_mem
      (List.mem_eraseIdx_iff_getElem?.mpr ⟨_, hij.symm, hj⟩))
      (hinv.each hj) (hinv.two hij hi hj)
  refine ⟨g', hg', hall, ?_, ?_⟩
  · intro j h there hj
    by_cases hij : i = j
    · subst hij
      rw [hnew] at hj
      cases hj
      exact hself
    · rw [hold hij] at hj
      exact (hrely hij hj).left
  · intro j k h l there elsewhere hjk hj hk
    by_cases hij : i = j
    · subst hij
      rw [hnew] at hj
      cases hj
      rw [hold hjk] at hk
      exact (hrely hjk hk).right
    · rw [hold hij] at hj
      by_cases hik : i = k
      · subst hik
        rw [hnew] at hk
        cases hk
        exact hsymm (hrely hij hj).right
      · rw [hold hik] at hk
        exact hinv.two hjk hj hk

/-!
# Running one thread

While the other threads let every command through, a thread of a pool can do
what its program does when it runs alone.
-/

theorem set_getElem? {threads : List beta} {i : Nat} {t : beta}
    (h : threads[i]? = some t) : threads.set i t = threads := by
  apply List.ext_getElem?
  intro j
  by_cases hij : i = j
  · subst hij
    rw [List.getElem?_set_self (List.getElem?_eq_some_iff.mp h).1, h]
  · rw [List.getElem?_set_ne hij]

theorem mem_set_self {entries : List beta} {i : Nat} {e : beta}
    (h : entries[i]? = some e) (e' : beta) : e' ∈ entries.set i e' :=
  List.mem_of_getElem?
    (List.getElem?_set_self (List.getElem?_eq_some_iff.mp h).1)

theorem mem_set_or_eq {entries : List beta} {i : Nat} {e x : beta}
    (h : entries[i]? = some e) (hx : x ∈ entries) (e' : beta) :
    x ∈ entries.set i e' ∨ x = e := by
  rcases List.mem_iff_getElem?.mp hx with ⟨j, hj⟩
  by_cases hij : i = j
  · subst hij
    rw [h] at hj
    exact Or.inr (Option.some.inj hj).symm
  · refine Or.inl (List.mem_of_getElem? (i := j) ?_)
    rw [List.getElem?_set_ne hij]
    exact hj

theorem sum_map_set {entries : List beta} {i : Nat} {e e' : beta}
    (f : beta -> Int) (h : entries[i]? = some e) :
    ((entries.set i e').map f).sum = (entries.map f).sum + (f e' - f e) := by
  rcases List.getElem?_eq_some_iff.mp h with ⟨hlt, hget⟩
  have hlt' : i < (entries.map f).length := by
    rw [List.length_map]
    exact hlt
  rw [List.map_set, List.sum_set', dif_pos hlt', List.getElem_map, hget]
  omega

theorem map_set_same {entries : List beta} {i : Nat} {e e' : beta}
    (f : beta -> gamma) (h : entries[i]? = some e) (hsame : f e' = f e) :
    (entries.set i e').map f = entries.map f := by
  rw [List.map_set, hsame]
  apply set_getElem?
  rw [List.getElem?_map, h]
  rfl

theorem step_between {S : System I shared priv} {s s' : shared}
    (before after : List (Thread I priv alpha)) {here here' : priv}
    {c : I.Cmd} {k : I.Reply c -> Prog I alpha} {r : I.Reply c}
    (henabled : S.enabled ((before ++ after).map Thread.here) c)
    (hnext : S.next (s, here) c r (s', here')) :
    Step S ⟨s, before ++ ⟨here, .call c k⟩ :: after⟩
      ⟨s', before ++ ⟨here', k r⟩ :: after⟩ := by
  let pool : Pool I shared priv alpha :=
    ⟨s, before ++ ⟨here, .call c k⟩ :: after⟩
  have hthread : pool.threads[before.length]? = some ⟨here, .call c k⟩ := by
    rw [List.getElem?_append_right (Nat.le_refl _), Nat.sub_self]
    rfl
  have hothers : pool.others before.length =
      (before ++ after).map Thread.here := by
    unfold others
    rw [List.eraseIdx_append_of_length_le (Nat.le_refl _), Nat.sub_self]
    rfl
  have hset : pool.threads.set before.length ⟨here', k r⟩ =
      before ++ ⟨here', k r⟩ :: after := by
    rw [List.set_append_right _ _ (Nat.le_refl _), Nat.sub_self]
    rfl
  rw [← hothers] at henabled
  rw [← hset]
  exact Step.mk before.length hthread henabled hnext

theorem reaches_until {S : System I shared priv} {P : Protocol I gamma}
    {J : shared × priv -> gamma -> Prop} (Stop : gamma -> Prop)
    (htotal : forall s c, exists r s', S.next s c r s')
    (hstep : forall {s g c r s'}, J s g -> ¬ Stop g -> P.may g c ->
      S.next s c r s' -> exists g', P.next g c r g' ∧ J s' g')
    {p : Prog I alpha} {Q : alpha -> gamma -> Prop} {g : gamma} {s : shared}
    {here : priv} (hwp : p.wp P Q g) (hJ : J (s, here) g)
    {threads : List (Thread I priv alpha)} {i : Nat}
    (hthread : threads[i]? = some ⟨here, p⟩)
    (hfree : forall c, S.enabled ((threads.eraseIdx i).map Thread.here) c) :
    exists s' here' p' g',
      Reaches S ⟨s, threads⟩ ⟨s', threads.set i ⟨here', p'⟩⟩ ∧
        J (s', here') g' ∧ p'.wp P Q g' ∧ (Stop g' ∨ exists a, p' = .ret a) := by
  induction p generalizing s here g threads with
  | ret a =>
      refine ⟨s, here, .ret a, g, ?_, hJ, hwp, Or.inr ⟨a, rfl⟩⟩
      rw [set_getElem? hthread]
      exact Relation.ReflTransGen.refl
  | call c k ih =>
      by_cases hstop : Stop g
      · refine ⟨s, here, .call c k, g, ?_, hJ, hwp, Or.inl hstop⟩
        rw [set_getElem? hthread]
        exact Relation.ReflTransGen.refl
      · rcases htotal (s, here) c with ⟨r, ⟨s1, here1⟩, hnext⟩
        rcases hstep hJ hstop hwp.left hnext with ⟨g1, hg1, hJ1⟩
        have hlt : i < threads.length :=
          (List.getElem?_eq_some_iff.mp hthread).1
        have hfirst : Step S (⟨s, threads⟩ : Pool I shared priv alpha)
            ⟨s1, threads.set i ⟨here1, k r⟩⟩ :=
          Step.mk i hthread (hfree c) hnext
        rcases ih r (hwp.right r g1 hg1) hJ1
          (List.getElem?_set_self hlt)
          (by
            intro c'
            rw [List.eraseIdx_set_eq]
            exact hfree c')
          with ⟨s', here', p', g', hreach, hrest⟩
        rw [List.set_set] at hreach
        exact ⟨s', here', p', g', .head hfirst hreach, hrest⟩

/-- A thread that is not held up can be run to its end; the invariant holds
then, and the abstract states of the other threads are as before. -/
theorem reaches_end {S : System I shared priv} {P : Protocol I gamma}
    {J : shared -> List (gamma × priv) -> Prop} (hJ : Preserves S P J)
    (htotal : forall s c, exists r s', S.next s c r s')
    {Q : Nat -> alpha -> gamma -> Prop} {s : shared}
    {threads : List (Thread I priv alpha)} {ghosts : List (gamma × priv)}
    (hinv : J s ghosts) (hcov : Covered P Q ⟨s, threads⟩ ghosts) {i : Nat}
    {here : priv} {p : Prog I alpha} (hthread : threads[i]? = some ⟨here, p⟩)
    (hfree : forall c, S.enabled ((threads.eraseIdx i).map Thread.here) c) :
    exists s' here' a ghosts',
      Reaches S ⟨s, threads⟩ ⟨s', threads.set i ⟨here', .ret a⟩⟩ ∧
        J s' ghosts' ∧
        Covered P Q ⟨s', threads.set i ⟨here', .ret a⟩⟩ ghosts' ∧
        forall j, i ≠ j -> ghosts'[j]? = ghosts[j]? := by
  induction p generalizing s here threads ghosts with
  | ret a =>
      refine ⟨s, here, a, ghosts, ?_, hinv, ?_, fun _ _ => rfl⟩
      · rw [set_getElem? hthread]
        exact Relation.ReflTransGen.refl
      · rw [set_getElem? hthread]
        exact hcov
  | call c k ih =>
      rcases htotal (s, here) c with ⟨r, ⟨s1, here1⟩, hnext⟩
      have hlt : i < threads.length :=
        (List.getElem?_eq_some_iff.mp hthread).1
      have hfirst : Step S (⟨s, threads⟩ : Pool I shared priv alpha)
          ⟨s1, threads.set i ⟨here1, k r⟩⟩ :=
        Step.mk i hthread (hfree c) hnext
      rcases command_covered hJ hinv hcov hthread (hfree c) hnext with
        ⟨g1, hinv1, hcov1⟩
      have hfree1 : forall c', S.enabled
          (((threads.set i ⟨here1, k r⟩).eraseIdx i).map Thread.here) c' := by
        intro c'
        rw [List.eraseIdx_set_eq]
        exact hfree c'
      rcases ih r hinv1 hcov1 (List.getElem?_set_self hlt) hfree1 with
        ⟨s', here', a, ghosts', hreach, hinv', hcov', hsame⟩
      rw [List.set_set] at hreach hcov'
      refine ⟨s', here', a, ghosts', .head hfirst hreach, hinv', hcov', ?_⟩
      intro j hij
      rw [hsame j hij, List.getElem?_set_ne hij]

/-!
# Executing a schedule

A list of thread numbers, each for one command, can be executed against
functions.  A thread that has ended or has to wait is passed over.
-/

def advance (exec : (c : I.Cmd) -> shared × priv ->
      I.Reply c × (shared × priv)) (free : List priv -> I.Cmd -> Bool)
    (pool : Pool I shared priv alpha) (i : Nat) : Pool I shared priv alpha :=
  match pool.threads[i]? with
  | some ⟨here, .call c k⟩ =>
      if free (pool.others i) c then
        let answer := exec c (pool.shared, here)
        ⟨answer.2.1, pool.threads.set i ⟨answer.2.2, k answer.1⟩⟩
      else pool
  | _ => pool

def schedule (exec : (c : I.Cmd) -> shared × priv ->
      I.Reply c × (shared × priv)) (free : List priv -> I.Cmd -> Bool)
    (pool : Pool I shared priv alpha) (turns : List Nat) :
    Pool I shared priv alpha :=
  turns.foldl (advance exec free) pool

theorem step_advance {S : System I shared priv}
    {exec : (c : I.Cmd) -> shared × priv -> I.Reply c × (shared × priv)}
    {free : List priv -> I.Cmd -> Bool} {pool : Pool I shared priv alpha}
    {i : Nat} {here : priv} {c : I.Cmd} {k : I.Reply c -> Prog I alpha}
    (hthread : pool.threads[i]? = some ⟨here, .call c k⟩)
    (hfree : free (pool.others i) c = true)
    (henabled : S.enabled (pool.others i) c)
    (hnext : S.next (pool.shared, here) c (exec c (pool.shared, here)).1
      (exec c (pool.shared, here)).2) :
    Step S pool (advance exec free pool i) := by
  have hadvance : advance exec free pool i =
      ⟨(exec c (pool.shared, here)).2.1, pool.threads.set i
        ⟨(exec c (pool.shared, here)).2.2,
          k (exec c (pool.shared, here)).1⟩⟩ := by
    unfold advance
    rw [hthread]
    exact if_pos hfree
  rw [hadvance]
  exact Step.mk i hthread henabled hnext

theorem reaches_schedule {S : System I shared priv}
    {exec : (c : I.Cmd) -> shared × priv -> I.Reply c × (shared × priv)}
    {free : List priv -> I.Cmd -> Bool}
    (hexec : forall c s, S.next s c (exec c s).1 (exec c s).2)
    (hfree : forall others c, free others c = true -> S.enabled others c)
    (pool : Pool I shared priv alpha) (turns : List Nat) :
    Reaches S pool (schedule exec free pool turns) := by
  induction turns generalizing pool with
  | nil => exact Relation.ReflTransGen.refl
  | cons i rest ih =>
      refine Relation.ReflTransGen.trans ?_ (ih (advance exec free pool i))
      by_cases hgo : exists here c k,
          pool.threads[i]? = some ⟨here, .call c k⟩ ∧
            free (pool.others i) c = true
      · rcases hgo with ⟨here, c, k, hthread, hgo⟩
        exact .single (step_advance hthread hgo (hfree _ _ hgo)
          (hexec c (pool.shared, here)))
      · have hstays : advance exec free pool i = pool := by
          unfold advance
          split
          · rename_i here c k hthread
            exact if_neg (fun hfree => hgo ⟨here, c, k, hthread, hfree⟩)
          · rfl
        rw [hstays]

end Pool

end Foundation
end ExpressEcommerce
