import ExpressEcommerce.Foundation.Interleaving

/-!
# Traces

A trace of a run lists the commands in the order in which they were sent, with
the threads that sent them.  Conditions on the schedule are conditions on the
trace: that nothing of one kind comes between two commands of one thread.
-/

namespace ExpressEcommerce
namespace Foundation

variable {I : Interface} {alpha gamma shared priv : Type}

/-- A command of a run: its thread, the local state in which it was sent, and
whether it succeeded. -/
structure Event (I : Interface) (priv : Type) where
  thread : Nat
  here : priv
  cmd : I.Cmd
  succeeded : Bool

namespace Pool

inductive Traces (S : System I shared priv)
    (pool : Pool I shared priv alpha) :
    List (Event I priv) -> Pool I shared priv alpha -> Prop where
  | nil : Traces S pool [] pool
  | snoc {trace : List (Event I priv)} {mid : Pool I shared priv alpha}
      (i : Nat) {here here' : priv} {c : I.Cmd}
      {k : I.Reply c -> Prog I alpha} {r : I.Reply c} {s' : shared} :
      Traces S pool trace mid ->
      mid.threads[i]? = some ⟨here, .call c k⟩ ->
      S.enabled (mid.others i) c ->
      S.next (mid.shared, here) c r (s', here') ->
      Traces S pool (trace ++ [⟨i, here, c, r.isOk⟩])
        ⟨s', mid.threads.set i ⟨here', k r⟩⟩

/-- The pools with a trace are those that are reached. -/
theorem reaches_iff_traces {S : System I shared priv}
    {pool pool' : Pool I shared priv alpha} :
    Reaches S pool pool' <-> exists trace, Traces S pool trace pool' := by
  constructor
  · intro h
    induction h with
    | refl => exact ⟨[], .nil⟩
    | tail _ hstep ih =>
        rcases ih with ⟨trace, htrace⟩
        cases hstep with
        | mk i hthread henabled hnext =>
            exact ⟨_, .snoc i htrace hthread henabled hnext⟩
  · rintro ⟨trace, h⟩
    induction h with
    | nil => exact Relation.ReflTransGen.refl
    | snoc i _ hthread henabled hnext ih =>
        exact ih.tail (.mk i hthread henabled hnext)

/-- The run lemma for runs whose traces meet a condition: an invariant of the
trace, the shared state and the abstract states of the threads. -/
theorem traces_covered {S : System I shared priv} {P : Protocol I gamma}
    {Allowed : List (Event I priv) -> Prop}
    {J : List (Event I priv) -> shared -> List (gamma × priv) -> Prop}
    (hbefore : forall {trace e}, Allowed (trace ++ [e]) -> Allowed trace)
    (hJ : forall {trace : List (Event I priv)} {s s' : shared}
      {ghosts : List (gamma × priv)} {i : Nat} {g : gamma} {here here' : priv}
      {c : I.Cmd} {r : I.Reply c},
      Allowed (trace ++ [⟨i, here, c, r.isOk⟩]) -> J trace s ghosts ->
      ghosts[i]? = some (g, here) -> P.may g c ->
      S.next (s, here) c r (s', here') ->
      exists g', P.next g c r g' ∧
        J (trace ++ [⟨i, here, c, r.isOk⟩]) s' (ghosts.set i (g', here')))
    {Q : Nat -> alpha -> gamma -> Prop}
    {pool pool' : Pool I shared priv alpha} {ghosts : List (gamma × priv)}
    {trace : List (Event I priv)} (hinv : J [] pool.shared ghosts)
    (hcov : Covered P Q pool ghosts) (htrace : Traces S pool trace pool')
    (hallowed : Allowed trace) :
    exists ghosts', J trace pool'.shared ghosts' ∧
      Covered P Q pool' ghosts' := by
  induction htrace with
  | nil => exact ⟨ghosts, hinv, hcov⟩
  | @snoc trace mid i here here' c k r s' _ hthread _ hnext ih =>
      rcases ih (hbefore hallowed) with ⟨ghosts1, hinv1, hcov1⟩
      rcases covered_command hcov1 s' hthread
        (fun g hg hmay => hJ hallowed hinv1 hg hmay hnext) with
        ⟨g', hinv', hcov'⟩
      exact ⟨_, hinv', hcov'⟩

/-!
# The trace of a schedule
-/

section Schedule

variable {S : System I shared priv}
  (exec : (c : I.Cmd) -> shared × priv -> I.Reply c × (shared × priv))
  (free : List priv -> I.Cmd -> Bool)

/-- The command that a thread sends when it gets a turn. -/
def sent (pool : Pool I shared priv alpha) (i : Nat) : List (Event I priv) :=
  match pool.threads[i]? with
  | some ⟨here, .call c _⟩ =>
      if free (pool.others i) c then
        [⟨i, here, c, (exec c (pool.shared, here)).1.isOk⟩]
      else []
  | _ => []

def traceOf : Pool I shared priv alpha -> List Nat -> List (Event I priv)
  | _, [] => []
  | pool, i :: rest =>
      sent exec free pool i ++ traceOf (advance exec free pool i) rest

variable {exec free}

theorem traces_sent
    (hexec : forall c s, S.next s c (exec c s).1 (exec c s).2)
    (hfree : forall others c, free others c = true -> S.enabled others c)
    {start pool : Pool I shared priv alpha} {trace : List (Event I priv)}
    (h : Traces S start trace pool) (i : Nat) :
    Traces S start (trace ++ sent exec free pool i)
      (advance exec free pool i) := by
  have hidle : Traces S start (trace ++ []) pool := by
    rw [List.append_nil]
    exact h
  unfold sent advance
  cases hthread : pool.threads[i]? with
  | none => exact hidle
  | some t =>
      rcases t with ⟨here, prog⟩
      cases prog with
      | ret a => exact hidle
      | call c k =>
          dsimp only
          by_cases hgo : free (pool.others i) c = true
          · rw [if_pos hgo, if_pos hgo]
            exact .snoc i h hthread (hfree _ _ hgo)
              (hexec c (pool.shared, here))
          · rw [if_neg hgo, if_neg hgo]
            exact hidle

theorem traces_schedule
    (hexec : forall c s, S.next s c (exec c s).1 (exec c s).2)
    (hfree : forall others c, free others c = true -> S.enabled others c)
    {start pool : Pool I shared priv alpha} {trace : List (Event I priv)}
    (h : Traces S start trace pool) (turns : List Nat) :
    Traces S start (trace ++ traceOf exec free pool turns)
      (schedule exec free pool turns) := by
  induction turns generalizing pool trace with
  | nil =>
      rw [traceOf, List.append_nil]
      exact h
  | cons i rest ih =>
      rw [traceOf, ← List.append_assoc]
      exact ih (traces_sent hexec hfree h i)

end Schedule

end Pool

/-!
# Nothing in between
-/

section Between

variable {A B C : Event I priv -> Prop} {trace : List (Event I priv)}
  {e : Event I priv}

/-- No `B` comes between an `A` and a later `C` of the same thread. -/
def Uninterrupted (A B C : Event I priv -> Prop)
    (trace : List (Event I priv)) : Prop :=
  forall before a between c after,
    trace = before ++ a :: (between ++ c :: after) -> A a -> C c ->
    a.thread = c.thread -> forall b, b ∈ between -> ¬ B b

/-- An `A` of the thread has been sent, and `Q` holds unless a `B` came after
it. -/
def Since (i : Nat) (A B : Event I priv -> Prop) (Q : Prop)
    (trace : List (Event I priv)) : Prop :=
  exists before a after, trace = before ++ a :: after ∧ A a ∧ a.thread = i ∧
    ((forall b, b ∈ after -> ¬ B b) -> Q)

theorem Uninterrupted.before (h : Uninterrupted A B C (trace ++ [e])) :
    Uninterrupted A B C trace := by
  intro before a between c after htrace
  refine h before a between c (after ++ [e]) ?_
  rw [htrace]
  simp

theorem Since.start {i : Nat} {Q : Prop} (hA : A e) (hi : e.thread = i)
    (hQ : Q) (trace : List (Event I priv)) : Since i A B Q (trace ++ [e]) :=
  ⟨trace, e, [], rfl, hA, hi, fun _ => hQ⟩

theorem Since.snoc {i : Nat} {Q Q' : Prop} (h : Since i A B Q trace)
    (hstep : ¬ B e -> Q -> Q') : Since i A B Q' (trace ++ [e]) := by
  rcases h with ⟨before, a, after, rfl, hA, hi, hQ⟩
  refine ⟨before, a, after ++ [e], by simp, hA, hi, fun hnone => ?_⟩
  refine hstep (hnone e (List.mem_append_right _ List.mem_cons_self)) (hQ ?_)
  intro b hb
  exact hnone b (List.mem_append_left _ hb)

theorem Since.holds {i : Nat} {Q : Prop} (h : Since i A B Q trace)
    (hwhole : Uninterrupted A B C (trace ++ [e])) (hC : C e)
    (hi : e.thread = i) : Q := by
  rcases h with ⟨before, a, after, rfl, hA, ha, hQ⟩
  apply hQ
  intro b hb
  exact hwhole before a after e [] (by simp) hA hC (ha.trans hi.symm) b hb

theorem uninterrupted_append {early late : List (Event I priv)}
    (hA : forall a, a ∈ early -> ¬ A a) (hB : forall b, b ∈ late -> ¬ B b) :
    Uninterrupted A B C (early ++ late) := by
  intro before a between c after hsplit ha _ _ b hb
  rcases List.append_eq_append_iff.mp hsplit.symm with
    ⟨rest, rfl, hrest⟩ | ⟨rest, rfl, hrest⟩
  · cases rest with
    | nil =>
        apply hB b
        rw [List.nil_append] at hrest
        rw [← hrest]
        simp [hb]
    | cons first rest =>
        have hfirst : a = first := (List.cons.inj hrest).left
        exact absurd ha (hA a (by simp [hfirst]))
  · apply hB b
    rw [hrest]
    simp [hb]

theorem uninterrupted_of_no_end
    (h : forall c, c ∈ trace -> ¬ C c) : Uninterrupted A B C trace := by
  rintro before a between c after rfl _ hC
  exact absurd hC (h c (by simp))

end Between

end Foundation
end ExpressEcommerce
