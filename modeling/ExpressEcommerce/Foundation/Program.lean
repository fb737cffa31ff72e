import Mathlib.Logic.Basic

/-!
# Command programs

A program is a tree of commands issued to an environment.  Every command may
fail, and the continuation decides what happens next from the answer or the
failure.  The tree is independent of any semantics: the same program is later
executed alone, and interleaved with other programs.

This module defines programs, actions (programs that may end in a failure),
their execution against a transition relation, and a predicate transformer that
reduces a property of all executions of a program to facts about its commands.
-/

namespace ExpressEcommerce
namespace Foundation

/-- The commands a program may issue, with the type of their answers. -/
structure Interface where
  Cmd : Type
  Answer : Cmd -> Type
  Failure : Type

/-- What comes back from a command: its answer, or a failure. -/
abbrev Interface.Reply (I : Interface) (c : I.Cmd) : Type :=
  Except I.Failure (I.Answer c)

/-- What a command may do to the state of whoever executes it. -/
abbrev Interface.Transitions (I : Interface) (sigma : Type) : Type :=
  sigma -> (c : I.Cmd) -> I.Reply c -> sigma -> Prop

variable {I : Interface} {alpha beta gamma sigma : Type}

inductive Prog (I : Interface) (alpha : Type) where
  | ret (a : alpha) : Prog I alpha
  | call (c : I.Cmd) (k : I.Reply c -> Prog I alpha) : Prog I alpha

namespace Prog

def bind : Prog I alpha -> (alpha -> Prog I beta) -> Prog I beta
  | ret a, f => f a
  | call c k, f => call c (fun r => (k r).bind f)

@[simp] theorem bind_ret_left (a : alpha) (f : alpha -> Prog I beta) :
    (ret a : Prog I alpha).bind f = f a := rfl

@[simp] theorem bind_call (c : I.Cmd) (k : I.Reply c -> Prog I alpha)
    (f : alpha -> Prog I beta) :
    (call c k).bind f = call c (fun r => (k r).bind f) := rfl

/-- The result of a program that has come to its end. -/
def result? : Prog I alpha -> Option alpha
  | ret a => some a
  | call _ _ => none

theorem eq_ret {p : Prog I alpha} (h : p.result?.isSome = true) :
    exists a, p = ret a := by
  cases p with
  | ret a => exact ⟨a, rfl⟩
  | call c k => cases h

end Prog

/-!
# Actions

An action is a program whose result is a value or a failure.  Sequencing stops
at the first failure, and a handler may catch it.
-/

def Action (I : Interface) (alpha : Type) : Type :=
  Prog I (Except I.Failure alpha)

namespace Action

def done (a : alpha) : Action I alpha :=
  Prog.ret (.ok a)

def fail (e : I.Failure) : Action I alpha :=
  Prog.ret (.error e)

def andThen (x : Action I alpha) (f : alpha -> Action I beta) :
    Action I beta :=
  Prog.bind x fun
    | .ok a => f a
    | .error e => fail e

def orElse (x : Action I alpha) (h : I.Failure -> Action I alpha) :
    Action I alpha :=
  Prog.bind x fun
    | .ok a => done a
    | .error e => h e

instance : Monad (Action I) where
  pure := done
  bind := andThen

instance : MonadExcept I.Failure (Action I) where
  throw := fail
  tryCatch := orElse

/-- Issue one command and pass its failure on. -/
def perform (c : I.Cmd) : Action I (I.Answer c) :=
  Prog.call c Prog.ret

end Action

/-!
# Protocols and weakest preconditions

A protocol says, for an abstract state, which commands a program may issue and
which replies and successor states it then has to expect.  The weakest
precondition of a program follows the tree and collects these obligations.
-/

structure Protocol (I : Interface) (sigma : Type) where
  may : sigma -> I.Cmd -> Prop
  next : I.Transitions sigma

namespace Prog

def wp (P : Protocol I sigma) :
    Prog I alpha -> (alpha -> sigma -> Prop) -> sigma -> Prop
  | ret a, Q, s => Q a s
  | call c k, Q, s =>
      P.may s c ∧ forall r s', P.next s c r s' -> (k r).wp P Q s'

theorem wp_mono {P : Protocol I sigma} {Q R : alpha -> sigma -> Prop}
    (hQR : forall a s, Q a s -> R a s) (p : Prog I alpha) {s : sigma}
    (h : p.wp P Q s) : p.wp P R s := by
  induction p generalizing s with
  | ret a => exact hQR a s h
  | call c k ih =>
      constructor
      · exact h.left
      · intro r s' hnext
        exact ih r (h.right r s' hnext)

theorem wp_bind (P : Protocol I sigma) (p : Prog I alpha)
    (f : alpha -> Prog I beta) (Q : beta -> sigma -> Prop) (s : sigma) :
    (p.bind f).wp P Q s <-> p.wp P (fun a s' => (f a).wp P Q s') s := by
  induction p generalizing s with
  | ret a => rfl
  | call c k ih =>
      simp only [bind_call, wp, ih]

/-- What every allowed step keeps holds at the end, too. -/
theorem wp_invariant {P : Protocol I sigma} {J : sigma -> Prop}
    (hJ : forall {s c r s'}, J s -> P.may s c -> P.next s c r s' -> J s')
    {Q : alpha -> sigma -> Prop} (p : Prog I alpha) {s : sigma} (hs : J s)
    (h : p.wp P Q s) : p.wp P (fun a t => Q a t ∧ J t) s := by
  induction p generalizing s with
  | ret a => exact ⟨h, hs⟩
  | call c k ih =>
      constructor
      · exact h.left
      · intro r s' hnext
        exact ih r (hJ hs h.left hnext) (h.right r s' hnext)

/-- A program that follows a protocol follows every protocol that simulates
it. -/
theorem wp_simulate {P : Protocol I sigma} {P' : Protocol I gamma}
    {R : sigma -> gamma -> Prop}
    (hmay : forall {s g c}, R s g -> P.may s c -> P'.may g c)
    (hnext : forall {s g c r g'}, R s g -> P'.next g c r g' ->
      exists s', P.next s c r s' ∧ R s' g')
    {Q : alpha -> sigma -> Prop} {Q' : alpha -> gamma -> Prop}
    (hQ : forall {a s g}, R s g -> Q a s -> Q' a g) (p : Prog I alpha)
    {s : sigma} {g : gamma} (hR : R s g) (h : p.wp P Q s) : p.wp P' Q' g := by
  induction p generalizing s g with
  | ret a => exact hQ hR h
  | call c k ih =>
      constructor
      · exact hmay hR h.left
      · intro r g' hg'
        rcases hnext hR hg' with ⟨s', hs', hR'⟩
        exact ih r hR' (h.right r s' hs')

theorem wp_embed {P : Protocol I sigma} {P' : Protocol I gamma}
    (emb : sigma -> gamma)
    (hmay : forall s c, P.may s c -> P'.may (emb s) c)
    (hnext : forall s c r g, P'.next (emb s) c r g ->
      exists s', g = emb s' ∧ P.next s c r s')
    {Q : alpha -> sigma -> Prop} {Q' : alpha -> gamma -> Prop}
    (hQ : forall a s, Q a s -> Q' a (emb s)) (p : Prog I alpha) {s : sigma}
    (h : p.wp P Q s) : p.wp P' Q' (emb s) := by
  refine wp_simulate (R := fun s g => g = emb s) ?_ ?_ ?_ p rfl h
  · intro s g c hg hs
    subst hg
    exact hmay s c hs
  · intro s g c r g' hg hg'
    subst hg
    rcases hnext s c r g' hg' with ⟨s', heq, hs'⟩
    exact ⟨s', hs', heq⟩
  · intro a s g hg hs
    subst hg
    exact hQ a s hs

/-- The executions of a program that runs alone, as a relation. -/
inductive Runs (next : I.Transitions sigma) :
    Prog I alpha -> sigma -> alpha -> sigma -> Prop where
  | ret (a : alpha) (s : sigma) : Runs next (ret a) s a s
  | call {c : I.Cmd} {k : I.Reply c -> Prog I alpha} {s s' t : sigma}
      {r : I.Reply c} {a : alpha} :
      next s c r s' -> Runs next (k r) s' a t -> Runs next (call c k) s a t

/-- A protocol describes an execution when a relation between real and abstract
states is kept by every command the protocol allows. -/
theorem wp_sound {P : Protocol I gamma} {next : I.Transitions sigma}
    {J : sigma -> gamma -> Prop}
    (hstep : forall {s g c r s'}, J s g -> P.may g c -> next s c r s' ->
      exists g', P.next g c r g' ∧ J s' g')
    {p : Prog I alpha} {Q : alpha -> gamma -> Prop} {s t : sigma} {g : gamma}
    {a : alpha} (hwp : p.wp P Q g) (hJ : J s g) (hrun : Runs next p s a t) :
    exists g', J t g' ∧ Q a g' := by
  induction hrun generalizing g with
  | ret a s => exact ⟨g, hJ, hwp⟩
  | call hnext _ ih =>
      rcases hstep hJ hwp.left hnext with ⟨g', hg, hJ'⟩
      exact ih (hwp.right _ _ hg) hJ'

theorem runs_mono {next next' : I.Transitions sigma}
    (hnext : forall s c r s', next s c r s' -> next' s c r s')
    {p : Prog I alpha} {s t : sigma} {a : alpha} (h : Runs next p s a t) :
    Runs next' p s a t := by
  induction h with
  | ret a s => exact Runs.ret a s
  | call hstep _ ih => exact Runs.call (hnext _ _ _ _ hstep) ih

theorem runs_bind {next : I.Transitions sigma}
    {p : Prog I alpha} {f : alpha -> Prog I beta} {s t u : sigma}
    {a : alpha} {b : beta}
    (hp : Runs next p s a t) (hf : Runs next (f a) t b u) :
    Runs next (p.bind f) s b u := by
  induction hp with
  | ret a s => exact hf
  | call hstep _ ih => exact Runs.call hstep (ih hf)

theorem runs_bind_inv {next : I.Transitions sigma} {p : Prog I alpha}
    {f : alpha -> Prog I beta} {s u : sigma} {b : beta}
    (h : Runs next (p.bind f) s b u) :
    exists a t, Runs next p s a t ∧ Runs next (f a) t b u := by
  induction p generalizing s with
  | ret a => exact ⟨a, s, Runs.ret a s, h⟩
  | call c k ih =>
      cases h with
      | call hstep hrest =>
          rcases ih _ hrest with ⟨a, t, hp, hf⟩
          exact ⟨a, t, Runs.call hstep hp, hf⟩

/-- Execution against a function, for evaluating a program. -/
def eval (exec : (c : I.Cmd) -> sigma -> I.Reply c × sigma) :
    Prog I alpha -> sigma -> alpha × sigma
  | ret a, s => (a, s)
  | call c k, s => (k (exec c s).1).eval exec (exec c s).2

theorem runs_eval {next : I.Transitions sigma}
    {exec : (c : I.Cmd) -> sigma -> I.Reply c × sigma}
    (hexec : forall c s, next s c (exec c s).1 (exec c s).2)
    (p : Prog I alpha) (s : sigma) :
    Runs next p s (p.eval exec s).1 (p.eval exec s).2 := by
  induction p generalizing s with
  | ret a => exact Runs.ret a s
  | call c k ih => exact Runs.call (hexec c s) (ih _ _)

end Prog

namespace Action

/-- The weakest precondition of an action has one postcondition for normal
results and one for failures. -/
def wp (P : Protocol I sigma) (x : Action I alpha)
    (Q : alpha -> sigma -> Prop) (E : I.Failure -> sigma -> Prop)
    (s : sigma) : Prop :=
  Prog.wp P x (fun
    | .ok a => Q a
    | .error e => E e) s

section Rules

variable {P : Protocol I sigma} {E : I.Failure -> sigma -> Prop} {s : sigma}

@[simp] theorem wp_pure (a : alpha) (Q : alpha -> sigma -> Prop) :
    wp P (pure a : Action I alpha) Q E s <-> Q a s := Iff.rfl

@[simp] theorem wp_throw (e : I.Failure) (Q : alpha -> sigma -> Prop) :
    wp P (throw e : Action I alpha) Q E s <-> E e s := Iff.rfl

@[simp] theorem wp_perform (c : I.Cmd) (Q : I.Answer c -> sigma -> Prop) :
    wp P (perform c) Q E s <->
      P.may s c ∧
        forall r s', P.next s c r s' ->
          match r with
          | .ok a => Q a s'
          | .error e => E e s' := by
  unfold wp perform
  simp only [Prog.wp]
  constructor <;> intro h <;> refine ⟨h.left, fun r s' hr => ?_⟩
  · cases r <;> exact h.right _ _ hr
  · cases r <;> exact h.right _ _ hr

theorem wp_command {c : I.Cmd} {Q : I.Answer c -> sigma -> Prop}
    (hmay : P.may s c)
    (hok : forall a s', P.next s c (.ok a) s' -> Q a s')
    (herr : forall e s', P.next s c (.error e) s' -> E e s') :
    wp P (perform c) Q E s := by
  rw [wp_perform]
  refine ⟨hmay, ?_⟩
  rintro (e | a) s' hnext
  · exact herr e s' hnext
  · exact hok a s' hnext

@[simp] theorem wp_bind (x : Action I alpha) (f : alpha -> Action I beta)
    (Q : beta -> sigma -> Prop) :
    wp P (x >>= f) Q E s <-> wp P x (fun a t => wp P (f a) Q E t) E s := by
  refine (Prog.wp_bind P x _ _ s).trans ?_
  constructor <;> refine Prog.wp_mono (fun r t h => ?_) x <;> cases r <;>
    exact h

@[simp] theorem wp_tryCatch (x : Action I alpha)
    (h : I.Failure -> Action I alpha) (Q : alpha -> sigma -> Prop) :
    wp P (tryCatch x h) Q E s <->
      wp P x Q (fun e t => wp P (h e) Q E t) s := by
  refine (Prog.wp_bind P x _ _ s).trans ?_
  constructor <;> refine Prog.wp_mono (fun r t h => ?_) x <;> cases r <;>
    exact h

theorem wp_mono {Q R : alpha -> sigma -> Prop}
    {F : I.Failure -> sigma -> Prop}
    (hQR : forall a t, Q a t -> R a t) (hEF : forall e t, E e t -> F e t)
    {x : Action I alpha} (h : wp P x Q E s) : wp P x R F s := by
  refine Prog.wp_mono (fun r t hr => ?_) x h
  cases r with
  | ok a => exact hQR a t hr
  | error e => exact hEF e t hr

theorem wp_forM {f : alpha -> Action I PUnit} {Q : PUnit -> sigma -> Prop}
    (J : List alpha -> sigma -> Prop)
    (hstep : forall x rest t, J (x :: rest) t ->
      wp P (f x) (fun _ u => J rest u) E t)
    (hend : forall t, J [] t -> Q PUnit.unit t)
    (xs : List alpha) (h : J xs s) : wp P (xs.forM f) Q E s := by
  induction xs generalizing s with
  | nil => exact hend s h
  | cons x rest ih =>
      show wp P (f x >>= fun _ => rest.forM f) Q E s
      rw [wp_bind]
      exact wp_mono (fun _ t ht => ih ht) (fun _ _ he => he)
        (hstep x rest s h)

theorem wp_foldlM {f : beta -> alpha -> Action I beta}
    {Q : beta -> sigma -> Prop}
    (J : List alpha -> beta -> sigma -> Prop)
    (hstep : forall x rest b t, J (x :: rest) b t ->
      wp P (f b x) (fun b' u => J rest b' u) E t)
    (hend : forall b t, J [] b t -> Q b t)
    (xs : List alpha) (b : beta) (h : J xs b s) :
    wp P (xs.foldlM f b) Q E s := by
  induction xs generalizing b s with
  | nil => exact hend b s h
  | cons x rest ih =>
      rw [List.foldlM_cons, wp_bind]
      exact wp_mono (fun b' t ht => ih b' ht) (fun _ _ he => he)
        (hstep x rest b s h)

end Rules

/-!
# Single executions

The rules for building one execution of an action, command by command.
-/

/-- One execution of an action. -/
abbrev Runs (next : I.Transitions sigma) (x : Action I alpha) (s : sigma)
    (r : Except I.Failure alpha) (t : sigma) : Prop :=
  Prog.Runs next x s r t

section Single

variable {next : I.Transitions sigma} {s t u : sigma}

theorem runs_bind_ok {x : Action I alpha} {f : alpha -> Action I beta}
    {a : alpha} {r : Except I.Failure beta} (hx : Runs next x s (.ok a) t)
    (hf : Runs next (f a) t r u) : Runs next (x >>= f) s r u :=
  Prog.runs_bind hx hf

theorem runs_bind_error {x : Action I alpha} {f : alpha -> Action I beta}
    {e : I.Failure} (hx : Runs next x s (.error e) t) :
    Runs next (x >>= f) s (.error e) t :=
  Prog.runs_bind hx (Prog.Runs.ret _ _)

theorem runs_forM_error {f : alpha -> Action I PUnit} {x : alpha}
    {before after : List alpha} {e : I.Failure}
    (hbefore : Runs next (before.forM f) s (.ok ()) t)
    (hx : Runs next (f x) t (.error e) u) :
    Runs next ((before ++ x :: after).forM f) s (.error e) u := by
  induction before generalizing s with
  | nil =>
      cases hbefore
      exact runs_bind_error hx
  | cons y rest ih =>
      rcases Prog.runs_bind_inv hbefore with ⟨r, m, hy, hrest⟩
      cases r with
      | ok a => exact runs_bind_ok hy (ih hrest)
      | error e => cases hrest

end Single

/-!
# Kept predicates

An action keeps a predicate on the abstract states if it leads from states with
it to states with it, whether it succeeds or fails.
-/

def Keeps (P : Protocol I sigma) (J : sigma -> Prop) (x : Action I alpha) :
    Prop :=
  forall s, J s -> wp P x (fun _ => J) (fun _ => J) s

section Keeps

variable {P : Protocol I sigma} {J : sigma -> Prop}

theorem keeps_pure (a : alpha) : Keeps P J (pure a : Action I alpha) :=
  fun _ h => h

theorem keeps_throw (e : I.Failure) : Keeps P J (throw e : Action I alpha) :=
  fun _ h => h

theorem keeps_bind {x : Action I alpha} {f : alpha -> Action I beta}
    (hx : Keeps P J x) (hf : forall a, Keeps P J (f a)) :
    Keeps P J (x >>= f) := by
  intro s h
  rw [wp_bind]
  exact wp_mono (fun a t ht => hf a t ht) (fun _ _ ht => ht) (hx s h)

theorem keeps_tryCatch {x : Action I alpha}
    {f : I.Failure -> Action I alpha} (hx : Keeps P J x)
    (hf : forall e, Keeps P J (f e)) : Keeps P J (tryCatch x f) := by
  intro s h
  refine (wp_tryCatch _ _ _).mpr ?_
  exact wp_mono (fun _ _ ht => ht) (fun e t ht => hf e t ht) (hx s h)

theorem keeps_forM {f : alpha -> Action I PUnit}
    (hf : forall a, Keeps P J (f a)) (xs : List alpha) :
    Keeps P J (xs.forM f) := by
  intro s h
  refine wp_forM (fun _ => J) ?_ (fun _ ht => ht) xs h
  intro x _ t ht
  exact hf x t ht

theorem keeps_foldlM {f : beta -> alpha -> Action I beta}
    (hf : forall b a, Keeps P J (f b a)) (xs : List alpha) (b : beta) :
    Keeps P J (xs.foldlM f b) := by
  intro s h
  refine wp_foldlM (fun _ _ => J) ?_ (fun _ _ ht => ht) xs b h
  intro x _ b t ht
  exact hf b x t ht

end Keeps

end Action

end Foundation
end ExpressEcommerce
