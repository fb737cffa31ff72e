import ExpressEcommerce.Foundation.Program

/-!
# Two programs in lockstep

A pairing says which commands two programs may issue at the same time, and how
the two replies are related.  Programs in lockstep issue paired commands until
both end, whatever related replies they get.  If the executions of paired
commands keep a relation between two states, then so do the executions of the
programs, and their results are related.
-/

namespace ExpressEcommerce
namespace Foundation

variable {I : Interface} {alpha beta gamma delta sigma tau : Type}

/-- The commands that may be issued together, each pair with the relation
between their replies. -/
abbrev Interface.Pairing (I : Interface) : Type :=
  (c c' : I.Cmd) -> (I.Reply c -> I.Reply c' -> Prop) -> Prop

namespace Prog

def Lockstep (L : I.Pairing) (Q : alpha -> beta -> Prop) :
    Prog I alpha -> Prog I beta -> Prop
  | ret a, ret b => Q a b
  | call c k, call c' k' =>
      exists rel, L c c' rel ∧
        forall r r', rel r r' -> Lockstep L Q (k r) (k' r')
  | _, _ => False

variable {L : I.Pairing}

theorem Lockstep.mono {Q R : alpha -> beta -> Prop}
    (hQR : forall a b, Q a b -> R a b) {p : Prog I alpha} {q : Prog I beta}
    (h : Lockstep L Q p q) : Lockstep L R p q := by
  induction p generalizing q with
  | ret a =>
      cases q with
      | ret b => exact hQR a b h
      | call c' k' => exact h
  | call c k ih =>
      cases q with
      | ret b => exact h
      | call c' k' =>
          rcases h with ⟨rel, hL, hk⟩
          exact ⟨rel, hL, fun r r' hr => ih r (hk r r' hr)⟩

theorem Lockstep.bind {Q : alpha -> beta -> Prop} {R : gamma -> delta -> Prop}
    {p : Prog I alpha} {q : Prog I beta} {f : alpha -> Prog I gamma}
    {g : beta -> Prog I delta} (h : Lockstep L Q p q)
    (hfg : forall a b, Q a b -> Lockstep L R (f a) (g b)) :
    Lockstep L R (p.bind f) (q.bind g) := by
  induction p generalizing q with
  | ret a =>
      cases q with
      | ret b => exact hfg a b h
      | call c' k' => exact h.elim
  | call c k ih =>
      cases q with
      | ret b => exact h.elim
      | call c' k' =>
          rcases h with ⟨rel, hL, hk⟩
          exact ⟨rel, hL, fun r r' hr => ih r (hk r r' hr)⟩

/-- A program whose commands are all paired with themselves, with equal
replies, is in lockstep with itself. -/
theorem lockstep_self {P : Protocol I sigma}
    (hpair : forall s c, P.may s c -> L c c Eq)
    (htotal : forall s c r, exists s', P.next s c r s')
    {Q : alpha -> sigma -> Prop} (p : Prog I alpha) {s : sigma}
    (h : p.wp P Q s) : Lockstep L Eq p p := by
  induction p generalizing s with
  | ret a => exact rfl
  | call c k ih =>
      refine ⟨Eq, hpair s c h.left, ?_⟩
      intro r r' hr
      rcases htotal s c r with ⟨s', hs'⟩
      rw [← hr]
      exact ih r (h.right r s' hs')

/-- Every end of the program satisfies the predicate, whatever the replies. -/
def Ends (Q : alpha -> Prop) : Prog I alpha -> Prop
  | ret a => Q a
  | call _ k => forall r, (k r).Ends Q

theorem Ends.bind {Q : beta -> Prop} {R : alpha -> Prop} {p : Prog I alpha}
    {f : alpha -> Prog I beta} (h : p.Ends R)
    (hf : forall a, R a -> (f a).Ends Q) : (p.bind f).Ends Q := by
  induction p with
  | ret a => exact hf a h
  | call c k ih => exact fun r => ih r (h r)

theorem Ends.of_forall {Q : alpha -> Prop} (h : forall a, Q a)
    (p : Prog I alpha) : p.Ends Q := by
  induction p with
  | ret a => exact h a
  | call c k ih => exact ih

theorem Lockstep.ends {Q : alpha -> beta -> Prop} {R : alpha -> Prop}
    {p : Prog I alpha} {q : Prog I beta} (h : Lockstep L Q p q)
    (hp : p.Ends R) : Lockstep L (fun a b => Q a b ∧ R a) p q := by
  induction p generalizing q with
  | ret a =>
      cases q with
      | ret b => exact ⟨h, hp⟩
      | call c' k' => exact h
  | call c k ih =>
      cases q with
      | ret b => exact h
      | call c' k' =>
          rcases h with ⟨rel, hL, hk⟩
          exact ⟨rel, hL, fun r r' hr => ih r (hk r r' hr) (hp r)⟩

theorem Ends.eval {Q : alpha -> Prop} {p : Prog I alpha} (h : p.Ends Q)
    (exec : (c : I.Cmd) -> sigma -> I.Reply c × sigma) (s : sigma) :
    Q (p.eval exec s).1 := by
  induction p generalizing s with
  | ret a => exact h
  | call c k ih => exact ih _ (h _) _

theorem Lockstep.eval {Q : alpha -> beta -> Prop}
    {exec : (c : I.Cmd) -> sigma -> I.Reply c × sigma}
    {exec' : (c : I.Cmd) -> tau -> I.Reply c × tau}
    {R : sigma -> tau -> Prop}
    (hstep : forall {s t c c' rel}, R s t -> L c c' rel ->
      rel (exec c s).1 (exec' c' t).1 ∧ R (exec c s).2 (exec' c' t).2)
    {p : Prog I alpha} {q : Prog I beta} (h : Lockstep L Q p q) {s : sigma}
    {t : tau} (hR : R s t) :
    Q (p.eval exec s).1 (q.eval exec' t).1 ∧
      R (p.eval exec s).2 (q.eval exec' t).2 := by
  induction p generalizing q s t with
  | ret a =>
      cases q with
      | ret b => exact ⟨h, hR⟩
      | call c' k' => exact h.elim
  | call c k ih =>
      cases q with
      | ret b => exact h.elim
      | call c' k' =>
          rcases h with ⟨rel, hL, hk⟩
          rcases hstep hR hL with ⟨hrel, hR'⟩
          exact ih _ (hk _ _ hrel) hR'

theorem eval_bind (exec : (c : I.Cmd) -> sigma -> I.Reply c × sigma)
    (p : Prog I alpha) (f : alpha -> Prog I beta) (s : sigma) :
    (p.bind f).eval exec s =
      (f (p.eval exec s).1).eval exec (p.eval exec s).2 := by
  induction p generalizing s with
  | ret a => rfl
  | call c k ih => exact ih _ _

end Prog

/-!
# Actions in lockstep

The results of both actions are related, or both fail in the same way.
-/

namespace Action

def BothEnd (Q : alpha -> beta -> Prop) :
    Except I.Failure alpha -> Except I.Failure beta -> Prop
  | .ok a, .ok b => Q a b
  | .error e, .error e' => e = e'
  | _, _ => False

def Lockstep (L : I.Pairing) (Q : alpha -> beta -> Prop) (x : Action I alpha)
    (y : Action I beta) : Prop :=
  Prog.Lockstep L (BothEnd Q) x y

variable {L : I.Pairing} {Q : alpha -> beta -> Prop}

theorem lockstep_mono {R : alpha -> beta -> Prop}
    (hQR : forall a b, Q a b -> R a b) {x : Action I alpha}
    {y : Action I beta} (h : Lockstep L Q x y) : Lockstep L R x y := by
  refine Prog.Lockstep.mono ?_ h
  intro r r' hr
  cases r <;> cases r' <;> first | exact hQR _ _ hr | exact hr

theorem lockstep_pure {a : alpha} {b : beta} (h : Q a b) :
    Lockstep L Q (pure a : Action I alpha) (pure b) :=
  h

theorem lockstep_throw (e : I.Failure) :
    Lockstep L Q (throw e : Action I alpha) (throw e) :=
  (rfl : e = e)

theorem lockstep_perform {c c' : I.Cmd}
    {rel : I.Reply c -> I.Reply c' -> Prop} (h : L c c' rel)
    {Q : I.Answer c -> I.Answer c' -> Prop}
    (hrel : forall r r', rel r r' -> BothEnd Q r r') :
    Lockstep L Q (perform c) (perform c') :=
  ⟨rel, h, hrel⟩

theorem lockstep_bind {R : gamma -> delta -> Prop} {x : Action I alpha}
    {y : Action I beta} {f : alpha -> Action I gamma}
    {g : beta -> Action I delta} (h : Lockstep L Q x y)
    (hfg : forall a b, Q a b -> Lockstep L R (f a) (g b)) :
    Lockstep L R (x >>= f) (y >>= g) := by
  refine Prog.Lockstep.bind h ?_
  intro r r' hr
  cases r with
  | error e =>
      cases r' with
      | error e' => exact hr
      | ok b => exact hr.elim
  | ok a =>
      cases r' with
      | error e' => exact hr.elim
      | ok b => exact hfg a b hr

theorem lockstep_tryCatch {x : Action I alpha} {y : Action I beta}
    {f : I.Failure -> Action I alpha} {g : I.Failure -> Action I beta}
    (h : Lockstep L Q x y) (hfg : forall e, Lockstep L Q (f e) (g e)) :
    Lockstep L Q (tryCatch x f) (tryCatch y g) := by
  refine Prog.Lockstep.bind h ?_
  intro r r' hr
  cases r with
  | error e =>
      cases r' with
      | error e' =>
          have heq : e = e' := hr
          rw [← heq]
          exact hfg e
      | ok b => exact hr.elim
  | ok a =>
      cases r' with
      | error e' => exact hr.elim
      | ok b => exact hr

/-- An action that keeps any predicate while it issues only commands that are
paired with themselves. -/
theorem lockstep_of_keeps {P : Protocol I sigma} {J : sigma -> Prop}
    (hpair : forall s c, P.may s c -> L c c Eq)
    (htotal : forall s c r, exists s', P.next s c r s')
    {x : Action I alpha} (h : Keeps P J x) {s : sigma} (hs : J s) :
    Lockstep L Eq x x := by
  refine Prog.Lockstep.mono ?_ (Prog.lockstep_self hpair htotal x (h s hs))
  intro r r' hr
  subst hr
  cases r <;> exact rfl

/-!
# What an action returns
-/

def Returns (Q : alpha -> Prop) (x : Action I alpha) : Prop :=
  Prog.Ends (fun
    | .ok a => Q a
    | .error _ => True) x

section Returns

variable {Q : alpha -> Prop}

theorem returns_pure {a : alpha} (h : Q a) :
    Returns Q (pure a : Action I alpha) :=
  h

theorem returns_throw (e : I.Failure) :
    Returns Q (throw e : Action I alpha) :=
  trivial

theorem returns_bind {R : beta -> Prop} {x : Action I alpha}
    {f : alpha -> Action I beta} (h : Returns Q x)
    (hf : forall a, Q a -> Returns R (f a)) : Returns R (x >>= f) := by
  refine Prog.Ends.bind h ?_
  intro r hr
  cases r with
  | ok a => exact hf a hr
  | error e => trivial

theorem returns_any (x : Action I alpha) : Returns (fun _ => True) x := by
  refine Prog.Ends.of_forall ?_ x
  intro r
  cases r <;> trivial

theorem returns_last {R : beta -> Prop} {x : Action I alpha}
    {f : alpha -> Action I beta} (hf : forall a, Returns R (f a)) :
    Returns R (x >>= f) :=
  returns_bind (returns_any x) (fun a _ => hf a)

theorem returns_tryCatch {x : Action I alpha}
    {f : I.Failure -> Action I alpha} (h : Returns Q x)
    (hf : forall e, Returns Q (f e)) : Returns Q (tryCatch x f) := by
  refine Prog.Ends.bind h ?_
  intro r hr
  cases r with
  | ok a => exact hr
  | error e => exact hf e

theorem Lockstep.returns {Q : alpha -> beta -> Prop} {R : alpha -> Prop}
    {x : Action I alpha} {y : Action I beta} (h : Lockstep L Q x y)
    (hx : Returns R x) : Lockstep L (fun a b => Q a b ∧ R a) x y := by
  refine Prog.Lockstep.mono ?_ (Prog.Lockstep.ends h hx)
  intro r r' hr
  rcases hr with ⟨hQ, hR⟩
  cases r <;> cases r' <;> first | exact hQ | exact ⟨hQ, hR⟩

end Returns

/-!
# Executing actions
-/

section Eval

variable (exec : (c : I.Cmd) -> sigma -> I.Reply c × sigma)

def eval (x : Action I alpha) (s : sigma) : Except I.Failure alpha × sigma :=
  Prog.eval exec x s

@[simp] theorem eval_pure (a : alpha) (s : sigma) :
    eval exec (pure a : Action I alpha) s = (.ok a, s) := rfl

@[simp] theorem eval_throw (e : I.Failure) (s : sigma) :
    eval exec (throw e : Action I alpha) s = (.error e, s) := rfl

@[simp] theorem eval_perform (c : I.Cmd) (s : sigma) :
    eval exec (perform c) s = exec c s := rfl

theorem eval_bind_of_ok {x : Action I alpha} {f : alpha -> Action I beta}
    {s t : sigma} {a : alpha} (h : eval exec x s = (.ok a, t)) :
    eval exec (x >>= f) s = eval exec (f a) t := by
  refine (Prog.eval_bind exec x _ s).trans ?_
  rw [show Prog.eval exec x s = (.ok a, t) from h]
  rfl

theorem eval_bind_of_error {x : Action I alpha} {f : alpha -> Action I beta}
    {s t : sigma} {e : I.Failure} (h : eval exec x s = (.error e, t)) :
    eval exec (x >>= f) s = (.error e, t) := by
  refine (Prog.eval_bind exec x _ s).trans ?_
  rw [show Prog.eval exec x s = (.error e, t) from h]
  rfl

theorem eval_tryCatch_of_ok {x : Action I alpha}
    {f : I.Failure -> Action I alpha} {s t : sigma} {a : alpha}
    (h : eval exec x s = (.ok a, t)) :
    eval exec (tryCatch x f) s = (.ok a, t) := by
  refine (Prog.eval_bind exec x _ s).trans ?_
  rw [show Prog.eval exec x s = (.ok a, t) from h]
  rfl

theorem eval_tryCatch_of_error {x : Action I alpha}
    {f : I.Failure -> Action I alpha} {s t : sigma} {e : I.Failure}
    (h : eval exec x s = (.error e, t)) :
    eval exec (tryCatch x f) s = eval exec (f e) t := by
  refine (Prog.eval_bind exec x _ s).trans ?_
  rw [show Prog.eval exec x s = (.error e, t) from h]
  rfl

theorem eval_tryCatch_congr {x y : Action I alpha}
    {f : I.Failure -> Action I alpha} {s t : sigma}
    (h : eval exec x s = eval exec y t) :
    eval exec (tryCatch x f) s = eval exec (tryCatch y f) t := by
  refine (Prog.eval_bind exec x _ s).trans ?_
  refine Eq.trans ?_ (Prog.eval_bind exec y _ t).symm
  rw [show Prog.eval exec x s = Prog.eval exec y t from h]

end Eval

end Action

end Foundation
end ExpressEcommerce
