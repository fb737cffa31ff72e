import ExpressEcommerce.Foundation.Interleaving
import ExpressEcommerce.Foundation.Lockstep

/-!
# Pools in lockstep

Two pools of programs that run in lockstep, thread by thread, go through the
same shared states: whatever the threads of the one can do, those of the other
can do as well.
-/

namespace ExpressEcommerce
namespace Foundation

variable {I : Interface} {alpha beta gamma shared priv : Type}

theorem Prog.lockstep_refl {L : I.Pairing}
    (hL : forall c, exists rel, L c c rel ∧ forall r r', rel r r' -> r = r')
    (p : Prog I alpha) : Lockstep L Eq p p := by
  induction p with
  | ret a => exact rfl
  | call c k ih =>
      rcases hL c with ⟨rel, hrel, heq⟩
      refine ⟨rel, hrel, ?_⟩
      intro r r' hr
      rw [← heq r r' hr]
      exact ih r

theorem Prog.Lockstep.flip {L L' : I.Pairing} {Q : alpha -> beta -> Prop}
    (hL : forall {c c' rel}, L c c' rel -> exists rel', L' c' c rel' ∧
      forall r' r, rel' r' r -> rel r r')
    {p : Prog I alpha} {q : Prog I beta} (h : Lockstep L Q p q) :
    Lockstep L' (fun b a => Q a b) q p := by
  induction p generalizing q with
  | ret a =>
      cases q with
      | ret b => exact h
      | call c' k' => exact h.elim
  | call c k ih =>
      cases q with
      | ret b => exact h.elim
      | call c' k' =>
          rcases h with ⟨rel, hrel, hk⟩
          rcases hL hrel with ⟨rel', hrel', hturn⟩
          exact ⟨rel', hrel', fun r' r hr => ih r (hk r r' (hturn r' r hr))⟩

theorem Prog.Lockstep.bind_left {L : I.Pairing} {Q : alpha -> beta -> Prop}
    {R : gamma -> beta -> Prop} {p : Prog I alpha} {q : Prog I beta}
    {f : alpha -> Prog I gamma} (h : Lockstep L Q p q)
    (hf : forall a b, Q a b -> exists c, f a = .ret c ∧ R c b) :
    Lockstep L R (p.bind f) q := by
  induction p generalizing q with
  | ret a =>
      cases q with
      | ret b =>
          rcases hf a b h with ⟨c, hc, hR⟩
          show Lockstep L R (f a) (.ret b)
          rw [hc]
          exact hR
      | call c' k' => exact h.elim
  | call c k ih =>
      cases q with
      | ret b => exact h.elim
      | call c' k' =>
          rcases h with ⟨rel, hrel, hk⟩
          exact ⟨rel, hrel, fun r r' hr => ih r (hk r r' hr)⟩

theorem Action.lockstep_map {L : I.Pairing} {Q : alpha -> beta -> Prop}
    {R : gamma -> beta -> Prop} {x : Action I alpha} {y : Action I beta}
    (f : alpha -> gamma) (h : Lockstep L Q x y)
    (hf : forall a b, Q a b -> R (f a) b) :
    Lockstep L R (x >>= fun a => pure (f a)) y := by
  refine Prog.Lockstep.bind_left h ?_
  intro r r' hr
  cases r with
  | error e =>
      cases r' with
      | error e' => exact ⟨.error e, rfl, hr⟩
      | ok b => exact hr.elim
  | ok a =>
      cases r' with
      | error e' => exact hr.elim
      | ok b => exact ⟨.ok (f a), rfl, hf a b hr⟩

theorem Action.lockstep_refl {L : I.Pairing}
    (hL : forall c, exists rel, L c c rel ∧ forall r r', rel r r' -> r = r')
    (x : Action I alpha) : Lockstep L Eq x x := by
  refine Prog.Lockstep.mono ?_ (Prog.lockstep_refl hL x)
  rintro r _ rfl
  cases r <;> exact rfl

theorem Action.lockstep_foldlM {L : I.Pairing} {f : beta -> alpha -> Action I beta}
    {g : gamma -> alpha -> Action I gamma}
    (R : List alpha -> beta -> gamma -> Prop)
    (hstep : forall done x b c, R done b c ->
      Lockstep L (R (done ++ [x])) (f b x) (g c x))
    (done xs : List alpha) {b : beta} {c : gamma} (h : R done b c) :
    Lockstep L (R (done ++ xs)) (xs.foldlM f b) (xs.foldlM g c) := by
  induction xs generalizing done b c with
  | nil =>
      rw [List.append_nil]
      exact lockstep_pure h
  | cons x rest ih =>
      rw [List.foldlM_cons, List.foldlM_cons]
      refine lockstep_bind (hstep done x b c h) ?_
      intro b' c' h'
      have hrest := ih (done ++ [x]) h'
      rwa [List.append_assoc, List.singleton_append] at hrest

namespace Pool

/-- Pools with the same shared state whose threads are in lockstep. -/
structure Paired (L : I.Pairing) (Q : alpha -> beta -> Prop)
    (pool : Pool I shared priv alpha) (pool' : Pool I shared priv beta) :
    Prop where
  shared : pool'.shared = pool.shared
  length : pool'.threads.length = pool.threads.length
  threads : forall {i : Nat} {t : Thread I priv alpha},
    pool.threads[i]? = some t -> exists p',
      pool'.threads[i]? = some ⟨t.here, p'⟩ ∧ Prog.Lockstep L Q t.prog p'

variable {L : I.Pairing} {Q : alpha -> beta -> Prop}
  {pool : Pool I shared priv alpha} {pool' : Pool I shared priv beta}

theorem Paired.heres (h : Paired L Q pool pool') :
    pool'.threads.map Thread.here = pool.threads.map Thread.here := by
  apply List.ext_getElem?
  intro i
  rw [List.getElem?_map, List.getElem?_map]
  cases ht : pool.threads[i]? with
  | none =>
      have hlen : pool'.threads.length ≤ i := by
        rw [h.length]
        exact List.getElem?_eq_none_iff.mp ht
      rw [List.getElem?_eq_none_iff.mpr hlen]
      rfl
  | some t =>
      rcases h.threads ht with ⟨p', hp', _⟩
      rw [hp']
      rfl

theorem Paired.others (h : Paired L Q pool pool') (i : Nat) :
    pool'.others i = pool.others i := by
  unfold Pool.others
  rw [← List.eraseIdx_map, ← List.eraseIdx_map, h.heres]

theorem Paired.flip {L' : I.Pairing}
    (hL : forall {c c' rel}, L c c' rel -> exists rel', L' c' c rel' ∧
      forall r' r, rel' r' r -> rel r r')
    (h : Paired L Q pool pool') :
    Paired L' (fun b a => Q a b) pool' pool := by
  refine ⟨h.shared.symm, h.length.symm, ?_⟩
  intro i t' ht'
  have hlt : i < pool.threads.length := by
    rw [← h.length]
    exact (List.getElem?_eq_some_iff.mp ht').1
  rcases h.threads (List.getElem?_eq_getElem hlt) with ⟨p', hp', hlock⟩
  rw [ht'] at hp'
  cases hp'
  exact ⟨_, List.getElem?_eq_getElem hlt, hlock.flip hL⟩

theorem Paired.ended (h : Paired L Q pool pool') {i : Nat} {here : priv}
    {a : alpha} (hend : pool.threads[i]? = some ⟨here, .ret a⟩) :
    exists b, pool'.threads[i]? = some ⟨here, .ret b⟩ ∧ Q a b := by
  rcases h.threads hend with ⟨p', hp', hlock⟩
  cases p' with
  | ret b => exact ⟨b, hp', hlock⟩
  | call c k => exact hlock.elim

section Steps

variable {S : System I shared priv}
  (hnext : forall {s c c' rel r s'}, L c c' rel -> S.next s c r s' ->
    exists r', S.next s c' r' s' ∧ rel r r')
  (henabled : forall {others c c' rel}, L c c' rel -> S.enabled others c ->
    S.enabled others c')

include hnext henabled

theorem step_lockstep {last : Pool I shared priv alpha}
    (h : Paired L Q pool pool') (hstep : Step S pool last) :
    exists last', Step S pool' last' ∧ Paired L Q last last' := by
  cases hstep with
  | @mk i here here' c k r s' hthread hgo hcommand =>
      rcases h.threads hthread with ⟨p', hp', hlock⟩
      -- the partner is about to issue the paired command
      cases p' with
      | ret b => exact hlock.elim
      | call c' k' =>
          rcases hlock with ⟨rel, hL, hk⟩
          rcases hnext hL hcommand with ⟨r', hcommand', hrel⟩
          rw [← h.shared] at hcommand'
          have hgo' : S.enabled (pool'.others i) c' := by
            rw [h.others]
            exact henabled hL hgo
          refine ⟨_, Step.mk i hp' hgo' hcommand', rfl, ?_, ?_⟩
          · rw [List.length_set, List.length_set]
            exact h.length
          · intro j t ht
            have hlt : i < pool.threads.length :=
              (List.getElem?_eq_some_iff.mp hthread).1
            by_cases hij : i = j
            · subst hij
              rw [List.getElem?_set_self hlt] at ht
              cases ht
              refine ⟨k' r', ?_, hk r r' hrel⟩
              rw [← h.length] at hlt
              exact List.getElem?_set_self hlt
            · rw [List.getElem?_set_ne hij] at ht ⊢
              exact h.threads ht

theorem reaches_lockstep {last : Pool I shared priv alpha}
    (h : Paired L Q pool pool') (hreach : Reaches S pool last) :
    exists last', Reaches S pool' last' ∧ Paired L Q last last' := by
  induction hreach with
  | refl => exact ⟨pool', Relation.ReflTransGen.refl, h⟩
  | tail _ hstep ih =>
      rcases ih with ⟨mid', hmid', hpaired⟩
      rcases step_lockstep hnext henabled hpaired hstep with
        ⟨last', hlast', hpaired'⟩
      exact ⟨last', hmid'.tail hlast', hpaired'⟩

end Steps

theorem paired_start {tasks : List gamma} {s : shared} {here : priv}
    {code : gamma -> Prog I alpha} {code' : gamma -> Prog I beta}
    (h : forall b, b ∈ tasks -> Prog.Lockstep L Q (code b) (code' b)) :
    Paired L Q
      (⟨s, tasks.map (fun b => ⟨here, code b⟩)⟩ : Pool I shared priv alpha)
      (⟨s, tasks.map (fun b => ⟨here, code' b⟩)⟩ :
        Pool I shared priv beta) := by
  refine ⟨rfl, ?_, ?_⟩
  · rw [List.length_map, List.length_map]
  · intro i t ht
    rw [List.getElem?_map] at ht
    rcases Option.map_eq_some_iff.mp ht with ⟨b, hb, rfl⟩
    refine ⟨code' b, ?_, h b (List.mem_of_getElem? hb)⟩
    rw [List.getElem?_map, hb]
    rfl

end Pool

end Foundation
end ExpressEcommerce
