import ExpressEcommerce.Jobs.Advances

/-!
# Every step keeps the orders on their way

One lemma for each stage of an errand, and from them the step of any task.
-/

namespace ExpressEcommerce
namespace Jobs

open Foundation
open Store
open Service

section Step

variable {b : Bull} {w w' : World} {ghosts : List (Errand × Tx)} {i : Nat}
variable {tx tx' : Tx} {c : Cmd} {r : service.Reply c}

theorem Still.refl (w : World) : Still w w :=
  ⟨fun _ => rfl, rfl, le_refl _⟩

theorem tx_none (hc : c ≠ .begin) (h : TxStep none c tx') : tx' = none := by
  cases h with
  | opened => exact absurd rfl hc
  | _ => rfl

theorem goes_clear {g : Errand} {key : String} {r : service.Reply (.redisDel key)}
    (h : Afoot b w ghosts) (hi : ghosts[i]? = some (g, tx))
    (hstands : Stands w g tx)
    (hnext : Next Healthy (w, tx) (.redisDel key) r (w', tx')) :
    Goes b w g w' (ghosts.set i (g, tx')) g tx' := by
  have hstill : Still w w' := still_of_next rfl hnext
  have htx : tx' = tx := (next_aside rfl hnext).right.right
  subst htx
  exact goes_still h hi hstill (hstands.still hstill) rfl (fun _ hg => hg)
    (fun _ hg => hg)

theorem mild_of_aside (h : Errand.may False .aside c) :
    mild c = true ∧ c ≠ .begin := by
  cases c with
  | insert inTx row =>
      cases row <;> cases inTx <;> first | exact ⟨rfl, by rintro ⟨⟩⟩ | cases h
  | update inTx u =>
      cases u <;> cases inTx <;> first | exact ⟨rfl, by rintro ⟨⟩⟩ | cases h
  | begin | commit | addJob => cases h
  | _ => exact ⟨rfl, by rintro ⟨⟩⟩

theorem goes_aside (h : Afoot b w ghosts)
    (hi : ghosts[i]? = some (.aside, tx)) (hstands : Stands w .aside tx)
    (hmay : Errand.may False .aside c)
    (hnext : Next Healthy (w, tx) c r (w', tx')) :
    Goes b w .aside w' (ghosts.set i (.aside, tx')) .aside tx' := by
  cases hstands
  have hmild := mild_of_aside hmay
  exact goes_still h hi (still_of_next hmild.left hnext)
    (tx_none hmild.right (txStep_of_next hnext)) rfl (fun _ hg => hg)
    (fun _ hg => hg)

theorem goes_placing (h : Afoot b w ghosts)
    (hi : ghosts[i]? = some (.placing, tx)) (hstands : Stands w .placing tx)
    (hmay : Errand.may False .placing c)
    (hnext : Next Healthy (w, tx) c r (w', tx')) :
    Goes b w .placing w' (ghosts.set i (Errand.placing.after c r, tx'))
      (Errand.placing.after c r) tx' := by
  cases hstands
  have hcalm : calm c = true -> Goes b w .placing w'
      (ghosts.set i (.placing, tx')) .placing tx' := by
    intro hc
    cases next_calm hc hnext
    exact goes_still h hi (Still.refl w) rfl rfl (fun _ hg => hg)
      (fun _ hg => hg)
  cases c with
  | begin =>
      rcases next_begin hnext with ⟨rfl, heq⟩ | ⟨_, _, hfail⟩
      · cases heq
        exact goes_still h hi (Still.refl w) rfl rfl (by rintro _ ⟨⟩)
          (by rintro _ ⟨⟩)
      · exact absurd hfail not_mayFail_healthy
  | _ => exact hcalm hmay

theorem goes_opened (h : Afoot b w ghosts)
    (hi : ghosts[i]? = some (.opened, tx)) (hstands : Stands w .opened tx)
    (hmay : Errand.may False .opened c)
    (hnext : Next Healthy (w, tx) c r (w', tx')) :
    Goes b w .opened w' (ghosts.set i (Errand.opened.after c r, tx'))
      (Errand.opened.after c r) tx' := by
  cases hstands
  have hcalm : calm c = true -> Goes b w .opened w'
      (ghosts.set i (.opened, tx')) .opened tx' := by
    intro hc
    cases next_calm hc hnext
    exact goes_still h hi (Still.refl w) rfl rfl (fun _ hg => hg)
      (fun _ hg => hg)
  cases c with
  | rollback =>
      cases next_rollback hnext
      exact goes_still h hi (Still.refl w) rfl rfl (by rintro _ ⟨⟩)
        (by rintro _ ⟨⟩)
  | insert inTx row =>
      cases row with
      | order customerId totalPrice status =>
          rcases hmay with ⟨rfl, rfl⟩
          have hstill : Still w w' := still_of_next rfl hnext
          rcases next_insert hnext with ⟨now, rfl, _, heq⟩ | ⟨⟨e, rfl⟩, heq⟩
          · cases heq
            exact goes_insert (r := ⟨w.db.orders.seq, customerId, totalPrice,
              .pending, now, now, none⟩) h hi hstill rfl rfl rfl rfl rfl
          · have htx : tx' = some [] := by
              rcases heq with heq | heq <;> cases heq <;> rfl
            exact goes_still h hi hstill htx rfl (by rintro _ ⟨⟩)
              (by rintro _ ⟨⟩)
      | _ => cases hmay
  | _ => exact hcalm hmay

theorem goes_entered {id : Int} (h : Afoot b w ghosts)
    (hi : ghosts[i]? = some (.entered id, tx))
    (hstands : Stands w (.entered id) tx)
    (hmay : Errand.may False (.entered id) c)
    (hnext : Next Healthy (w, tx) c r (w', tx')) :
    Goes b w (.entered id) w'
      (ghosts.set i ((Errand.entered id).after c r, tx'))
      ((Errand.entered id).after c r) tx' := by
  cases c with
  | redisDel key => exact goes_clear h hi hstands hnext
  | addJob job =>
      cases hmay
      rcases next_addJob hnext with ⟨rfl, heq⟩ | ⟨_, _, hfail⟩
      · cases heq
        exact goes_queue h hi hstands rfl rfl
      · exact absurd hfail not_mayFail_healthy
  | commit | rollback => exact hmay.elim
  | _ => exact hmay.left.elim

theorem lays_next {ok : Env -> Prop} {log : List Write} (id : Int)
    (hc : Errand.lays c = true) (h : Next ok (w, some log) c r (w', tx')) :
    mild c = true ∧ exists more, tx' = some (log ++ more) ∧
      forall x, x ∈ more -> placesOnly id x := by
  have hsame : tx' = some log -> exists more, tx' = some (log ++ more) ∧
      forall x, x ∈ more -> placesOnly id x := by
    intro htx
    refine ⟨[], ?_, by rintro x ⟨⟩⟩
    rw [htx, List.append_nil]
  cases c with
  | insert inTx row =>
      cases row with
      | item =>
          cases inTx with
          | false => cases hc
          | true =>
              refine ⟨rfl, ?_⟩
              rcases next_insert h with ⟨now, _, _, heq⟩ | ⟨_, heq | heq⟩ <;>
                cases heq
              · refine ⟨[_], rfl, fun x hx => ?_⟩
                rw [List.mem_singleton.mp hx]
                trivial
              · exact hsame rfl
              · exact hsame rfl
      | _ => cases hc
  | update inTx u =>
      cases u with
      | orderTotal | productStock =>
          refine ⟨by cases inTx <;> rfl, ?_⟩
          rcases next_update h with ⟨now, _, _, heq⟩ | ⟨_, heq, _⟩
          · cases inTx <;> cases heq
            · exact hsame rfl
            · refine ⟨[_], rfl, fun x hx => ?_⟩
              rw [List.mem_singleton.mp hx]
              trivial
          · cases heq
            exact hsame rfl
      | _ => cases hc
  | redisDel key => exact ⟨rfl, hsame (next_aside rfl h).right.right⟩
  | query | search | bcryptHash | bcryptCompare | isEmail =>
      have heq : (w', tx') = (w, some log) := by
        refine next_calm ?_ h
        exact hc
      cases heq
      exact ⟨rfl, hsame rfl⟩
  | _ => cases hc

theorem goes_queued {id : Int} (h : Afoot b w ghosts)
    (hi : ghosts[i]? = some (.queued id, tx))
    (hstands : Stands w (.queued id) tx)
    (hmay : Errand.may False (.queued id) c)
    (hnext : Next Healthy (w, tx) c r (w', tx')) :
    Goes b w (.queued id) w'
      (ghosts.set i ((Errand.queued id).after c r, tx'))
      ((Errand.queued id).after c r) tx' := by
  have hcopy := hstands
  rcases hcopy with ⟨⟨hkey, habsent, log, rfl, hlog, hrow⟩, hwaiting, honly⟩
  have hlays : Errand.lays c = true -> Goes b w (.queued id) w'
      (ghosts.set i (.queued id, tx')) (.queued id) tx' := by
    intro hc
    rcases lays_next id hc hnext with ⟨hmild, more, rfl, hmore⟩
    have hself : Stands w (.queued id) (some (log ++ more)) := by
      refine ⟨⟨hkey, habsent, _, rfl, ?_, ?_⟩, hwaiting, honly⟩
      · intro x hx
        exact (List.mem_append.mp hx).elim (hlog x) (hmore x)
      · rcases hrow with ⟨r, hr, hid⟩
        exact ⟨r, List.mem_append_left _ hr, hid⟩
    have hstill := still_of_next hmild hnext
    exact goes_still h hi hstill (hself.still hstill) rfl (fun _ hg => hg)
      (by rintro _ ⟨⟩)
  cases c with
  | commit =>
      rcases next_commit hnext with ⟨_, heq⟩ | ⟨_, _, hfail⟩
      · cases heq
        exact goes_commit h hi hstands rfl rfl
      · exact absurd hfail not_mayFail_healthy
  | rollback =>
      cases next_rollback hnext
      have hself : Stands w (.placed id) none :=
        ⟨rfl, known_of_waiting hwaiting⟩
      exact goes_still h hi (Still.refl w) hself rfl (by rintro _ ⟨⟩)
        (by rintro _ ⟨⟩)
  | _ => exact hlays hmay

theorem goes_placed {id : Int} (h : Afoot b w ghosts)
    (hi : ghosts[i]? = some (.placed id, tx))
    (hstands : Stands w (.placed id) tx)
    (hmay : Errand.may False (.placed id) c)
    (hnext : Next Healthy (w, tx) c r (w', tx')) :
    Goes b w (.placed id) w'
      (ghosts.set i ((Errand.placed id).after c r, tx'))
      ((Errand.placed id).after c r) tx' := by
  rcases hstands with ⟨rfl, hknown⟩
  have hgo : w'.queue = w.queue -> w'.db = w.db -> tx' = none ->
      Goes b w (.placed id) w' (ghosts.set i (.placed id, tx')) (.placed id)
        tx' := by
    intro hqueue hdb htx
    have hstill : Still w w' :=
      ⟨fun _ => by rw [hdb], hqueue, le_of_eq (by rw [hdb])⟩
    have hself : Stands w (.placed id) tx' := ⟨htx, hknown⟩
    exact goes_still h hi hstill (hself.still hstill) rfl (fun _ hg => hg)
      (by rintro _ ⟨⟩)
  cases c with
  | addJob job =>
      cases hmay
      rcases next_addJob hnext with ⟨rfl, heq⟩ | ⟨_, _, hfail⟩
      · cases heq
        exact hgo (add_of_known hknown) rfl rfl
      · exact absurd hfail not_mayFail_healthy
  | rollback =>
      cases next_rollback hnext
      exact hgo rfl rfl rfl
  | _ => exact hmay.elim

theorem stands_read {job : Job} (h : Afoot b w ghosts)
    (hstands : Stands w (.begun job) none) :
    Stands w (Errand.read job
      ((w.db.order? job.orderId true).map (w.db.graph {}))) none := by
  rcases hstands with ⟨_, hgiven, hbefore⟩
  cases hfind : w.db.orders.find? job.orderId with
  | none =>
      have hnone : track w.db job.orderId = none := by
        unfold track
        rw [hfind]
        rfl
      unfold Database.order?
      rw [hfind]
      refine ⟨rfl, hgiven, fun s d htrack => ?_⟩
      rw [hnone] at htrack
      cases htrack
  | some o =>
      have htrack : track w.db job.orderId = some (o.status, o.deletedAt) := by
        unfold track
        rw [hfind]
        rfl
      rcases h.ways htrack with ⟨hlive, hway⟩
      have hlt := hbefore _ _ htrack
      have hahead := hway.ahead _ hgiven.known
      have horder : w.db.order? job.orderId true = some o := by
        unfold Database.order?
        rw [hfind]
        simp [hlive]
      rw [horder, Option.map_some]
      have hguard : ¬ ((o.deletedAt.isSome ∨ o.status = .cancelled) ∨
          o.status = .delivered ∨ o.status = job.targetStatus) := by
        rintro ((hdeleted | hcancelled) | hdelivered | hsame)
        · rw [hlive] at hdeleted
          cases hdeleted
        · exact hway.opened hcancelled
        · rw [hdelivered] at hlt
          refine hahead.right ?_
          cases hjob : job.targetStatus <;> rw [hjob] at hlt <;> first
            | rfl
            | exact absurd hlt (by decide)
        · rw [hsame] at hlt
          exact lt_irrefl _ hlt
      have hread : Errand.read job (some (w.db.graph {} o)) = .bound job :=
        if_neg hguard
      rw [hread]
      refine ⟨rfl, hgiven, _, _, htrack, next_of_stage hway.opened ?_ ?_⟩
      · intro hdelivered
        exact hguard (Or.inr (Or.inl hdelivered))
      · omega

theorem goes_begun {job : Job} (h : Afoot b w ghosts)
    (hi : ghosts[i]? = some (.begun job, tx))
    (hstands : Stands w (.begun job) tx)
    (hmay : Errand.may False (.begun job) c)
    (hnext : Next Healthy (w, tx) c r (w', tx')) :
    Goes b w (.begun job) w'
      (ghosts.set i ((Errand.begun job).after c r, tx'))
      ((Errand.begun job).after c r) tx' := by
  cases hmay
  have htx : tx = none := hstands.left
  subst htx
  rcases next_query hnext with ⟨heq, rfl | ⟨_, hfail | hrefused⟩⟩
  · cases heq
    refine goes_still h hi (Still.refl w) (stands_read h hstands) ?_ ?_
      (by rintro _ ⟨⟩)
    · exact Errand.job?_after
    · intro id hid
      cases (Errand.open?_read job _).symm.trans hid
  · exact absurd hfail not_mayFail_healthy
  · cases hrefused

theorem goes_bound {job : Job} (h : Afoot b w ghosts)
    (hi : ghosts[i]? = some (.bound job, tx))
    (hstands : Stands w (.bound job) tx)
    (hmay : Errand.may False (.bound job) c)
    (hnext : Next Healthy (w, tx) c r (w', tx')) :
    Goes b w (.bound job) w'
      (ghosts.set i ((Errand.bound job).after c r, tx'))
      ((Errand.bound job).after c r) tx' := by
  cases hmay
  have htx : tx = none := hstands.left
  subst htx
  rcases next_update hnext with ⟨now, rfl, _, heq⟩ | ⟨_, _, hfail | hrefused⟩
  · cases heq
    exact goes_move h hi hstands rfl rfl
  · exact absurd hfail not_mayFail_healthy
  · cases hrefused

theorem goes_moved {job : Job} (h : Afoot b w ghosts)
    (hi : ghosts[i]? = some (.moved job, tx))
    (hstands : Stands w (.moved job) tx)
    (hmay : Errand.may False (.moved job) c)
    (hnext : Next Healthy (w, tx) c r (w', tx')) :
    Goes b w (.moved job) w'
      (ghosts.set i ((Errand.moved job).after c r, tx'))
      ((Errand.moved job).after c r) tx' := by
  cases c with
  | redisDel key => exact goes_clear h hi hstands hnext
  | addJob next =>
      have htx : tx = none := hstands.left
      subst htx
      rcases next_addJob hnext with ⟨rfl, heq⟩ | ⟨_, _, hfail⟩
      · cases heq
        exact goes_finish h hi hstands hmay.left hmay.right rfl rfl
      · exact absurd hfail not_mayFail_healthy
  | _ => exact hmay.elim

theorem goes_step {g : Errand} (h : Afoot b w ghosts)
    (hi : ghosts[i]? = some (g, tx)) (hstands : Stands w g tx)
    (hmay : g.may False c) (hnext : Next Healthy (w, tx) c r (w', tx')) :
    Goes b w g w' (ghosts.set i (g.after c r, tx')) (g.after c r) tx' := by
  cases g with
  | aside => exact goes_aside h hi hstands hmay hnext
  | ordering => exact hstands.elim
  | placing => exact goes_placing h hi hstands hmay hnext
  | opened => exact goes_opened h hi hstands hmay hnext
  | entered id => exact goes_entered h hi hstands hmay hnext
  | queued id => exact goes_queued h hi hstands hmay hnext
  | placed id => exact goes_placed h hi hstands hmay hnext
  | begun job => exact goes_begun h hi hstands hmay hnext
  | bound job => exact goes_bound h hi hstands hmay hnext
  | moved job => exact goes_moved h hi hstands hmay hnext
  | finished job =>
      cases c with
      | redisDel key => exact goes_clear h hi hstands hnext
      | _ => exact hmay.elim

/-- Every task that may take a step keeps the invariant. -/
theorem preserves_afoot :
    Pool.Preserves (system Healthy) (errands False)
      (Pool.Jointly (Afoot b) Stands Apart) := by
  refine Pool.preserves_jointly Apart.symm ?_
  intro s s' ghosts i g here here' c r others hall hi hself hmay _ hnext
  have hforeseen : Errand.foreseen False c r := by
    rw [← eq_false not_mayFail_healthy]
    exact foreseen_of_next hnext
  have hgoes := goes_step hall hi hself hmay hnext
  exact ⟨_, ⟨hforeseen, rfl⟩, hgoes.all, hgoes.self,
    fun h there _ => hgoes.others h there⟩

end Step

end Jobs
end ExpressEcommerce
