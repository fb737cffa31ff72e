import ExpressEcommerce.Secrecy.Submitted

/-!
# Which answers depend on passwords

Worlds that differ only in stored passwords, with caches filled by the same
requests, answer alike unless the request discloses a password.
-/

namespace ExpressEcommerce
namespace Secrecy

open Foundation
open Store
open Service
open Foundation.Action

theorem eval_emailVerdict (env : Env) (body : CustomerBody) (w : World) :
    eval (exec env) (emailVerdict body) (w, none) =
      (.ok (body.email.all env.isEmail), (w, none)) := by
  unfold emailVerdict
  cases body.email <;> rfl

theorem same_validated_iff {env : Env} {w : World} {body : CustomerBody}
    {x : Act Response} {other : World -> Prop} {same : Prop}
    (h : (forall w', other w' -> answer env x w' = answer env x w) <-> same)
    (rules : Bool -> List (String × String)) :
    (forall w', other w' ->
        answer env (emailVerdict body >>= fun ok =>
            validateRequest (rules ok) x) w' =
          answer env (emailVerdict body >>= fun ok =>
            validateRequest (rules ok) x) w) <->
      (rules (body.email.all env.isEmail) = [] -> same) := by
  have hanswer : forall v, answer env (emailVerdict body >>= fun ok =>
      validateRequest (rules ok) x) v =
        if rules (body.email.all env.isEmail) = [] then answer env x v
        else ⟨422, .errors ((rules (body.email.all env.isEmail)).map
          (fun e => e.2))⟩ := by
    intro v
    rw [answer_bind (eval_emailVerdict env body v)]
    unfold validateRequest
    split <;> rfl
  simp only [hanswer]
  by_cases hrules : rules (body.email.all env.isEmail) = []
  · simp only [if_pos hrules]
    rw [h]
    exact ⟨fun hsame _ => hsame, fun hsame => hsame hrules⟩
  · simp only [if_neg hrules]
    exact ⟨fun _ hpass => absurd hpass hrules, fun _ _ _ => trivial⟩

theorem same_answers_iff {env : Env} {w : World} (hsteady : Steady env w)
    {other : World -> Prop} (hother : Others w other) {req : Request}
    (hlogin : forall body, req ≠ .loginCustomer body)
    (hregister : forall body, req ≠ .registerCustomer body) :
    (forall w', other w' -> (served env w' req).1 = (served env w req).1) <->
      discloses env w req = false := by
  cases hreq : submitsPassword req with
  | false =>
      rw [same_answers_iff_hidden hreq env hother,
        shows_served hsteady.healthy w hreq]
  | true =>
      cases req with
      | updateCustomer token id body =>
          refine (same_validated_iff (same_save_iff hsteady hother _ token id
            body _ _ _) _).trans ?_
          unfold discloses
          simp
      | patchCustomer token id body =>
          refine (same_validated_iff (same_save_iff hsteady hother _ token id
            body _ _ _) _).trans ?_
          unfold discloses
          simp
      | registerCustomer body => exact absurd rfl (hregister body)
      | loginCustomer body => exact absurd rfl (hlogin body)
      | _ => cases hreq

/-- Two worlds that differ only in stored passwords, and whose caches were
filled by the same earlier requests, answer a request alike, whichever they
are, exactly if the request discloses no password. -/
theorem answers_same_iff_not_disclosed {env : Env} {w : World}
    {earlier : List (Env × Request)}
    (hearlier : forall e, e ∈ earlier -> submitsPassword e.2 = false)
    (hsteady : Steady env (servedAll earlier w)) {req : Request}
    (hlogin : forall body, req ≠ .loginCustomer body)
    (hregister : forall body, req ≠ .registerCustomer body) :
    (forall w', erased w' = erased w ->
        (served env (servedAll earlier w') req).1 =
          (served env (servedAll earlier w) req).1) <->
      discloses env (servedAll earlier w) req = false := by
  have hothers : Others (servedAll earlier w)
      (fun v => exists w', erased w' = erased w ∧ v = servedAll earlier w') := by
    constructor
    · intro f
      exact ⟨maskWorld f w, erased_maskWorld f w,
        (servedAll_mask f hearlier w).symm⟩
    · intro v hv
      rcases hv with ⟨w', heq, hv⟩
      rw [hv]
      exact erased_servedAll hearlier heq
  rw [← same_answers_iff hsteady hothers hlogin hregister]
  constructor
  · intro h v hv
    rcases hv with ⟨w', heq, hv⟩
    rw [hv]
    exact h w' heq
  · intro h w' heq
    exact h _ ⟨w', heq, rfl⟩

/-!
# A customer with one order
-/

/-- A customer, stored with the given hash, has ordered a pen. -/
def boughtPen (digest : String) : World where
  db :=
    { customers :=
        { rows := [⟨1, "buyer", "buyer@shop", digest, 0, 0, none⟩]
          seq := 2
          nodup := List.nodup_singleton _
          below := by
            intro c hc
            rw [List.mem_singleton.mp hc]
            exact (by decide : (1 : Int) < 2) }
      products :=
        { rows := [⟨1, "pen", none, 250, 5, 0, 0, none⟩]
          seq := 2
          nodup := by decide
          below := by decide }
      orders :=
        { rows := [⟨1, 1, 250, .pending, 0, 0, none⟩]
          seq := 2
          nodup := by decide
          below := by decide }
      items :=
        { rows := [⟨1, 1, 1, 1, 250, 0, 0, none⟩]
          seq := 2
          nodup := by decide
          below := by decide }
      orderCustomer := by
        intro o ho
        rw [List.mem_singleton.mp ho]
        rfl
      itemOrder := by decide
      itemProduct := by decide }
  queue := []
  cache := []
  index := []

/-- The listing of all orders returns the hash of the customer. -/
theorem listing_returns_hash :
    erased (boughtPen "other") = erased (boughtPen "digest") ∧
      (served {} (boughtPen "other") (.getAllOrders (.valid 1) {})).1 ≠
        (served {} (boughtPen "digest") (.getAllOrders (.valid 1) {})).1 := by
  constructor
  · rfl
  · decide +kernel

/-- The listing by status does not, whatever the cache holds by then. -/
theorem listing_by_status_blind :
    discloses { now := 1, hash := fun _ => "digest" }
        (servedAll [({}, .getOrderById (.valid 1) "1")] (boughtPen "digest"))
        (.getOrdersByStatus (.valid 1) "pending" {}) = false ∧
      forall w', erased w' = erased (boughtPen "digest") ->
        (served { now := 1, hash := fun _ => "digest" }
          (servedAll [({}, .getOrderById (.valid 1) "1")] w')
          (.getOrdersByStatus (.valid 1) "pending" {})).1 =
        (served { now := 1, hash := fun _ => "digest" }
          (servedAll [({}, .getOrderById (.valid 1) "1")]
            (boughtPen "digest"))
          (.getOrdersByStatus (.valid 1) "pending" {})).1 := by
  refine ⟨rfl, (answers_same_iff_not_disclosed ?_ ?_ ?_ ?_).mpr rfl⟩
  · intro e he
    rw [List.mem_singleton.mp he]
    rfl
  · have hfits : Database.fitsText 255 "digest" = true := by decide
    refine ⟨rfl, fun _ => hfits, ?_⟩
    intro c hc
    have hrows : (servedAll [({}, .getOrderById (.valid 1) "1")]
        (boughtPen "digest")).db.customers.rows =
        [⟨1, "buyer", "buyer@shop", "digest", 0, 0, none⟩] := by
      decide +kernel
    rw [hrows] at hc
    rw [List.mem_singleton.mp hc]
    decide
  · intro body h
    cases h
  · intro body h
    cases h

end Secrecy
end ExpressEcommerce
