import ExpressEcommerce.Orders.Acceptance
import ExpressEcommerce.Service.Symbolic

/-!
# Symbolic execution of the order statements

The rules for the pieces that handlers and processors share, on the real
states: the token, the statements on one order outside of a transaction, and
the loop over the stock.
-/

namespace ExpressEcommerce
namespace Orders

open Foundation
open Store
open Service
open Foundation.Action

section Rules

variable {ok : Cmd -> Env -> Prop}

theorem direct_authenticate {token : Token} {next : Customer -> Act Response}
    {Q : Response -> World × Tx -> Prop} {E : String -> World × Tx -> Prop}
    {w : World} {tx : Tx}
    (hunknown : forall r : Response, r.status = 401 ->
      (tokenCustomer? w.db.customers token = none ∨
        exists id, token = .valid id ∧
          MayFail (ok (.query false (.customerByPk id false)))) ->
      Q r (w, tx))
    (hnext : forall c, tokenCustomer? w.db.customers token = some c ->
      Action.wp (direct ok) (next c) Q E (w, tx)) :
    Action.wp (direct ok) (authenticateCustomer token next) Q E (w, tx) := by
  unfold authenticateCustomer authenticated
  cases token with
  | missing => exact hunknown _ rfl (Or.inl rfl)
  | invalid => exact hunknown _ rfl (Or.inl rfl)
  | valid id =>
      refine (wp_bind _ _ _).mpr ((wp_tryCatch _ _ _).mpr
        ((wp_bind _ _ _).mpr (direct_query rfl ?_ ?_)))
      · intro _
        refine (wp_pure _ _).mpr ?_
        have hanswer : Query.eval (w.view tx false) (.customerByPk id false) =
            w.db.customers.find? id := Database.customer?_false w.db id
        rw [hanswer]
        cases hfind : w.db.customers.find? id with
        | none => exact hunknown _ rfl (Or.inl hfind)
        | some c => exact hnext c hfind
      · intro hmay e
        exact hunknown _ rfl (Or.inr ⟨id, rfl, hmay⟩)

/-!
# Statements on one order

They are executed in the open transaction of the task, or directly.
-/

/-- Statements have been executed, as the task itself sees them. -/
structure Wrote (inTx : Bool) (us : List Change) (s s' : World × Tx) :
    Prop where
  performs : Performs (s.1.view s.2 inTx) us (s'.1.view s'.2 inTx)
  isSome : s'.2.isSome = inTx
  apart : inTx = true -> s'.1.db = s.1.db

theorem wrote_nil {inTx : Bool} {s : World × Tx} (htx : s.2.isSome = inTx) :
    Wrote inTx [] s s :=
  ⟨.nil _, htx, fun _ => rfl⟩

theorem Wrote.trans {inTx : Bool} {us more : List Change}
    {s t u : World × Tx} (h1 : Wrote inTx us s t)
    (h2 : Wrote inTx more t u) : Wrote inTx (us ++ more) s u := by
  refine ⟨h1.performs.trans h2.performs, h2.isSome, ?_⟩
  intro hinTx
  exact (h2.apart hinTx).trans (h1.apart hinTx)

theorem Wrote.direct {us : List Change} {w : World} {tx : Tx}
    {s' : World × Tx} (h : Wrote false us (w, tx) s') :
    s'.2 = none ∧ Performs w.db us s'.1.db := by
  refine ⟨?_, h.performs⟩
  have hnone := h.isSome
  cases htx : s'.2 with
  | none => rfl
  | some log =>
      rw [htx] at hnone
      cases hnone

variable {w : World} {tx : Tx} {inTx : Bool}
  {E : String -> World × Tx -> Prop}

theorem cache_record (x : Write) :
    (w.record tx inTx x).1.cache = w.cache := by
  unfold World.record
  split <;> rfl

theorem wrote_record {u : Change} (now : Nat) (htx : tx.isSome = inTx)
    (haccepts : (w.view tx inTx).acceptsChange u = true) :
    Wrote inTx [u] (w, tx) (w.record tx inTx (.update u now)) := by
  rcases record_spec htx rfl with ⟨hview, _, hsome, happart⟩
  refine ⟨?_, hsome, happart⟩
  have hstep : Performs (w.view tx inTx) [u]
      ((w.view tx inTx).write (.update u now)) :=
    .cons now haccepts (.nil _)
  rw [← hview] at hstep
  exact hstep

theorem Wrote.withCache {us : List Change} {s s' : World × Tx}
    (h : Wrote inTx us s s') (cache : Cache) :
    Wrote inTx us s ({ s'.1 with cache := cache }, s'.2) :=
  ⟨h.performs, h.isSome, h.apart⟩

theorem direct_saveStatus {o : Order} {status : Status}
    {Q : Order -> World × Tx -> Prop} (htx : tx.isSome = inTx)
    (hok : forall o' s', o'.id = o.id -> o'.deletedAt = o.deletedAt ->
      Wrote inTx (statusChange o status) (w, tx) s' -> Q o' s')
    (hfail : MayFail (ok (.update inTx (.orderStatus o.id status))) ->
      forall e, E e (w, tx)) :
    Action.wp (direct ok) (Order.saveStatus inTx o status) Q E (w, tx) := by
  unfold Order.saveStatus
  split
  · rename_i hsame
    refine hok o (w, tx) rfl rfl ?_
    unfold statusChange
    rw [if_pos hsame]
    exact wrote_nil htx
  · rename_i hdiff
    refine (wp_bind _ _ _).mpr (direct_update ?_ ?_ hfail)
    · intro now _ haccepts
      have hwrote := wrote_record now htx haccepts
      generalize w.record tx inTx (.update (.orderStatus o.id status) now) =
        s at hwrote ⊢
      rcases s with ⟨v, tx'⟩
      refine (wp_bind _ _ _).mpr (direct_invalidateOrderCache ?_)
      intro cache _
      refine hok _ _ rfl rfl ?_
      unfold statusChange
      rw [if_neg hdiff]
      exact hwrote.withCache cache
    · intro hrefused
      cases hrefused

theorem direct_destroy {o : Order} {Q : Order -> World × Tx -> Prop}
    (htx : tx.isSome = inTx) (hlive : o.deletedAt = none)
    (hok : forall o' s', Wrote inTx [.orderDeleted o.id true] (w, tx) s' ->
      Dropped ok (orderKey o.id) w.cache s'.1.cache -> Q o' s')
    (hfail : MayFail (ok (.update inTx (.orderDeleted o.id true))) ->
      forall e, E e (w, tx)) :
    Action.wp (direct ok) (Order.destroy inTx o) Q E (w, tx) := by
  unfold Order.destroy
  rw [hlive]
  refine (wp_bind _ _ _).mpr (direct_update ?_ ?_ hfail)
  · intro now _ haccepts
    have hwrote := wrote_record now htx haccepts
    have hcache : (w.record tx inTx
        (.update (.orderDeleted o.id true) now)).1.cache = w.cache :=
      cache_record _
    generalize w.record tx inTx (.update (.orderDeleted o.id true) now) =
      s at hwrote hcache ⊢
    rcases s with ⟨v, tx'⟩
    refine (wp_bind _ _ _).mpr ((wp_pure _ _).mpr ((wp_bind _ _ _).mpr
      (direct_invalidateOrderCache ?_)))
    intro cache hdropped
    rw [hcache] at hdropped
    exact hok _ _ (hwrote.withCache cache) hdropped
  · intro hrefused
    cases hrefused

theorem direct_restock {items : List OrderItem}
    {Q : PUnit -> World × Tx -> Prop} (htx : tx.isSome = inTx)
    (hok : forall s', Wrote inTx (restockChanges items) (w, tx) s' ->
      s'.1.cache = w.cache -> Q () s')
    (hstop : forall before item after s' e, items = before ++ item :: after ->
      Wrote inTx (restockChanges before) (w, tx) s' ->
      s'.1.cache = w.cache ->
      (MayFail (ok (.update inTx
          (.productStock item.productId item.quantity))) ∨
        (s'.1.view s'.2 inTx).acceptsChange
          (.productStock item.productId item.quantity) = false) ->
      E e s') :
    Action.wp (direct ok) (items.forM (fun item =>
      Product.incrementStock inTx item.productId item.quantity)) Q E
      (w, tx) := by
  -- the invariant: the items before those to come have been given back
  refine wp_forM (fun rest s => exists before, items = before ++ rest ∧
    Wrote inTx (restockChanges before) (w, tx) s ∧ s.1.cache = w.cache)
    ?_ ?_ items ⟨[], rfl, wrote_nil htx, rfl⟩
  · intro item rest s hinv
    rcases s with ⟨v, tx'⟩
    rcases hinv with ⟨before, hitems, hwrote, hcache⟩
    unfold Product.incrementStock
    refine (wp_bind _ _ _).mpr (direct_update ?_ ?_ ?_)
    · intro now _ haccepts
      refine (wp_pure _ _).mpr ⟨before ++ [item], ?_, ?_, ?_⟩
      · rw [hitems, List.append_assoc]
        rfl
      · unfold restockChanges at hwrote ⊢
        rw [List.map_append]
        exact hwrote.trans (wrote_record now hwrote.isSome haccepts)
      · rw [cache_record]
        exact hcache
    · intro hrefused e
      exact hstop before item rest _ e hitems hwrote hcache (Or.inr hrefused)
    · intro hmay e
      exact hstop before item rest _ e hitems hwrote hcache (Or.inl hmay)
  · intro s hinv
    rcases hinv with ⟨before, hitems, hwrote, hcache⟩
    rw [List.append_nil] at hitems
    rw [← hitems] at hwrote
    exact hok s hwrote hcache

end Rules

end Orders
end ExpressEcommerce
