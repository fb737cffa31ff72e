import ExpressEcommerce.Orders.Placed

/-!
# Requests for orders side by side

While several requests are running, each open transaction holds an order and
items under keys that no other request has.  This module states what the steps
of one request leave of the others: a step that only moves sequences or rows
that exist is quiet, and a commit inserts exactly the rows of its own draft.
-/

namespace ExpressEcommerce
namespace Concurrency

open Foundation
open Store
open Service
open Orders

/-- The order and the items in the open transaction of a request. -/
def pending? : Stage -> Option (Order × List OrderItem)
  | .created d => some (d.order, d.items)
  | .building d => some (d.order, d.items)
  | .inserted d item => some (d.order, d.items ++ [item])
  | .totalled d _ => some (d.order, d.items)
  | _ => none

def KeysApart (a b : Option (Order × List OrderItem)) : Prop :=
  forall o items o' items', a = some (o, items) -> b = some (o', items') ->
    o.id ≠ o'.id ∧ forall i, i ∈ items -> forall j, j ∈ items' -> i.id ≠ j.id

theorem KeysApart.symm {a b : Option (Order × List OrderItem)}
    (h : KeysApart a b) : KeysApart b a := by
  intro o items o' items' ho ho'
  rcases h o' items' o items ho' ho with ⟨hid, hitems⟩
  exact ⟨hid.symm, fun i hi j hj => (hitems j hj i hi).symm⟩

theorem keysApart_none (b : Option (Order × List OrderItem)) :
    KeysApart none b := by
  intro o items o' items' ho
  cases ho

/-- Rows are changed in place or stay as they are; only products may be new. -/
structure Quiet (db db' : Database) : Prop where
  customers : db'.customers = db.customers
  orders : forall id, (db'.orders.find? id).map Order.totalPrice =
    (db.orders.find? id).map Order.totalPrice
  items : db'.items.rows = db.items.rows
  product : forall p, (db.products.find? p).isSome = true ->
    (db'.products.find? p).isSome = true
  orderSeq : db.orders.seq <= db'.orders.seq
  itemSeq : db.items.seq <= db'.items.seq

theorem Quiet.refl (db : Database) : Quiet db db :=
  ⟨rfl, fun _ => rfl, rfl, fun _ h => h, le_refl _, le_refl _⟩

theorem Quiet.trans {db mid db' : Database} (h1 : Quiet db mid)
    (h2 : Quiet mid db') : Quiet db db' :=
  ⟨h2.customers.trans h1.customers,
    fun id => (h2.orders id).trans (h1.orders id), h2.items.trans h1.items,
    fun p hp => h2.product p (h1.product p hp),
    h1.orderSeq.trans h2.orderSeq, h1.itemSeq.trans h2.itemSeq⟩

theorem quiet_of_grows {db db' : Database} (h : Grows db db') :
    Quiet db db' := by
  refine ⟨h.customers, fun id => ?_, h.items, fun p hp => ?_, h.orderSeq,
    h.itemSeq⟩
  · unfold Table.find?
    rw [h.orders]
  · rw [h.products]
    exact hp

theorem Quiet.free {db db' : Database} (h : Quiet db db') {id : Int}
    (hfree : db.orders.find? id = none) : db'.orders.find? id = none := by
  have hmap := h.orders id
  rw [hfree] at hmap
  exact Option.map_eq_none_iff.mp hmap

/-!
# Keys stay free
-/

theorem fresh_quiet {db db' : Database} {o : Order} {items : List OrderItem}
    (h : Fresh db o items) (hquiet : Quiet db db') : Fresh db' o items := by
  refine ⟨⟨lt_of_lt_of_le h.order.left hquiet.orderSeq,
    hquiet.free h.order.right⟩, ?_, ?_, h.nodup⟩
  · rw [hquiet.customers]
    exact h.customer
  · intro i hi
    rcases h.item i hi with ⟨ho, hlt, hfree, hp⟩
    refine ⟨ho, lt_of_lt_of_le hlt hquiet.itemSeq, ?_, hquiet.product _ hp⟩
    unfold Table.find?
    rw [hquiet.items]
    exact hfree

theorem fresh_placed {db db' : Database} {o : Order} {items : List OrderItem}
    {d : Draft} {now : Nat} (h : Fresh db o items)
    (hplaced : Placed db db' d now) (hid : d.order.id ≠ o.id)
    (hitems : forall i, i ∈ d.items -> forall j, j ∈ items -> i.id ≠ j.id) :
    Fresh db' o items := by
  refine ⟨⟨?_, ?_⟩, ?_, ?_, h.nodup⟩
  · rw [hplaced.seq.left]
    exact h.order.left
  · rw [hplaced.order, if_neg hid.symm]
    exact h.order.right
  · rw [hplaced.customers]
    exact h.customer
  · intro j hj
    rcases h.item j hj with ⟨ho, hlt, hfree, hp⟩
    refine ⟨ho, ?_, ?_, ?_⟩
    · rw [hplaced.seq.right]
      exact hlt
    · rw [Table.find?_eq_none_iff] at hfree ⊢
      intro r hr
      rw [hplaced.items] at hr
      rcases List.mem_append.mp hr with hold | hnew
      · exact hfree r hold
      · exact hitems r hnew j hj
    · rw [isSome_of_offer (hplaced.product _)]
      exact hp

/-!
# The stages of a request
-/

section Stages

variable {basket basket' : Basket} {Seen Seen' : List Product -> Prop}
  {w w' : World} {tx tx' : Tx} {stage stage' other : Stage}

theorem fresh_of_pending {o : Order} {items : List OrderItem}
    (h : stage.At basket Seen w tx)
    (hpending : pending? stage = some (o, items)) : Fresh w.db o items := by
  cases stage with
  | created d | building d | inserted d item =>
      cases hpending
      exact h.right.right
  | totalled d now =>
      cases hpending
      exact h.right.right.right
  | idle | opened | read | committed | failed => cases hpending

theorem at_frame (h : stage.At basket Seen w tx)
    (hfresh : forall o items, pending? stage = some (o, items) ->
      Fresh w'.db o items) : stage.At basket Seen w' tx := by
  cases stage with
  | created d | building d | inserted d item =>
      exact ⟨h.left, h.right.left, hfresh _ _ rfl⟩
  | totalled d now =>
      exact ⟨h.left, h.right.left, h.right.right.left, hfresh _ _ rfl⟩
  | idle | opened | read | committed | failed => exact h

theorem at_quiet (h : stage.At basket Seen w tx)
    (hquiet : Quiet w.db w'.db) : stage.At basket Seen w' tx :=
  at_frame h (fun _ _ hp => fresh_quiet (fresh_of_pending h hp) hquiet)

theorem quiet_or_placed {ok : Env -> Prop}
    (h : Passage ok w w' stage stage') :
    Quiet w.db w'.db ∨ exists d now, stage = .totalled d now ∧
      stage' = .committed d now ∧ Placed w.db w'.db d now := by
  cases h with
  | stay hdb _ | first hdb _ | again hdb _ =>
      left
      rw [hdb]
      exact Quiet.refl _
  | quiet hdb _ _ => exact Or.inl (quiet_of_grows hdb)
  | newOrder hdb _ _ _ =>
      left
      rw [hdb]
      exact quiet_of_grows (grows_reserve_orders _)
  | newItem _ hdb _ _ =>
      left
      rw [hdb]
      exact quiet_of_grows (grows_reserve_items _)
  | @commit d now hfresh hdb _ =>
      right
      refine ⟨d, now, rfl, rfl, ?_⟩
      rw [hdb]
      exact placed_of_fresh hfresh

theorem keysApart_passage {ok : Env -> Prop}
    (hother : other.At basket' Seen' w tx')
    (hapart : KeysApart (pending? stage) (pending? other))
    (h : Passage ok w w' stage stage') :
    KeysApart (pending? stage') (pending? other) := by
  cases h with
  | stay _ _ | first _ _ => exact hapart
  | again _ _ | commit _ _ _ => exact keysApart_none _
  | quiet _ _ hstage =>
      cases hstage with
      | fail _ _ => exact keysApart_none _
      | start _ hearly =>
          cases stage' <;> cases hearly <;> exact keysApart_none _
      | take d item now =>
          show KeysApart (some (d.order, (d.with item now).items)) _
          rw [Draft.items_with]
          exact hapart
      | total d now => exact hapart
  | newOrder _ _ hid hnone =>
      -- a new key is above all keys that are in use
      intro o items o' items' ho ho'
      cases ho
      refine ⟨?_, fun i hi => ?_⟩
      · rw [hid]
        exact (fresh_of_pending hother ho').order.left.ne'
      · unfold Draft.items at hi
        rw [hnone] at hi
        cases hi
  | newItem _ _ _ hid =>
      intro o items o' items' ho ho'
      cases ho
      rcases hapart _ _ o' items' rfl ho' with ⟨hne, hitems⟩
      refine ⟨hne, fun i hi j hj => ?_⟩
      rcases List.mem_append.mp hi with hold | hnew
      · exact hitems i hold j hj
      · rw [List.mem_singleton.mp hnew, hid]
        exact ((fresh_of_pending hother ho').item j hj).right.left.ne'

theorem at_passage {ok : Env -> Prop} (hother : other.At basket' Seen' w tx')
    (hapart : KeysApart (pending? stage) (pending? other))
    (h : Passage ok w w' stage stage') : other.At basket' Seen' w' tx' := by
  rcases quiet_or_placed h with hquiet | ⟨d, now, rfl, rfl, hplaced⟩
  · exact at_quiet hother hquiet
  · refine at_frame hother (fun o items hp => ?_)
    rcases hapart _ _ o items rfl hp with ⟨hid, hitems⟩
    exact fresh_placed (fresh_of_pending hother hp) hplaced hid hitems

end Stages

end Concurrency
end ExpressEcommerce
