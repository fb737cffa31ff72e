import ExpressEcommerce.Concurrency.Demand

/-!
# Requests that succeed

A request for an order that has read rows which its lines pass against is not
stopped any more when no command fails: every statement that is left is
accepted by the store, whatever was sold in the meantime.
-/

namespace ExpressEcommerce
namespace Concurrency

open Foundation
open Store
open Service
open Orders
open Products
open Runs
open Stock

structure Fits (base : Database) (basket : Basket) (rows : List Product) :
    Prop where
  customers : base.customers = basket.customers
  lines : WellFormed basket.items
  passes : forall line, line ∈ basket.items -> Passes rows line
  row : forall id r, findProduct rows id = some r ->
    r.stock <= 2147483647 ∧ Database.fitsDecimal r.price = true ∧
      (base.products.find? id).isSome = true
  value : Database.fitsDecimal (orderValue rows basket.items) = true
  stock : forall p, 0 <= base.stock p ∧ base.stock p <= 2147483647

def underway : Stage -> Bool
  | .idle => false
  | .opened => false
  | .failed _ => false
  | _ => true

structure Succeeding (base : Database) (basket : Basket)
    (rows : List Product) (s : World × Tx) (stage : Stage) : Prop where
  here : stage.At basket (fun seen => seen = rows) s.1 s.2
  stored : Stored base s.1.db stage
  alive : underway stage = true

section Acceptance

variable {base : Database} {basket : Basket} {rows : List Product} {w : World}
  {tx : Tx} {s' : World × Tx}

theorem ok_of_insert {row : NewRow}
    {r : service.Reply (.insert true row)}
    (haccepts : forall now, (({ w with db := w.db.reserve row.table } :
      World).view tx true).accepts
        (row.write (w.db.nextId row.table) now) = true)
    (h : Next Healthy (w, tx) (.insert true row) r s') :
    exists a, r = .ok a := by
  cases r with
  | ok a => exact ⟨a, rfl⟩
  | error e =>
      rcases next_insert_error h with hfail | ⟨now, hrefused⟩
      · exact absurd hfail not_mayFail_healthy
      · rw [haccepts now] at hrefused
        cases hrefused

theorem ok_of_update {u : Change} {r : service.Reply (.update true u)}
    (haccepts : (w.view tx true).acceptsChange u = true)
    (h : Next Healthy (w, tx) (.update true u) r s') :
    exists a, r = .ok a := by
  rcases next_update h with ⟨now, rfl, _⟩ | ⟨_, _, hfail | hrefused⟩
  · exact ⟨now, rfl⟩
  · exact absurd hfail not_mayFail_healthy
  · rw [haccepts] at hrefused
    cases hrefused

theorem quantity_of_passes (hfits : Fits base basket rows)
    {line : ItemRequest} (hline : line ∈ basket.items) :
    0 < line.quantity ∧ line.quantity <= 2147483647 := by
  rcases hfits.passes line hline with ⟨r, hr, hle⟩
  exact ⟨hfits.lines.positive line hline,
    hle.trans (hfits.row _ r hr).left⟩

theorem accepts_item (hfits : Fits base basket rows) {d : Draft}
    {line : ItemRequest} {product : Product} (id : Int) (now : Nat)
    (hgrows : Grows base w.db) (hfresh : Fresh w.db d.order d.items)
    (hline : line ∈ basket.items)
    (hproduct : findProduct rows line.productId = some product) :
    ((w.db.reserve .items).writeAll d.log).accepts
      (.insertItem ⟨id, d.order.id, line.productId, line.quantity,
        product.price, now, now, none⟩) = true := by
  rcases view_of_log (hfresh.grows (grows_reserve_items w.db)) with
    ⟨horder, hexists, _⟩
  rcases hfits.row _ product hproduct with ⟨_, hprice, hbase⟩
  have hquantity := quantity_of_passes hfits hline
  have hrow : ((w.db.reserve .items).products.find?
      line.productId).isSome = true := by
    show (w.db.products.find? line.productId).isSome = true
    rw [hgrows.products]
    exact hbase
  have hfitsQuantity : Database.fitsInteger line.quantity = true :=
    decide_eq_true ⟨by omega, hquantity.right⟩
  show ((((w.db.reserve .items).writeAll d.log).orders.find?
      d.order.id).isSome &&
    (((w.db.reserve .items).writeAll d.log).products.find?
      line.productId).isSome &&
    Database.fitsInteger line.quantity &&
    Database.fitsDecimal product.price) = true
  rw [horder, hexists, hrow, hfitsQuantity, hprice]
  rfl

theorem quantityOf_before {lines : List ItemRequest} {line : ItemRequest}
    {items : List OrderItem} {todo : List ItemRequest}
    (hdistinct : ((lines ++ line :: todo).map ItemRequest.productId).Nodup)
    (hmatches : List.Forall₂ (Matches rows) lines items) :
    quantityOf items line.productId = 0 := by
  rw [quantityOf_eq_requested hmatches]
  unfold requested
  apply List.sum_eq_zero
  intro x hx
  rcases List.mem_map.mp hx with ⟨other, hother, rfl⟩
  apply if_neg
  intro heq
  rw [List.map_append, List.nodup_append] at hdistinct
  exact hdistinct.right.right _ (List.mem_map_of_mem hother) _
    (List.mem_map_of_mem List.mem_cons_self) heq

theorem accepts_take (hfits : Fits base basket rows) {d : Draft}
    {item : OrderItem} (hgrows : Grows base w.db)
    (hsound : (d.with item 0).Sound basket (fun seen => seen = rows))
    (hfresh : Fresh w.db d.order (d.items ++ [item])) :
    ((w.db.writeAll (d.log ++ [.insertItem item])).acceptsChange
      (.productStock item.productId (-item.quantity))) = true := by
  have hseen : d.products = rows := hsound.seen
  rcases hsound.lines with ⟨lines, hlines, hmatches⟩
  rw [Draft.items_with] at hmatches
  have hbefore := List.forall₂_take_append _ _ _ hmatches
  have hlast := List.forall₂_drop_append _ _ _ hmatches
  have hsplit := (List.take_append_drop d.items.length lines).symm
  generalize lines.take d.items.length = before at hbefore hsplit
  generalize lines.drop d.items.length = last at hlast hsplit
  cases hlast with
  | @cons line _ _ _ hmatch hnil =>
      cases hnil
      rw [hsplit, List.append_assoc] at hlines
      have hmem : line ∈ basket.items := by
        rw [hlines]
        simp
      have hzero : quantityOf d.items item.productId = 0 := by
        rw [hmatch.left]
        have hdistinct := hfits.lines.distinct
        rw [hlines] at hdistinct
        exact quantityOf_before hdistinct hbefore
      have hfresh' : Fresh w.db d.order d.items :=
        ⟨hfresh.order, hfresh.customer,
          fun i hi => hfresh.item i (List.mem_append_left _ hi), by
            have hnodup := hfresh.nodup
            rw [List.map_append, List.nodup_append] at hnodup
            exact hnodup.left⟩
      rcases view_of_log hfresh' with ⟨_, _, hstock⟩
      have hquantity := quantity_of_passes hfits hmem
      have hbound := hfits.stock item.productId
      rw [Database.writeAll_snoc]
      have hproducts : ((w.db.writeAll d.log).write
          (.insertItem item)).products = (w.db.writeAll d.log).products := by
        show ((w.db.writeAll d.log).insertItem item).products = _
        unfold Database.insertItem
        split <;> rfl
      show Option.all (fun r => Database.fitsInteger
        (r.stock + -item.quantity)) (((w.db.writeAll d.log).write
          (.insertItem item)).products.find? item.productId) = true
      rw [hproducts]
      cases hfind : (w.db.writeAll d.log).products.find? item.productId with
      | none => rfl
      | some r =>
          have hview := hstock item.productId
          rw [stock_of_find? hfind, hzero, stock_congr hgrows.products]
            at hview
          rw [Option.all_some]
          refine decide_eq_true ?_
          rw [hmatch.right.left]
          omega

theorem ok_of_newOrder (hfits : Fits base basket rows) {c : Customer}
    (hcustomers : w.db.customers = base.customers)
    (hc : tokenCustomer? basket.customers basket.token = some c)
    {r : service.Reply (.insert true (.order c.id 0 .pending))}
    (h : Next Healthy (w, some []) (.insert true (.order c.id 0 .pending)) r
      s') : exists a, r = .ok a := by
  refine ok_of_insert (fun now => ?_) h
  show ((w.db.customers.find? c.id).isSome && Database.fitsDecimal 0) = true
  rw [hcustomers, hfits.customers, find?_of_tokenCustomer? hc]
  rfl

theorem ok_of_newItem (hfits : Fits base basket rows) {d : Draft}
    {line : ItemRequest} {rest : List ItemRequest} {product : Product}
    (hgrows : Grows base w.db)
    (hsound : d.Sound basket (fun seen => seen = rows))
    (hfresh : Fresh w.db d.order d.items) (htodo : d.todo = line :: rest)
    (hproduct : findProduct d.products line.productId = some product)
    {r : service.Reply (.insert true
      (.item d.order.id line.productId line.quantity product.price))}
    (h : Next Healthy (w, some d.log) (.insert true
      (.item d.order.id line.productId line.quantity product.price)) r s') :
    exists a, r = .ok a := by
  have hline : line ∈ basket.items := by
    rcases hsound.lines with ⟨before, hbefore, _⟩
    rw [hbefore, htodo]
    simp
  have hseen : d.products = rows := hsound.seen
  rw [hseen] at hproduct
  refine ok_of_insert (fun now => ?_) h
  exact accepts_item hfits (w.db.nextId .items) now hgrows hfresh hline
    hproduct

theorem ok_of_total (hfits : Fits base basket rows) {d : Draft}
    (hsound : d.Sound basket (fun seen => seen = rows)) (htodo : d.todo = [])
    {r : service.Reply (.update true
      (.orderTotal d.order.id (lineSum d.items)))}
    (h : Next Healthy (w, tx) (.update true
      (.orderTotal d.order.id (lineSum d.items))) r s') :
    exists a, r = .ok a := by
  have hseen : d.products = rows := hsound.seen
  have hvalue : lineSum d.items = orderValue rows basket.items := by
    rcases hsound.lines with ⟨before, hbefore, hmatches⟩
    rw [htodo, List.append_nil] at hbefore
    rw [hbefore, ← hseen]
    exact lineSum_eq_orderValue hmatches
  refine ok_of_update ?_ h
  show Database.fitsDecimal (lineSum d.items) = true
  rw [hvalue]
  exact hfits.value

theorem ok_of_take (hfits : Fits base basket rows) {d : Draft}
    {item : OrderItem} (hgrows : Grows base w.db)
    (hsound : (d.with item 0).Sound basket (fun seen => seen = rows))
    (hfresh : Fresh w.db d.order (d.items ++ [item]))
    {r : service.Reply (.update true
      (.productStock item.productId (-item.quantity)))}
    (h : Next Healthy (w, some (d.log ++ [.insertItem item])) (.update true
      (.productStock item.productId (-item.quantity))) r s') :
    exists a, r = .ok a := by
  refine ok_of_update ?_ h
  exact accepts_take hfits hgrows hsound hfresh

end Acceptance

theorem succeeding_step {base : Database} {basket : Basket}
    {rows : List Product} (hfits : Fits base basket rows) {s s' : World × Tx}
    {stage : Stage} {c : Cmd} {r : service.Reply c}
    (h : Succeeding base basket rows s stage) (hmay : stage.may basket c)
    (hnext : Next Healthy s c r s') :
    exists stage', stage.next basket c r stage' ∧
      Succeeding base basket rows s' stage' := by
  rcases s with ⟨w, tx⟩
  have hat := h.here
  have hstored := h.stored
  have halive := h.alive
  have hnotOpened : stage = .opened -> Query.eval w.db (.productsById
      (basket.items.map ItemRequest.productId)) = rows := by
    rintro rfl
    cases halive
  rcases reached_step ((customers_of_stored hstored).trans hfits.customers)
    hnotOpened hat hmay hnext with ⟨stage', hnext', hat', hpassage⟩
  refine ⟨stage', hnext', hat', stored_passage hstored hpassage, ?_⟩
  unfold Stage.may at hmay
  split at hmay
  · cases halive
  · cases halive
  · cases halive
  · -- the order
    rcases hmay with ⟨rfl, rfl, rfl, ⟨c, hc, rfl⟩, _⟩
    rcases hat with ⟨rfl, _⟩
    rcases ok_of_newOrder hfits hstored.customers hc hnext with ⟨a, rfl⟩
    rcases hnext' with ⟨_, _, rfl⟩
    rfl
  · rcases hmay with ⟨line, hline, hnot⟩
    rw [hat.right.left] at hnot
    exact absurd (hfits.passes line hline) hnot
  · rw [show stage' = .building _ from hnext']
    rfl
  · -- an item
    rcases hmay with ⟨rfl, rfl, line, rest, product, htodo, hproduct, rfl,
      rfl, rfl⟩
    rcases hat with ⟨rfl, hsound, hfresh⟩
    rcases ok_of_newItem hfits hstored hsound hfresh htodo hproduct hnext with
      ⟨a, rfl⟩
    rcases hnext' with ⟨_, _, rfl⟩
    rfl
  · -- the total
    rcases hmay with ⟨rfl, htodo, rfl⟩
    rcases ok_of_total hfits hat.right.left htodo hnext with ⟨a, rfl⟩
    rcases hnext' with ⟨_, _, rfl⟩ | ⟨_, _, _, rfl⟩ <;> rfl
  · -- the hook of an item
    rcases hmay with ⟨rfl, rfl, rfl, rfl⟩
    rcases next_query hnext with ⟨_, rfl | ⟨_, hfail | hrefused⟩⟩
    · rw [hnext'.right]
      rfl
    · exact absurd hfail not_mayFail_healthy
    · cases hrefused
  · -- the stock of an item
    rcases hmay with ⟨rfl, rfl⟩
    rcases hat with ⟨rfl, hsound, hfresh⟩
    rcases ok_of_take hfits hstored hsound hfresh hnext with ⟨a, rfl⟩
    rcases hnext' with ⟨_, _, rfl⟩ | ⟨_, _, _, rfl⟩ <;> rfl
  · rcases hat with ⟨rfl, _⟩
    rcases next_commit hnext with ⟨rfl, _⟩ | ⟨_, _, hfail⟩
    · rcases hnext' with ⟨_, _, _, rfl⟩
      rfl
    · exact absurd hfail not_mayFail_healthy
  · rw [show stage' = .committed _ _ from hnext']
    rfl
  · cases halive
  · rw [show stage' = stage from hnext']
    exact halive
  · cases hmay

end Concurrency
end ExpressEcommerce
