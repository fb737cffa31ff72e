import ExpressEcommerce.Orders.Placing
import ExpressEcommerce.Store.Frames

/-!
# Drafts of orders in the store

What the log of a placed order does to a store in which its keys are free, and
how every command of a request for an order keeps its keys and its log in step
with the stage it is in.  Nothing here assumes that the request runs alone.
-/

namespace ExpressEcommerce
namespace Orders

open Foundation
open Store
open Service

/-- The keys of a draft were handed out and are not in use. -/
structure Fresh (db : Database) (o : Order) (items : List OrderItem) :
    Prop where
  order : o.id < db.orders.seq ∧ db.orders.find? o.id = none
  customer : (db.customers.find? o.customerId).isSome = true
  item : forall i, i ∈ items -> i.orderId = o.id ∧ i.id < db.items.seq ∧
    db.items.find? i.id = none ∧
    (db.products.find? i.productId).isSome = true
  nodup : (items.map OrderItem.id).Nodup

def offer (r : Product) : Int × Option Nat :=
  (r.price, r.deletedAt)

/-!
# Applying the log
-/

theorem insertItem_spec {db : Database} {i : OrderItem}
    (horder : (db.orders.find? i.orderId).isSome = true)
    (hproduct : (db.products.find? i.productId).isSome = true)
    (hlt : i.id < db.items.seq) (hfree : db.items.find? i.id = none) :
    (db.insertItem i).customers = db.customers ∧
      (db.insertItem i).orders = db.orders ∧
      (db.insertItem i).products = db.products ∧
      (db.insertItem i).items.rows = db.items.rows ++ [i] ∧
      (db.insertItem i).items.seq = db.items.seq := by
  unfold Database.insertItem
  rw [dif_pos ⟨horder, hproduct⟩]
  exact ⟨rfl, rfl, rfl, Table.insert_of_fresh hlt hfree,
    Table.insert_seq _ _⟩

theorem insertOrder_spec {db : Database} {o : Order}
    (hcustomer : (db.customers.find? o.customerId).isSome = true)
    (hlt : o.id < db.orders.seq) (hfree : db.orders.find? o.id = none) :
    (db.insertOrder o).customers = db.customers ∧
      (db.insertOrder o).items = db.items ∧
      (db.insertOrder o).products = db.products ∧
      (db.insertOrder o).orders.seq = db.orders.seq ∧
      forall id, (db.insertOrder o).orders.find? id =
        if id = o.id then some o else db.orders.find? id := by
  unfold Database.insertOrder
  rw [dif_pos hcustomer]
  exact ⟨rfl, rfl, rfl, Table.insert_seq _ _,
    Table.find?_insert_of_fresh hlt hfree⟩

theorem isSome_of_offer {a b : Option Product}
    (h : a.map offer = b.map offer) : a.isSome = b.isSome := by
  rw [← Option.isSome_map, h, Option.isSome_map]

theorem writeAll_lines {db : Database} {orderId : Int}
    (taken : List (OrderItem × Nat))
    (horder : (db.orders.find? orderId).isSome = true)
    (hitem : forall i, i ∈ taken.map Prod.fst -> i.orderId = orderId ∧
      i.id < db.items.seq ∧ db.items.find? i.id = none ∧
      (db.products.find? i.productId).isSome = true)
    (hnodup : ((taken.map Prod.fst).map OrderItem.id).Nodup) :
    let db' := db.writeAll (taken.flatMap Draft.lineWrites)
    db'.customers = db.customers ∧ db'.orders = db.orders ∧
      db'.items.rows = db.items.rows ++ taken.map Prod.fst ∧
      db'.items.seq = db.items.seq ∧
      (forall p, (db'.products.find? p).map offer =
        (db.products.find? p).map offer) ∧
      forall p, db'.stock p = db.stock p - quantityOf (taken.map Prod.fst) p := by
  induction taken generalizing db with
  | nil => simp [quantityOf]
  | cons entry rest ih =>
      rcases entry with ⟨i, now⟩
      rw [List.map_cons] at hitem hnodup
      rcases hitem i List.mem_cons_self with ⟨ho, hlt, hfree, hp⟩
      rw [← ho] at horder
      rcases insertItem_spec horder hp hlt hfree with
        ⟨hc1, ho1, hp1, hrows1, hseq1⟩
      have hp1' : ((db.insertItem i).products.find? i.productId).isSome =
          true := by
        rw [hp1]
        exact hp
      have hoffer : forall p,
          (((db.insertItem i).update
            (.productStock i.productId (-i.quantity)) now).products.find?
              p).map offer = (db.products.find? p).map offer := by
        intro p
        rw [Database.find?_update_productStock, hp1]
        split
        · rw [Option.map_map]
          rfl
        · rfl
      rw [List.map_cons, List.nodup_cons] at hnodup
      -- the keys of the other items are still free after this one
      have hrest := @ih
        ((db.insertItem i).update
          (.productStock i.productId (-i.quantity)) now)
        (by
          show ((db.insertItem i).orders.find? orderId).isSome = true
          rw [ho1, ← ho]
          exact horder)
        (by
          intro j hj
          rcases hitem j (List.mem_cons_of_mem i hj) with
            ⟨hoj, hltj, hfreej, hpj⟩
          refine ⟨hoj, ?_, ?_, ?_⟩
          · show j.id < (db.insertItem i).items.seq
            rw [hseq1]
            exact hltj
          · show (db.insertItem i).items.find? j.id = none
            rw [Table.find?_eq_none_iff, hrows1]
            rw [Table.find?_eq_none_iff] at hfreej
            intro r hr
            rcases List.mem_append.mp hr with hold | hnew
            · exact hfreej r hold
            · rw [List.mem_singleton.mp hnew]
              intro heq
              refine hnodup.left ?_
              have hmem := List.mem_map_of_mem (f := OrderItem.id) hj
              rw [← heq] at hmem
              exact hmem
          · rw [isSome_of_offer (hoffer j.productId)]
            exact hpj)
        hnodup.right
      rcases hrest with ⟨hc, ho', hrows, hseq, hoffer', hstock⟩
      refine ⟨hc.trans hc1, ho'.trans ho1, ?_, hseq.trans hseq1,
        fun p => (hoffer' p).trans (hoffer p), fun p => ?_⟩
      · refine hrows.trans ?_
        show (db.insertItem i).items.rows ++ _ = _
        rw [hrows1, List.append_assoc]
        rfl
      · refine (hstock p).trans ?_
        rw [stock_update_productStock _ _ _ _ hp1', stock_congr hp1]
        unfold quantityOf
        rw [List.map_cons, List.map_cons, List.sum_cons]
        dsimp only
        split <;> omega

def Draft.placed (d : Draft) (now : Nat) : Order :=
  { d.order with totalPrice := lineSum d.items, updatedAt := now }

/-- The whole log, applied to a store in which the keys are free. -/
structure Placed (db db' : Database) (d : Draft) (now : Nat) : Prop where
  customers : db'.customers = db.customers
  seq : db'.orders.seq = db.orders.seq ∧ db'.items.seq = db.items.seq
  free : db.orders.find? d.order.id = none
  order : forall id, db'.orders.find? id =
    if id = d.order.id then some (d.placed now) else db.orders.find? id
  items : db'.items.rows = db.items.rows ++ d.items
  owner : forall i, i ∈ d.items -> i.orderId = d.order.id
  product : forall p, (db'.products.find? p).map offer =
    (db.products.find? p).map offer
  stock : forall p, db'.stock p = db.stock p - quantityOf d.items p
  others : forall p, p ∉ d.items.map OrderItem.productId ->
    db'.products.find? p = db.products.find? p

theorem Draft.product_of_log {d : Draft} {now : Nat} {p : Int}
    (h : (TableName.products, p) ∈ (d.fullLog now).map Write.row) :
    p ∈ d.items.map OrderItem.productId := by
  rcases List.mem_map.mp h with ⟨x, hx, hrow⟩
  rcases List.mem_append.mp hx with hx | hx
  · rcases List.mem_cons.mp hx with rfl | hx
    · cases hrow
    · rcases List.mem_flatMap.mp hx with ⟨entry, hentry, hx⟩
      rcases List.mem_cons.mp hx with rfl | hx
      · cases hrow
      · rw [List.mem_singleton.mp hx] at hrow
        cases hrow
        exact List.mem_map_of_mem (List.mem_map_of_mem hentry)
  · rw [List.mem_singleton.mp hx] at hrow
    cases hrow

theorem placed_of_fresh {db : Database} {d : Draft} {now : Nat}
    (h : Fresh db d.order d.items) :
    Placed db (db.writeAll (d.fullLog now)) d now := by
  have hothers : forall p, p ∉ d.items.map OrderItem.productId ->
      (db.writeAll (d.fullLog now)).products.find? p =
        db.products.find? p :=
    fun p hp => Database.sameRow_writeAll db (d.fullLog now)
      (fun h => hp (Draft.product_of_log h))
  rcases insertOrder_spec h.customer h.order.left h.order.right with
    ⟨hc1, hi1, hp1, hseq1, hfind1⟩
  have hsome : ((db.insertOrder d.order).orders.find? d.order.id).isSome =
      true := by
    rw [hfind1, if_pos rfl]
    rfl
  rcases writeAll_lines d.taken hsome
    (by
      rw [hi1, hp1]
      exact h.item)
    h.nodup with ⟨hc2, ho2, hrows2, hseq2, hp2, hstock2⟩
  unfold Draft.fullLog Draft.log at hothers ⊢
  rw [Database.writeAll_snoc, Database.writeAll_cons] at hothers ⊢
  refine ⟨hc2.trans hc1, ⟨?_, ?_⟩, h.order.right, fun id => ?_, ?_,
    fun i hi => (h.item i hi).left, fun p => ?_, fun p => ?_, hothers⟩
  · exact (congrArg Table.seq ho2).trans hseq1
  · exact hseq2.trans (congrArg Table.seq hi1)
  · refine (Database.find?_update_orderTotal _ _ _ _ _).trans ?_
    have hmid : forall j,
        ((db.write (.insertOrder d.order)).writeAll
          (d.taken.flatMap Draft.lineWrites)).orders.find? j =
            if j = d.order.id then some d.order else db.orders.find? j := by
      intro j
      rw [← hfind1 j]
      exact congrArg (fun t => Table.find? t j) ho2
    split
    · rename_i hid
      rw [hmid, if_pos hid]
      rfl
    · rename_i hid
      rw [hmid, if_neg hid]
  · refine hrows2.trans ?_
    rw [hi1]
    rfl
  · refine (hp2 p).trans ?_
    rw [hp1]
  · refine (hstock2 p).trans ?_
    rw [stock_congr hp1]
    rfl

/-!
# The stages in the world
-/

/-- What the request has learnt and done so far. -/
structure Draft.Sound (basket : Basket) (Seen : List Product -> Prop)
    (d : Draft) : Prop where
  owner : exists c, tokenCustomer? basket.customers basket.token = some c ∧
    d.order.customerId = c.id
  seen : Seen d.products
  passes : forall line, line ∈ basket.items -> Passes d.products line
  lines : exists before, basket.items = before ++ d.todo ∧
    List.Forall₂ (Matches d.products) before d.items
  new : d.order.totalPrice = 0 ∧ d.order.status = .pending ∧
    d.order.deletedAt = none

structure Draft.Complete (d : Draft) : Prop where
  todo : d.todo = []
  fits : Database.fitsDecimal (lineSum d.items) = true

def Draft.with (d : Draft) (item : OrderItem) (now : Nat) : Draft :=
  { d with taken := d.taken ++ [(item, now)] }

/-- The transaction and the keys of a request, stage by stage.  `Seen` is what
is known of the product rows from the moment they are read. -/
def Stage.At (basket : Basket) (Seen : List Product -> Prop) (w : World)
    (tx : Tx) : Stage -> Prop
  | idle => tx = none
  | opened => tx = some [] ∧
      (tokenCustomer? basket.customers basket.token).isSome = true
  | read products => tx = some [] ∧ Seen products ∧
      (tokenCustomer? basket.customers basket.token).isSome = true
  | created d => tx = some d.log ∧ d.Sound basket Seen ∧
      Fresh w.db d.order d.items
  | building d => tx = some d.log ∧ d.Sound basket Seen ∧
      Fresh w.db d.order d.items
  | inserted d item => tx = some (d.log ++ [.insertItem item]) ∧
      (d.with item 0).Sound basket Seen ∧
      Fresh w.db d.order (d.items ++ [item])
  | totalled d now => tx = some (d.fullLog now) ∧ d.Complete ∧
      d.Sound basket Seen ∧ Fresh w.db d.order d.items
  | committed d _ => tx = none ∧ d.Complete ∧ d.Sound basket Seen
  | failed isOpen => isOpen = false -> tx = none

structure Grows (db db' : Database) : Prop where
  customers : db'.customers = db.customers
  products : db'.products = db.products
  orders : db'.orders.rows = db.orders.rows
  items : db'.items.rows = db.items.rows
  orderSeq : db.orders.seq <= db'.orders.seq
  itemSeq : db.items.seq <= db'.items.seq

namespace Stage

def order? : Stage -> Option Order
  | created d => some d.order
  | building d => some d.order
  | inserted d _ => some d.order
  | totalled d _ => some d.order
  | committed d _ => some d.order
  | _ => none

def scheduled : Stage -> Bool
  | building _ => true
  | inserted _ _ => true
  | totalled _ _ => true
  | committed _ _ => true
  | _ => false

def isCommitted : Stage -> Bool
  | committed _ _ => true
  | _ => false

def early : Stage -> Bool
  | idle => true
  | opened => true
  | read _ => true
  | _ => false

end Stage

inductive Advances : Stage -> Stage -> Prop where
  | fail {stage : Stage} (h : stage.isCommitted = false) (isOpen : Bool) :
      Advances stage (.failed isOpen)
  | start {stage stage' : Stage} (h : stage.early = true)
      (h' : stage'.early = true) : Advances stage stage'
  | take (d : Draft) (item : OrderItem) (now : Nat) :
      Advances (.inserted d item) (.building (d.with item now))
  | total (d : Draft) (now : Nat) : Advances (.building d) (.totalled d now)

/-- What one command of the request does to the shared state. -/
inductive Passage (ok : Env -> Prop) (w w' : World) : Stage -> Stage -> Prop
    where
  | stay {stage : Stage} (hdb : w'.db = w.db) (hqueue : w'.queue = w.queue) :
      Passage ok w w' stage stage
  | quiet {stage stage' : Stage} (hdb : Grows w.db w'.db)
      (hqueue : w'.queue = w.queue) (hstage : Advances stage stage') :
      Passage ok w w' stage stage'
  | newOrder {products : List Product} {d : Draft}
      (hdb : w'.db = w.db.reserve .orders) (hqueue : w'.queue = w.queue)
      (hid : d.order.id = w.db.orders.seq) (hnone : d.taken = []) :
      Passage ok w w' (.read products) (.created d)
  | newItem {d : Draft} {line : ItemRequest} {rest : List ItemRequest}
      {item : OrderItem} (htodo : d.todo = line :: rest)
      (hdb : w'.db = w.db.reserve .items) (hqueue : w'.queue = w.queue)
      (hid : item.id = w.db.items.seq) :
      Passage ok w w' (.building d) (.inserted { d with todo := rest } item)
  | first {d : Draft} (hdb : w'.db = w.db)
      (hqueue : w'.queue = w.queue.add ⟨d.order.id, .processing⟩ ∨
        w'.queue = w.queue ∧ MayFail ok) :
      Passage ok w w' (.created d) (.building d)
  | again {d : Draft} {now : Nat} (hdb : w'.db = w.db)
      (hqueue : w'.queue = w.queue.add ⟨d.order.id, .processing⟩ ∨
        w'.queue = w.queue) :
      Passage ok w w' (.committed d now) (.committed d now)
  | commit {d : Draft} {now : Nat} (hfresh : Fresh w.db d.order d.items)
      (hdb : w'.db = w.db.writeAll (d.fullLog now))
      (hqueue : w'.queue = w.queue) :
      Passage ok w w' (.totalled d now) (.committed d now)

theorem Grows.refl (db : Database) : Grows db db :=
  ⟨rfl, rfl, rfl, rfl, le_refl _, le_refl _⟩

theorem Grows.trans {db mid db' : Database} (h1 : Grows db mid)
    (h2 : Grows mid db') : Grows db db' :=
  ⟨h2.customers.trans h1.customers, h2.products.trans h1.products,
    h2.orders.trans h1.orders, h2.items.trans h1.items,
    h1.orderSeq.trans h2.orderSeq, h1.itemSeq.trans h2.itemSeq⟩

theorem grows_reserve_orders (db : Database) :
    Grows db (db.reserve .orders) :=
  ⟨rfl, rfl, rfl, rfl, by show db.orders.seq <= db.orders.seq + 1; omega,
    le_refl _⟩

theorem grows_reserve_items (db : Database) : Grows db (db.reserve .items) :=
  ⟨rfl, rfl, rfl, rfl, le_refl _,
    by show db.items.seq <= db.items.seq + 1; omega⟩

theorem Fresh.grows {db db' : Database} {o : Order} {items : List OrderItem}
    (h : Fresh db o items) (hdb : Grows db db') : Fresh db' o items := by
  refine ⟨⟨lt_of_lt_of_le h.order.left hdb.orderSeq, ?_⟩, ?_, ?_, h.nodup⟩
  · unfold Table.find?
    rw [hdb.orders]
    exact h.order.right
  · rw [hdb.customers]
    exact h.customer
  · intro i hi
    rcases h.item i hi with ⟨ho, hlt, hfree, hp⟩
    refine ⟨ho, lt_of_lt_of_le hlt hdb.itemSeq, ?_, ?_⟩
    · unfold Table.find?
      rw [hdb.items]
      exact hfree
    · rw [hdb.products]
      exact hp

theorem view_of_log {db : Database} {d : Draft}
    (h : Fresh db d.order d.items) :
    ((db.writeAll d.log).orders.find? d.order.id).isSome = true ∧
      (forall p, ((db.writeAll d.log).products.find? p).isSome =
        (db.products.find? p).isSome) ∧
      forall p, (db.writeAll d.log).stock p =
        db.stock p - quantityOf d.items p := by
  rcases insertOrder_spec h.customer h.order.left h.order.right with
    ⟨_, hi1, hp1, _, hfind1⟩
  have hsome : ((db.insertOrder d.order).orders.find? d.order.id).isSome =
      true := by
    rw [hfind1, if_pos rfl]
    rfl
  rcases writeAll_lines d.taken hsome
    (by
      rw [hi1, hp1]
      exact h.item)
    h.nodup with ⟨_, ho2, _, _, hp2, hstock2⟩
  refine ⟨?_, fun p => ?_, fun p => ?_⟩
  · refine Eq.trans ?_ hsome
    exact congrArg (fun t => (Table.find? t d.order.id).isSome) ho2
  · refine (isSome_of_offer (hp2 p)).trans ?_
    rw [hp1]
  · refine (hstock2 p).trans ?_
    rw [stock_congr hp1]
    rfl

theorem Draft.items_with (d : Draft) (item : OrderItem) (now : Nat) :
    (d.with item now).items = d.items ++ [item] := by
  unfold Draft.with Draft.items
  rw [List.map_append]
  rfl

theorem Draft.log_with (d : Draft) (item : OrderItem) (now : Nat) :
    (d.with item now).log = d.log ++ [.insertItem item] ++
      [.update (.productStock item.productId (-item.quantity)) now] := by
  unfold Draft.with Draft.log
  simp [Draft.lineWrites]

/-!
# Steps
-/

section Steps

variable {ok : Env -> Prop} {basket : Basket} {Seen : List Product -> Prop}
  {w : World} {tx : Tx} {s' : World × Tx}

def Reached (ok : Env -> Prop) (basket : Basket) (Seen : List Product -> Prop)
    (w : World) (s' : World × Tx) (stage : Stage) (c : Cmd)
    (r : service.Reply c) : Prop :=
  exists stage', stage.next basket c r stage' ∧
    stage'.At basket Seen s'.1 s'.2 ∧ Passage ok w s'.1 stage stage'

theorem reached_failed {stage : Stage} {c : Cmd} {r : service.Reply c}
    (isOpen : Bool) (hnext : stage.next basket c r (.failed isOpen))
    (hstage : stage.isCommitted = false)
    (hclosed : isOpen = false -> s'.2 = none) (hdb : Grows w.db s'.1.db)
    (hqueue : s'.1.queue = w.queue) :
    Reached ok basket Seen w s' stage c r :=
  ⟨.failed isOpen, hnext, hclosed, .quiet hdb hqueue (.fail hstage _)⟩

theorem reached_newOrder {products : List Product} {customerId : Int}
    {r : service.Reply (.insert true (.order customerId 0 .pending))}
    (howner : exists c, tokenCustomer? basket.customers basket.token = some c ∧
      customerId = c.id)
    (hpasses : forall line, line ∈ basket.items -> Passes products line)
    (h : (Stage.read products).At basket Seen w tx)
    (hnext : Next ok (w, tx) (.insert true (.order customerId 0 .pending)) r
      s') :
    Reached ok basket Seen w s' (.read products)
      (.insert true (.order customerId 0 .pending)) r := by
  rcases h with ⟨rfl, hseen, _⟩
  rcases next_insert hnext with ⟨now, rfl, hacc, rfl⟩ | ⟨⟨e, rfl⟩, hs⟩
  · refine ⟨.created ⟨products, ⟨w.db.orders.seq, customerId, 0, .pending,
      now, now, none⟩, [], basket.items⟩, ⟨products, rfl, rfl⟩,
      ⟨rfl, ⟨howner, hseen, hpasses, ⟨[], rfl, .nil⟩, rfl, rfl, rfl⟩, ?_⟩,
      .newOrder rfl rfl rfl rfl⟩
    refine ⟨⟨?_, Table.find?_seq _⟩, ?_, ?_, List.nodup_nil⟩
    · show w.db.orders.seq < w.db.orders.seq + 1
      omega
    · exact (Bool.and_eq_true_iff.mp hacc).left
    · intro i hi
      cases hi
  · refine reached_failed true rfl rfl (fun h => by cases h) ?_ ?_
    · rcases hs with rfl | rfl
      · exact Grows.refl _
      · exact grows_reserve_orders _
    · rcases hs with rfl | rfl <;> rfl

theorem fresh_item {db : Database} {d : Draft} {item : OrderItem}
    (h : Fresh db d.order d.items) (hid : item.id = db.items.seq)
    (horder : item.orderId = d.order.id)
    (hproduct : (db.products.find? item.productId).isSome = true) :
    Fresh (db.reserve .items) d.order (d.items ++ [item]) := by
  have hgrown := h.grows (grows_reserve_items db)
  refine ⟨hgrown.order, hgrown.customer, ?_, ?_⟩
  · intro i hi
    rcases List.mem_append.mp hi with hold | hnew
    · exact hgrown.item i hold
    · rw [List.mem_singleton.mp hnew]
      refine ⟨horder, ?_, ?_, hproduct⟩
      · show item.id < db.items.seq + 1
        omega
      · rw [hid]
        exact Table.find?_seq db.items
  · rw [List.map_append, List.nodup_append]
    refine ⟨h.nodup, List.nodup_singleton _, ?_⟩
    intro a ha b hb hab
    rcases List.mem_map.mp ha with ⟨i, hi, rfl⟩
    rcases List.mem_map.mp hb with ⟨j, hj, rfl⟩
    rw [List.mem_singleton.mp hj, hid] at hab
    have := (h.item i hi).right.left
    omega

theorem reached_newItem {d : Draft} {line : ItemRequest}
    {rest : List ItemRequest} {product : Product}
    {r : service.Reply (.insert true (.item d.order.id line.productId
      line.quantity product.price))}
    (htodo : d.todo = line :: rest)
    (hproduct : findProduct d.products line.productId = some product)
    (h : (Stage.building d).At basket Seen w tx)
    (hnext : Next ok (w, tx) (.insert true (.item d.order.id line.productId
      line.quantity product.price)) r s') :
    Reached ok basket Seen w s' (.building d)
      (.insert true (.item d.order.id line.productId line.quantity
        product.price)) r := by
  rcases h with ⟨rfl, hsound, hfresh⟩
  rcases next_insert hnext with ⟨now, rfl, hacc, rfl⟩ | ⟨⟨e, rfl⟩, hs⟩
  · let item : OrderItem := ⟨w.db.items.seq, d.order.id, line.productId,
      line.quantity, product.price, now, now, none⟩
    have hexists : (w.db.products.find? item.productId).isSome = true := by
      have hgrown := hfresh.grows (grows_reserve_items w.db)
      refine ((view_of_log hgrown).right.left item.productId).symm.trans ?_
      simp only [Database.accepts, NewRow.write, Bool.and_eq_true] at hacc
      exact hacc.left.left.right
    refine ⟨.inserted { d with todo := rest } item, ⟨d, rfl, ?_⟩,
      ⟨rfl, ?_, fresh_item hfresh rfl rfl hexists⟩,
      .newItem htodo rfl rfl rfl⟩
    · rw [htodo]
      rfl
    · rcases hsound.lines with ⟨before, hbefore, hmatches⟩
      refine ⟨hsound.owner, hsound.seen, hsound.passes,
        ⟨before ++ [line], ?_, ?_⟩, hsound.new⟩
      · rw [hbefore, htodo, List.append_assoc]
        rfl
      · rw [Draft.items_with]
        exact List.rel_append hmatches
          (.cons ⟨rfl, rfl, rfl, product, hproduct, rfl⟩ .nil)
  · refine reached_failed true rfl rfl (fun h => by cases h) ?_ ?_
    · rcases hs with rfl | rfl
      · exact Grows.refl _
      · exact grows_reserve_items _
    · rcases hs with rfl | rfl <;> rfl

theorem reached_total {d : Draft}
    {r : service.Reply
      (.update true (.orderTotal d.order.id (lineSum d.items)))}
    (htodo : d.todo = []) (h : (Stage.building d).At basket Seen w tx)
    (hnext : Next ok (w, tx)
      (.update true (.orderTotal d.order.id (lineSum d.items))) r s') :
    Reached ok basket Seen w s' (.building d)
      (.update true (.orderTotal d.order.id (lineSum d.items))) r := by
  rcases h with ⟨rfl, hsound, hfresh⟩
  rcases next_update hnext with ⟨now, rfl, hfits, rfl⟩ | ⟨⟨e, rfl⟩, rfl, _⟩
  · exact ⟨.totalled d now, Or.inl ⟨d, rfl, rfl⟩,
      ⟨rfl, ⟨htodo, hfits⟩, hsound, hfresh⟩,
      .quiet (Grows.refl _) rfl (.total d now)⟩
  · exact reached_failed true rfl rfl (fun h => by cases h) (Grows.refl _) rfl

theorem reached_take {d : Draft} {item : OrderItem}
    {r : service.Reply
      (.update true (.productStock item.productId (-item.quantity)))}
    (h : (Stage.inserted d item).At basket Seen w tx)
    (hnext : Next ok (w, tx)
      (.update true (.productStock item.productId (-item.quantity))) r s') :
    Reached ok basket Seen w s' (.inserted d item)
      (.update true (.productStock item.productId (-item.quantity))) r := by
  rcases h with ⟨rfl, hsound, hfresh⟩
  rcases next_update hnext with ⟨now, rfl, _, rfl⟩ | ⟨⟨e, rfl⟩, rfl, _⟩
  · refine ⟨.building (d.with item now), Or.inr ⟨d, item, rfl, rfl⟩,
      ⟨?_, ?_, ?_⟩,
      .quiet (Grows.refl _) rfl (.take d item now)⟩
    · rw [Draft.log_with]
      rfl
    · have hlines := hsound.lines
      rw [Draft.items_with] at hlines
      refine ⟨hsound.owner, hsound.seen, hsound.passes, ?_, hsound.new⟩
      rw [Draft.items_with]
      exact hlines
    · rw [Draft.items_with]
      exact hfresh
  · exact reached_failed true rfl rfl (fun h => by cases h) (Grows.refl _) rfl

theorem reached_hook {d : Draft} {item : OrderItem}
    {r : service.Reply
      (.query false (.orderByPk item.orderId true { items := some true }))}
    (h : (Stage.inserted d item).At basket Seen w tx)
    (hnext : Next ok (w, tx)
      (.query false (.orderByPk item.orderId true { items := some true })) r
      s') :
    Reached ok basket Seen w s' (.inserted d item)
      (.query false (.orderByPk item.orderId true { items := some true }))
      r := by
  rcases next_query hnext with ⟨rfl, rfl | ⟨⟨e, rfl⟩, _⟩⟩
  · refine ⟨.inserted d item, ⟨?_, rfl⟩, h, .stay rfl rfl⟩
    -- the order is in the log of the transaction only
    rcases h with ⟨_, _, hfresh⟩
    have horder : item.orderId = d.order.id :=
      (hfresh.item item (by simp)).left
    have hnone : w.db.order? item.orderId true = none := by
      unfold Database.order?
      rw [horder, hfresh.order.right]
      rfl
    show (w.db.order? item.orderId true).map _ = none
    rw [hnone]
    rfl
  · exact reached_failed true rfl rfl (fun h => by cases h) (Grows.refl _) rfl

theorem Stage.At.congr {stage : Stage} {w' : World}
    (h : stage.At basket Seen w tx) (hdb : w'.db = w.db) :
    stage.At basket Seen w' tx := by
  cases stage <;> dsimp only [Stage.At] at h ⊢ <;> first
    | exact h
    | rw [hdb]
      exact h

theorem reached_aside {stage : Stage} {key : String}
    {r : service.Reply (.redisDel key)} (h : stage.At basket Seen w tx)
    (hnext : Next ok (w, tx) (.redisDel key) r s') :
    Reached ok basket Seen w s' stage (.redisDel key) r := by
  rcases next_aside rfl hnext with ⟨hdb, hqueue, htx⟩
  rcases s' with ⟨w', tx'⟩
  subst htx
  exact ⟨stage, rfl, h.congr hdb, .stay hdb hqueue⟩

theorem reached_step {stage : Stage} {c : Cmd} {r : service.Reply c}
    (hcustomers : w.db.customers = basket.customers)
    (hseen : stage = .opened -> Seen (Query.eval w.db
      (.productsById (basket.items.map ItemRequest.productId))))
    (h : stage.At basket Seen w tx) (hmay : stage.may basket c)
    (hnext : Next ok (w, tx) c r s') :
    Reached ok basket Seen w s' stage c r := by
  unfold Stage.may at hmay
  split at hmay
  · -- the customer of the token
    subst hmay
    rcases next_query hnext with ⟨rfl, rfl | ⟨⟨e, rfl⟩, _⟩⟩
    · exact ⟨.idle, ⟨rfl, w.db, hcustomers, rfl⟩, h,
        .quiet (Grows.refl _) rfl (.start rfl rfl)⟩
    · exact reached_failed false rfl rfl (fun _ => h) (Grows.refl _) rfl
  · rcases next_begin hnext with ⟨rfl, rfl⟩ | ⟨⟨e, rfl⟩, rfl, _⟩
    · exact ⟨.opened, rfl, ⟨rfl, hmay⟩,
        .quiet (Grows.refl _) rfl (.start rfl rfl)⟩
    · exact reached_failed false rfl rfl (fun _ => h) (Grows.refl _) rfl
  · rcases hmay with ⟨rfl, rfl⟩
    rcases next_query hnext with ⟨rfl, rfl | ⟨⟨e, rfl⟩, _⟩⟩
    · exact ⟨.read _, rfl, ⟨h.left, hseen rfl, h.right⟩,
        .quiet (Grows.refl _) rfl (.start rfl rfl)⟩
    · exact reached_failed true rfl rfl (fun h => by cases h) (Grows.refl _) rfl
  · rcases hmay with ⟨rfl, rfl, rfl, howner, hpasses⟩
    exact reached_newOrder howner hpasses h hnext
  · -- some line did not pass
    rw [next_rollback hnext]
    exact reached_failed false (by cases r <;> rfl) rfl (fun _ => rfl)
      (Grows.refl _) rfl
  · -- the hook of the order schedules the first job
    subst hmay
    rename_i d
    rcases next_addJob hnext with ⟨rfl, rfl⟩ | ⟨⟨e, rfl⟩, rfl, hfail⟩
    · exact ⟨.building d, rfl, h, .first rfl (Or.inl rfl)⟩
    · exact ⟨.building d, rfl, h, .first rfl (Or.inr ⟨rfl, hfail⟩)⟩
  · rcases hmay with ⟨rfl, rfl, line, rest, product, htodo, hproduct, rfl,
      rfl, rfl⟩
    exact reached_newItem htodo hproduct h hnext
  · rcases hmay with ⟨rfl, htodo, rfl⟩
    exact reached_total htodo h hnext
  · rcases hmay with ⟨rfl, rfl, rfl, rfl⟩
    exact reached_hook h hnext
  · rcases hmay with ⟨rfl, rfl⟩
    exact reached_take h hnext
  · rename_i d now
    rcases h with ⟨rfl, hcomplete, hsound, hfresh⟩
    rcases next_commit hnext with ⟨rfl, rfl⟩ | ⟨⟨e, rfl⟩, rfl, _⟩
    · exact ⟨.committed d now, ⟨d, now, rfl, rfl⟩, ⟨rfl, hcomplete, hsound⟩,
        .commit hfresh rfl rfl⟩
    · exact reached_failed false rfl rfl (fun _ => rfl) (Grows.refl _) rfl
  · subst hmay
    rename_i d now
    rcases next_addJob hnext with ⟨rfl, rfl⟩ | ⟨⟨e, rfl⟩, rfl, hfail⟩
    · exact ⟨.committed d now, rfl, h, .again rfl (Or.inl rfl)⟩
    · exact ⟨.committed d now, rfl, h, .again rfl (Or.inr rfl)⟩
  · rw [next_rollback hnext]
    exact reached_failed false (by cases r <;> rfl) rfl (fun _ => rfl)
      (Grows.refl _) rfl
  · exact reached_aside h hnext
  · cases hmay

end Steps

end Orders
end ExpressEcommerce
