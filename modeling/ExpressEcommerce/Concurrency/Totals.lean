import ExpressEcommerce.Concurrency.Threads
import ExpressEcommerce.Orders.Acceptance
import ExpressEcommerce.Products.Edits
import ExpressEcommerce.Runs.Sequential

/-!
# Order totals under interleaving

Requests for orders, requests and jobs on orders, and product requests run in
any interleaving, and any command may fail.  The total of an order is written
once, in the transaction that creates it, from the prices that its items carry;
after the commit no statement touches the total or the items again.
-/

namespace ExpressEcommerce
namespace Concurrency

open Foundation
open Store
open Service
open Orders
open Products
open Runs

/-- The value of the items of an order, deleted items included. -/
def itemsValue (db : Database) (id : Int) : Int :=
  db.items.sum (fun i =>
    if i.orderId = id then i.quantity * i.unitPrice else 0)

/-- The total of every order is the value of its items. -/
def Totalled (db : Database) : Prop :=
  forall id o, db.orders.find? id = some o -> o.totalPrice = itemsValue db id

/-- The orders of a store keep their totals and their items. -/
def Frozen (db db' : Database) : Prop :=
  forall id o, db.orders.find? id = some o ->
    (exists o', db'.orders.find? id = some o' ∧
      o'.totalPrice = o.totalPrice) ∧
    db'.items.rows.filter (fun i => decide (i.orderId = id)) =
      db.items.rows.filter (fun i => decide (i.orderId = id))

theorem Frozen.refl (db : Database) : Frozen db db :=
  fun _ o ho => ⟨⟨o, ho, rfl⟩, rfl⟩

theorem Frozen.trans {db mid db' : Database} (h1 : Frozen db mid)
    (h2 : Frozen mid db') : Frozen db db' := by
  intro id o ho
  rcases h1 id o ho with ⟨⟨o1, ho1, htotal1⟩, hitems1⟩
  rcases h2 id o1 ho1 with ⟨⟨o2, ho2, htotal2⟩, hitems2⟩
  exact ⟨⟨o2, ho2, htotal2.trans htotal1⟩, hitems2.trans hitems1⟩

/-!
# Quiet steps and commits
-/

theorem totalled_quiet {db db' : Database} (h : Totalled db)
    (hquiet : Quiet db db') : Totalled db' := by
  intro id o ho
  have hmap := hquiet.orders id
  rw [ho] at hmap
  rcases Option.map_eq_some_iff.mp hmap.symm with ⟨o0, ho0, htotal⟩
  rw [← htotal, h id o0 ho0]
  unfold itemsValue Table.sum
  rw [hquiet.items]

theorem frozen_quiet {db db' : Database} (hquiet : Quiet db db') :
    Frozen db db' := by
  intro id o ho
  have hmap := hquiet.orders id
  rw [ho] at hmap
  rw [hquiet.items]
  exact ⟨Option.map_eq_some_iff.mp hmap, rfl⟩

theorem itemsValue_of_owner {items : List OrderItem} {owner : Int}
    (h : forall i, i ∈ items -> i.orderId = owner) (id : Int) :
    (items.map (fun i =>
      if i.orderId = id then i.quantity * i.unitPrice else 0)).sum =
        if owner = id then lineSum items else 0 := by
  unfold lineSum
  have hmap : items.map (fun i =>
      if i.orderId = id then i.quantity * i.unitPrice else 0) =
        items.map (fun i =>
          if owner = id then i.quantity * i.unitPrice else 0) :=
    List.map_congr_left (fun i hi => by rw [h i hi])
  rw [hmap]
  split <;> simp

theorem itemsValue_placed {db db' : Database} {d : Draft} {now : Nat}
    (h : Placed db db' d now) (id : Int) :
    itemsValue db' id =
      itemsValue db id + if d.order.id = id then lineSum d.items else 0 := by
  unfold itemsValue Table.sum
  rw [h.items, List.map_append, List.sum_append, itemsValue_of_owner h.owner]

theorem itemsValue_free {db : Database} {id : Int}
    (h : db.orders.find? id = none) : itemsValue db id = 0 := by
  unfold itemsValue Table.sum
  apply List.sum_eq_zero
  intro x hx
  rcases List.mem_map.mp hx with ⟨i, hi, rfl⟩
  apply if_neg
  rintro rfl
  have hsome := db.itemOrder i hi
  rw [h] at hsome
  cases hsome

theorem totalled_placed {db db' : Database} {d : Draft} {now : Nat}
    (h : Totalled db) (hplaced : Placed db db' d now) : Totalled db' := by
  intro id o ho
  rw [itemsValue_placed hplaced]
  rw [hplaced.order] at ho
  split at ho
  · rename_i hid
    cases ho
    rw [hid, itemsValue_free hplaced.free, if_pos rfl, Int.zero_add]
    rfl
  · rename_i hid
    rw [if_neg (fun heq => hid heq.symm), Int.add_zero]
    exact h id o ho

theorem frozen_placed {db db' : Database} {d : Draft} {now : Nat}
    (hplaced : Placed db db' d now) : Frozen db db' := by
  intro id o ho
  have hid : id ≠ d.order.id := by
    rintro rfl
    rw [hplaced.free] at ho
    cases ho
  refine ⟨⟨o, ?_, rfl⟩, ?_⟩
  · rw [hplaced.order, if_neg hid]
    exact ho
  · have hnone : d.items.filter (fun i => decide (i.orderId = id)) = [] := by
      rw [List.filter_eq_nil_iff]
      intro i hi
      rw [hplaced.owner i hi, decide_eq_true_eq]
      exact fun heq => hid heq.symm
    rw [hplaced.items, List.filter_append, hnone, List.append_nil]

/-!
# Statements of the other tasks
-/

theorem quiet_planned {db : Database} {u : Change} (h : isPlanned u = true)
    (now : Nat) : Quiet db (db.update u now) := by
  cases u with
  | orderStatus id status =>
      refine ⟨rfl, fun j => ?_, rfl, fun _ hp => hp, le_refl _, le_refl _⟩
      rw [Database.find?_update_orderStatus]
      split <;> simp [Function.comp_def]
  | orderDeleted id deleted =>
      refine ⟨rfl, fun j => ?_, rfl, fun _ hp => hp, le_refl _, le_refl _⟩
      rw [Database.find?_update_orderDeleted]
      split <;> simp [Function.comp_def]
  | productStock id amount =>
      refine ⟨rfl, fun _ => rfl, rfl, fun p hp => ?_, le_refl _, le_refl _⟩
      rw [Database.find?_update_productStock]
      split <;> simp [hp]
  | orderTotal | itemFields | itemDeleted | productFields | productDeleted
  | customerFields | customerDeleted => cases h

/-- A log that contains only statements of plans. -/
def PlannedLog (tx : Tx) : Prop :=
  forall log, tx = some log -> forall x, x ∈ log ->
    exists u now, x = .update u now ∧ isPlanned u = true

theorem quiet_writeAll {db : Database} {log : List Write}
    (h : forall x, x ∈ log ->
      exists u now, x = .update u now ∧ isPlanned u = true) :
    Quiet db (db.writeAll log) := by
  induction log generalizing db with
  | nil => exact Quiet.refl db
  | cons x rest ih =>
      rcases h x List.mem_cons_self with ⟨u, now, rfl, hu⟩
      exact (quiet_planned hu now).trans
        (ih (fun y hy => h y (List.mem_cons_of_mem _ hy)))

theorem quiet_change {db : Database} {t : ProductTask} {u : Change}
    (h : t.MayChange u) (now : Nat) : Quiet db (db.update u now) := by
  have hfields : forall p patch,
      Quiet db (db.update (.productFields p patch) now) := by
    intro p patch
    refine ⟨rfl, fun _ => rfl, rfl, fun q hq => ?_, le_refl _, le_refl _⟩
    rw [Database.find?_update_productFields]
    split <;> simp [hq]
  have hdeleted : forall p deleted,
      Quiet db (db.update (.productDeleted p deleted) now) := by
    intro p deleted
    refine ⟨rfl, fun _ => rfl, rfl, fun q hq => ?_, le_refl _, le_refl _⟩
    rw [Database.find?_update_productDeleted]
    split <;> simp [hq]
  cases t with
  | create body => cases h
  | update id body | patch id body =>
      rcases h with ⟨p, patch, rfl, _⟩
      exact hfields p patch
  | softDelete id | restore id =>
      rcases h with ⟨p, deleted, rfl, _⟩
      exact hdeleted p deleted

theorem quiet_reserve_products (db : Database) :
    Quiet db (db.reserve .products) :=
  ⟨rfl, fun _ => rfl, rfl, fun _ h => h, le_refl _, le_refl _⟩

theorem quiet_insertProduct (db : Database) (r : Product) :
    Quiet db (db.insertProduct r) :=
  ⟨rfl, fun _ => rfl, rfl, fun _ h => Table.isSome_find?_insert h, le_refl _,
    le_refl _⟩

/-!
# The threads
-/

inductive Ghost where
  | place (basket : Basket) (stage : Stage)
  | order (t : OrderTask) (phase : Phase)
  | product (t : ProductTask) (edit : Edit)

def Ghost.may (customers : Table Customer) : Ghost -> Cmd -> Prop
  | place basket stage, c => stage.may basket c
  | order t phase, c => phase.may (t.intent customers) c
  | product t edit, c => edit.may t c

def Ghost.next (customers : Table Customer) :
    Ghost -> (c : Cmd) -> service.Reply c -> Ghost -> Prop
  | place basket stage, c, r, g => exists stage', g = place basket stage' ∧
      stage.next basket c r stage'
  | order t phase, c, r, g => exists phase', g = order t phase' ∧
      phase.next (t.intent customers) c r phase'
  | product t edit, c, r, g => exists edit', g = product t edit' ∧
      edit.next c r edit'

def mixed (customers : Table Customer) : Protocol service Ghost where
  may := Ghost.may customers
  next := Ghost.next customers

def startGhost (customers : Table Customer) : RunTask -> Ghost
  | .order t => .order t .idle
  | .place token items => .place ⟨customers, token, items⟩ .idle
  | .product t => .product t .nothing

theorem follows_mixed (customers : Table Customer) (t : RunTask) :
    t.task.code.wp (mixed customers) (fun _ _ => True)
      (startGhost customers t) := by
  cases t with
  | order t =>
      exact Prog.wp_embed (Ghost.order t) (fun _ _ h => h)
        (fun _ _ _ _ h => h) (fun _ _ _ => trivial) _
        (follows_plan t customers)
  | place token items =>
      exact Prog.wp_embed (Ghost.place ⟨customers, token, items⟩)
        (fun _ _ h => h) (fun _ _ _ _ h => h) (fun _ _ _ => trivial) _
        (follows_place ⟨customers, token, items⟩)
  | product t =>
      exact Prog.wp_embed (Ghost.product t) (fun _ _ h => h)
        (fun _ _ _ _ h => h) (fun _ _ _ => trivial) _ (follows_edit t)

def Local (customers : Table Customer) (w : World) : Ghost -> Tx -> Prop
  | .place basket stage, tx => basket.customers = customers ∧
      stage.At basket (fun _ => True) w tx
  | .order _ phase, tx => PlannedLog tx ∧
      forall performed todo, phase = .acting performed todo ->
        forall u, u ∈ todo -> isPlanned u = true
  | .product _ _, _ => True

def Ghost.pending? : Ghost -> Option (Order × List OrderItem)
  | place _ stage => Concurrency.pending? stage
  | _ => none

def GhostsApart (g h : Ghost) : Prop :=
  KeysApart g.pending? h.pending?

theorem local_quiet {customers : Table Customer} {w w' : World} {g : Ghost}
    {tx : Tx} (h : Local customers w g tx) (hquiet : Quiet w.db w'.db) :
    Local customers w' g tx := by
  cases g with
  | place basket stage => exact ⟨h.left, at_quiet h.right hquiet⟩
  | order t phase => exact h
  | product t edit => trivial

/-!
# Steps
-/

section Steps

variable {ok : Env -> Prop} {customers : Table Customer} {w : World} {tx : Tx}
  {s' : World × Tx} {c : Cmd} {r : service.Reply c}

theorem plannedLog_none : PlannedLog none := by
  intro log hlog
  cases hlog

theorem plannedLog_nil : PlannedLog (some []) := by
  rintro log hlog x hx
  cases hlog
  cases hx

theorem customers_of_plannedLog {inTx : Bool} (h : PlannedLog tx) :
    (w.view tx inTx).customers = w.db.customers := by
  unfold World.view
  cases inTx with
  | false => rfl
  | true =>
      cases tx with
      | none => rfl
      | some log => exact (quiet_writeAll (h log rfl)).customers

theorem recorded_planned {u : Change} (w : World) (now : Nat) (inTx : Bool)
    (h : PlannedLog tx) (hu : isPlanned u = true) :
    Quiet w.db (w.record tx inTx (.update u now)).1.db ∧
      PlannedLog (w.record tx inTx (.update u now)).2 := by
  cases inTx with
  | false => exact ⟨quiet_planned hu now, h⟩
  | true =>
      refine ⟨Quiet.refl _, ?_⟩
      intro log hlog x hx
      rcases Option.map_eq_some_iff.mp hlog with ⟨before, hbefore, rfl⟩
      rcases List.mem_append.mp hx with hold | hnew
      · exact h before hbefore x hold
      · rw [List.mem_singleton.mp hnew]
        exact ⟨u, now, rfl, hu⟩

theorem quiet_commit {r : service.Reply Cmd.commit} (h : PlannedLog tx)
    (hnext : Next ok (w, tx) .commit r s') :
    Quiet w.db s'.1.db ∧ PlannedLog s'.2 := by
  cases tx with
  | none =>
      rcases hnext with ⟨env, _, hexec⟩
      cases hexec
      exact ⟨Quiet.refl _, plannedLog_none⟩
  | some log =>
      rcases next_commit hnext with ⟨rfl, rfl⟩ | ⟨_, rfl, _⟩
      · exact ⟨quiet_writeAll (h log rfl), plannedLog_none⟩
      · exact ⟨Quiet.refl _, plannedLog_none⟩

def PlannedPhase (phase : Phase) : Prop :=
  forall performed todo, phase = .acting performed todo ->
    forall u, u ∈ todo -> isPlanned u = true

theorem plannedPhase_of_ne {phase : Phase}
    (h : forall performed todo, phase ≠ .acting performed todo) :
    PlannedPhase phase :=
  fun performed todo heq => absurd heq (h performed todo)

theorem order_step {t : OrderTask} {phase : Phase}
    (hcustomers : w.db.customers = customers) (hlog : PlannedLog tx)
    (hphase : PlannedPhase phase)
    (hmay : phase.may (t.intent customers) c)
    (hnext : Next ok (w, tx) c r s') :
    exists phase', phase.next (t.intent customers) c r phase' ∧
      Quiet w.db s'.1.db ∧ PlannedLog s'.2 ∧ PlannedPhase phase' := by
  have hread : forall {inTx : Bool} {id : Int} {paranoid : Bool}
      {incl : Include}
      {r : service.Reply (.query inTx (.orderByPk id paranoid incl))},
      Next ok (w, tx) (.query inTx (.orderByPk id paranoid incl)) r s' ->
      exists phase', phase.next (t.intent customers)
          (.query inTx (.orderByPk id paranoid incl)) r phase' ∧
        Quiet w.db s'.1.db ∧ PlannedLog s'.2 ∧ PlannedPhase phase' := by
    intro inTx id paranoid incl r hnext
    rcases next_query hnext with ⟨rfl, rfl | ⟨⟨e, rfl⟩, _⟩⟩
    · refine ⟨_, ⟨w.view tx inTx,
        (customers_of_plannedLog hlog).trans hcustomers, rfl, rfl⟩,
        Quiet.refl _, hlog, ?_⟩
      rintro performed todo heq
      cases heq
      exact isPlanned_plan t _
    · exact ⟨.stopped inTx [], rfl, Quiet.refl _, hlog,
        plannedPhase_of_ne (fun _ _ h => by cases h)⟩
  have hstopped : forall {isOpen : Bool} {performed : List Change},
      PlannedPhase (.stopped isOpen performed) :=
    plannedPhase_of_ne (fun _ _ h => by cases h)
  have hrolled : forall {r : service.Reply Cmd.rollback},
      Next ok (w, tx) .rollback r s' ->
        Quiet w.db s'.1.db ∧ PlannedLog s'.2 := by
    intro r hnext
    rw [next_rollback hnext]
    exact ⟨Quiet.refl _, plannedLog_none⟩
  unfold Phase.may at hmay
  split at hmay
  · rcases next_begin hnext with ⟨rfl, rfl⟩ | ⟨⟨e, rfl⟩, rfl, _⟩
    · exact ⟨.opened, rfl, Quiet.refl _, plannedLog_nil,
        plannedPhase_of_ne (fun _ _ h => by cases h)⟩
    · exact ⟨.stopped false [], rfl, Quiet.refl _, hlog, hstopped⟩
  · subst hmay
    rcases next_query hnext with ⟨rfl, rfl | ⟨⟨e, rfl⟩, _⟩⟩
    · exact ⟨.idle, ⟨rfl, w.db, hcustomers, rfl⟩, Quiet.refl _, hlog, hphase⟩
    · exact ⟨.stopped false [], rfl, Quiet.refl _, hlog, hstopped⟩
  · exact hread hnext
  · exact hread hnext
  · refine ⟨.stopped false [], ?_, (hrolled hnext).left,
      (hrolled hnext).right, hstopped⟩
    cases r <;> rfl
  · rcases hmay with ⟨rfl, rfl⟩
    rename_i performed todo
    have hu := hphase _ _ rfl _ List.mem_cons_self
    rcases next_update hnext with ⟨now, rfl, _, rfl⟩ | ⟨⟨e, rfl⟩, rfl, _⟩
    · rcases recorded_planned w now t.inTx hlog hu with ⟨hquiet, hplanned⟩
      refine ⟨_, rfl, hquiet, hplanned, ?_⟩
      rintro performed' todo' heq u' hu'
      cases heq
      exact hphase _ _ rfl u' (List.mem_cons_of_mem _ hu')
    · exact ⟨_, rfl, Quiet.refl _, hlog, hstopped⟩
  · rcases quiet_commit hlog hnext with ⟨hquiet, hplanned⟩
    cases r with
    | ok u =>
        exact ⟨.finished _, rfl, hquiet, hplanned,
          plannedPhase_of_ne (fun _ _ h => by cases h)⟩
    | error e => exact ⟨.stopped false [], rfl, hquiet, hplanned, hstopped⟩
  · cases r with
    | ok u =>
        exact ⟨.finished [], rfl, (hrolled hnext).left,
          (hrolled hnext).right, plannedPhase_of_ne (fun _ _ h => by cases h)⟩
    | error e =>
        exact ⟨.stopped false [], rfl, (hrolled hnext).left,
          (hrolled hnext).right, hstopped⟩
  · rcases next_addJob hnext with ⟨rfl, rfl⟩ | ⟨⟨e, rfl⟩, rfl, _⟩
    · exact ⟨.scheduled _, rfl, Quiet.refl _, hlog,
        plannedPhase_of_ne (fun _ _ h => by cases h)⟩
    · exact ⟨.stopped false _, rfl, Quiet.refl _, hlog, hstopped⟩
  · refine ⟨.stopped false [], ?_, (hrolled hnext).left,
      (hrolled hnext).right, hstopped⟩
    cases r <;> rfl
  · rcases next_aside rfl hnext with ⟨hdb, _, htx⟩
    refine ⟨phase, rfl, ?_, ?_, hphase⟩
    · rw [hdb]
      exact Quiet.refl _
    · rw [htx]
      exact hlog
  · cases hmay

theorem product_step {t : ProductTask} {edit : Edit} (hmay : edit.may t c)
    (hnext : Next ok (w, tx) c r s') :
    exists edit', edit.next c r edit' ∧ Quiet w.db s'.1.db := by
  unfold Edit.may at hmay
  split at hmay
  · rename_i inTx q
    subst hmay
    rcases next_query hnext with ⟨rfl, rfl | ⟨⟨e, rfl⟩, _⟩⟩
    · refine ⟨edit, ?_, Quiet.refl _⟩
      cases q with
      | productByPk id paranoid =>
          exact ⟨rfl, fun p hp => Database.product?_key hp⟩
      | _ => rfl
    · exact ⟨edit, by cases q <;> rfl, Quiet.refl _⟩
  · rcases hmay with ⟨rfl, hrow⟩
    rename_i row
    have hproduct : exists name description price stock,
        row = .product name description price stock := by
      cases t with
      | create body =>
          rcases hrow with ⟨name, description, price, stock, hrow, _⟩
          exact ⟨name, description, price, stock, hrow⟩
      | update | patch | softDelete | restore => cases hrow
    rcases hproduct with ⟨name, description, price, stock, rfl⟩
    rcases next_insert hnext with ⟨now, rfl, _, rfl⟩ | ⟨⟨e, rfl⟩, hs⟩
    · exact ⟨_, rfl, (quiet_reserve_products _).trans
        (quiet_insertProduct _ _)⟩
    · refine ⟨.nothing, rfl, ?_⟩
      rcases hs with rfl | rfl
      · exact Quiet.refl _
      · exact quiet_reserve_products _
  · rcases hmay with ⟨rfl, hchange⟩
    rename_i u
    rcases next_update hnext with ⟨now, rfl, _, rfl⟩ | ⟨⟨e, rfl⟩, rfl, _⟩
    · exact ⟨.changed u, rfl, quiet_change hchange now⟩
    · exact ⟨.nothing, rfl, Quiet.refl _⟩
  · rcases next_aside hmay hnext with ⟨hdb, _, _⟩
    refine ⟨edit, ?_, ?_⟩
    · cases c <;> cases hmay <;> rfl
    · rw [hdb]
      exact Quiet.refl _

end Steps

structure Common (customers : Table Customer) (base : Database) (w : World)
    (_ : List (Ghost × Tx)) : Prop where
  customers : w.db.customers = customers
  totalled : Totalled w.db
  frozen : Frozen base w.db

theorem common_quiet {customers : Table Customer} {base : Database}
    {w w' : World} {ghosts ghosts' : List (Ghost × Tx)}
    (h : Common customers base w ghosts) (hquiet : Quiet w.db w'.db) :
    Common customers base w' ghosts' :=
  ⟨hquiet.customers.trans h.customers, totalled_quiet h.totalled hquiet,
    h.frozen.trans (frozen_quiet hquiet)⟩

theorem common_placed {customers : Table Customer} {base : Database}
    {w w' : World} {ghosts ghosts' : List (Ghost × Tx)} {d : Draft}
    {now : Nat} (h : Common customers base w ghosts)
    (hplaced : Placed w.db w'.db d now) : Common customers base w' ghosts' :=
  ⟨hplaced.customers.trans h.customers, totalled_placed h.totalled hplaced,
    h.frozen.trans (frozen_placed hplaced)⟩

abbrev Consistent (customers : Table Customer) (base : Database) :
    World -> List (Ghost × Tx) -> Prop :=
  Pool.Jointly (Common customers base) (Local customers) GhostsApart

theorem preserves_consistent (ok : Env -> Prop) (customers : Table Customer)
    (base : Database) :
    Pool.Preserves (system ok) (mixed customers)
      (Consistent customers base) := by
  refine Pool.preserves_jointly KeysApart.symm ?_
  intro w w' ghosts i g tx tx' c r others hcommon hi hlocal hmay _ hnext
  -- a quiet step of a thread without a draft concerns nobody
  have hquietly : forall {g' : Ghost}, Quiet w.db w'.db ->
      g'.pending? = none -> forall h there, there ∈ others ->
        Local customers w h there -> GhostsApart g h ->
          Local customers w' h there ∧ GhostsApart g' h := by
    intro g' hquiet hnone h there _ hother _
    refine ⟨local_quiet hother hquiet, ?_⟩
    unfold GhostsApart
    rw [hnone]
    exact keysApart_none _
  cases g with
  | place basket stage =>
      have hcustomers : w.db.customers = basket.customers :=
        hcommon.customers.trans hlocal.left.symm
      rcases reached_step hcustomers (fun _ => trivial) hlocal.right hmay hnext
        with ⟨stage', hnext', hat, hpassage⟩
      refine ⟨.place basket stage', ⟨stage', rfl, hnext'⟩, ?_,
        ⟨hlocal.left, hat⟩, ?_⟩
      · rcases quiet_or_placed hpassage with hquiet | ⟨d, now, _, _, hplaced⟩
        · exact common_quiet hcommon hquiet
        · exact common_placed hcommon hplaced
      · intro h there _ hother hapart
        cases h with
        | place basket2 stage2 =>
            exact ⟨⟨hother.left, at_passage hother.right hapart hpassage⟩,
              keysApart_passage hother.right hapart hpassage⟩
        | order | product => exact ⟨hother, (keysApart_none _).symm⟩
  | order t phase =>
      rcases order_step hcommon.customers hlocal.left hlocal.right hmay hnext
        with ⟨phase', hnext', hquiet, hlog, hphase⟩
      exact ⟨.order t phase', ⟨phase', rfl, hnext'⟩,
        common_quiet hcommon hquiet, ⟨hlog, hphase⟩, hquietly hquiet rfl⟩
  | product t edit =>
      rcases product_step hmay hnext with ⟨edit', hnext', hquiet⟩
      exact ⟨.product t edit', ⟨edit', rfl, hnext'⟩,
        common_quiet hcommon hquiet, trivial, hquietly hquiet rfl⟩

theorem pending?_startGhost (customers : Table Customer) (t : RunTask) :
    (startGhost customers t).pending? = none := by
  cases t <;> rfl

theorem consistent_start (w : World) (tasks : List RunTask)
    (h : Totalled w.db) :
    Consistent w.db.customers w.db w
      (tasks.map (fun t => (startGhost w.db.customers t, none))) := by
  have hghost : forall {i : Nat} {g : Ghost} {tx : Tx},
      (tasks.map (fun t =>
        (startGhost w.db.customers t, (none : Tx))))[i]? = some (g, tx) ->
        tx = none ∧ exists t, g = startGhost w.db.customers t := by
    intro i g tx hi
    rw [List.getElem?_map] at hi
    rcases Option.map_eq_some_iff.mp hi with ⟨t, _, heq⟩
    cases heq
    exact ⟨rfl, t, rfl⟩
  refine ⟨⟨rfl, h, Frozen.refl _⟩, ?_, ?_⟩
  · intro i g tx hi
    rcases hghost hi with ⟨rfl, t, rfl⟩
    cases t with
    | order t =>
        exact ⟨plannedLog_none, plannedPhase_of_ne (fun _ _ h => by cases h)⟩
    | place token items => exact ⟨rfl, rfl⟩
    | product t => trivial
  · intro i j g h' tx tx' _ hi _
    rcases hghost hi with ⟨_, t, rfl⟩
    unfold GhostsApart
    rw [pending?_startGhost]
    exact keysApart_none _

/-- In every state that any interleaving reaches, the total of every order is
the value of its items; totals and items of the orders that exist there stay
the same in all later states. -/
theorem totals_hold_and_stay {w : World} {tasks : List RunTask}
    (hstart : Totalled w.db) {pool : Tasks}
    (h : Pool.Reaches (system AnyEnv)
      (startPool w (tasks.map RunTask.task)) pool) :
    Totalled pool.shared.db ∧
      forall pool', Pool.Reaches (system AnyEnv) pool pool' ->
        Totalled pool'.shared.db ∧ Frozen pool.shared.db pool'.shared.db := by
  let customers := w.db.customers
  have hcovered : Pool.Covered (mixed customers) (fun _ _ _ => True)
      (startPool w (tasks.map RunTask.task))
      (tasks.map (fun t => (startGhost customers t, none))) := by
    have hpool : startPool w (tasks.map RunTask.task) =
        ⟨w, tasks.map (fun t => ⟨none, t.task.code⟩)⟩ := by
      unfold startPool
      rw [List.map_map]
      rfl
    rw [hpool]
    exact Pool.covered_start (fun _ t _ => follows_mixed customers t)
  rcases Pool.reaches_covered (preserves_consistent AnyEnv customers w.db)
    (consistent_start w tasks hstart) hcovered h with
    ⟨ghosts, hconsistent, hcovered'⟩
  refine ⟨hconsistent.all.totalled, fun pool' h' => ?_⟩
  -- from here on the store is compared with the one that was reached
  have hagain : Consistent customers pool.shared.db pool.shared ghosts :=
    ⟨⟨hconsistent.all.customers, hconsistent.all.totalled, Frozen.refl _⟩,
      hconsistent.each, hconsistent.two⟩
  rcases Pool.reaches_covered
    (preserves_consistent AnyEnv customers pool.shared.db) hagain hcovered' h'
    with ⟨_, hconsistent', _⟩
  exact ⟨hconsistent'.all.totalled, hconsistent'.all.frozen⟩

def pensAndPrice : List RunTask :=
  [.place (.valid 1) [⟨1, 2⟩],
    .product (.patch "1" { price := some (.number 900) })]

/-- The price is raised between the check of the lines and the commit. -/
def priceRaised : Tasks :=
  afterTurns shop (pensAndPrice.map RunTask.task)
    (List.replicate 5 0 ++ List.replicate 6 1 ++ List.replicate 9 0)

theorem total_of_two_pens :
    priceRaised.shared.db.orders.find? 1 =
        some ⟨1, 1, 500, .pending, 0, 0, none⟩ ∧
      (priceRaised.shared.db.products.find? 1).map Product.price = some 900 ∧
      itemsValue priceRaised.shared.db 1 = 500 := by
  have hstart : Totalled shop.db := by
    intro id o ho
    cases ho
  have hreach : Pool.Reaches (system AnyEnv)
      (startPool shop (pensAndPrice.map RunTask.task)) priceRaised :=
    reaches_afterTurns trivial _ _ _
  have hrow : priceRaised.shared.db.orders.find? 1 =
      some ⟨1, 1, 500, .pending, 0, 0, none⟩ := by decide +kernel
  exact ⟨hrow, by decide +kernel,
    ((totals_hold_and_stay hstart hreach).left 1 _ hrow).symm⟩

end Concurrency
end ExpressEcommerce
