import ExpressEcommerce.Concurrency.Demand
import ExpressEcommerce.Concurrency.Totals

/-!
# Transactions that move stocks

Orders are created, deleted and restored in transactions.  While such a
transaction is open, its log contains a part of the statements it has decided
on, and these move the stocks of the items of its order, item by item.  All of
this holds in any interleaving with other transactions, because the items of an
order never change.
-/

namespace ExpressEcommerce
namespace Concurrency

open Foundation
open Store
open Service
open Orders
open Runs

/-- The requests that move stocks in a transaction. -/
inductive Transaction where
  | create (token : Token) (items : List ItemRequest)
  | softDelete (token : Token) (id : String)
  | restore (token : Token) (id : String)
  deriving DecidableEq, Repr

def Transaction.run : Transaction -> RunTask
  | create token items => .place token items
  | softDelete token id => .order (.softDelete token id)
  | restore token id => .order (.restore token id)

/-!
# The stocks that statements move
-/

def stockMoves (us : List Change) : List (Int × Int) :=
  us.filterMap (fun
    | .productStock id amount => some (id, amount)
    | _ => none)

def movedBy (us : List Change) (p : Int) : Int :=
  ((stockMoves us).map (fun m => if m.1 = p then m.2 else 0)).sum

def itemMoves (sign : Int) (items : List OrderItem) : List (Int × Int) :=
  items.map (fun i => (i.productId, sign * i.quantity))

theorem stockMoves_append (us more : List Change) :
    stockMoves (us ++ more) = stockMoves us ++ stockMoves more :=
  List.filterMap_append

theorem stockMoves_restock (items : List OrderItem) :
    stockMoves (restockChanges items) = itemMoves 1 items := by
  unfold stockMoves restockChanges itemMoves
  rw [List.filterMap_map]
  simp

theorem stockMoves_take (items : List OrderItem) :
    stockMoves (takeChanges items) = itemMoves (-1) items := by
  unfold stockMoves takeChanges itemMoves
  rw [List.filterMap_map]
  simp

theorem stockMoves_status (o : Order) (status : Status) :
    stockMoves (statusChange o status) = [] := by
  unfold statusChange
  split <;> rfl

theorem sum_itemMoves (sign : Int) (items : List OrderItem) (p : Int) :
    ((itemMoves sign items).map (fun m => if m.1 = p then m.2 else 0)).sum =
      sign * quantityOf items p := by
  unfold itemMoves quantityOf
  induction items with
  | nil => simp
  | cons i rest ih =>
      simp only [List.map_cons, List.sum_cons, Int.mul_add] at ih ⊢
      rw [ih]
      split <;> simp

def stockSign : OrderTask -> Int
  | .softDelete _ _ => 1
  | .restore _ _ => -1
  | _ => 0

def orderParam? : OrderTask -> Option Int
  | .softDelete _ id => pgInteger? id
  | .restore _ id => pgInteger? id
  | _ => none

/-- The statements move the stocks of the items that the order of the task has
in the store. -/
def Chosen (t : OrderTask) (db : Database) (us : List Change) : Prop :=
  exists id o, orderParam? t = some id ∧ db.orders.find? id = some o ∧
    stockMoves us = itemMoves (stockSign t) (db.itemsOf id true)

theorem find?_of_paramOrder? {db : Database} {text : String} {o : Order}
    {paranoid : Bool} (h : paramOrder? db text paranoid = some o) :
    pgInteger? text = some o.id ∧ db.orders.find? o.id = some o := by
  rcases Option.bind_eq_some_iff.mp h with ⟨id, hid, hfound⟩
  rw [Database.order?_key hfound]
  exact ⟨hid, (Option.filter_eq_some_iff.mp hfound).left⟩

theorem chosen_auth {t : OrderTask} {db : Database} {token : Token}
    {plan : Customer -> List Change}
    (h : forall c, plan c = [] ∨ Chosen t db (plan c)) :
    authPlan db token plan = [] ∨ Chosen t db (authPlan db token plan) := by
  unfold authPlan
  cases tokenCustomer? db.customers token with
  | none => exact Or.inl rfl
  | some c => exact h c

theorem chosen_found {t : OrderTask} {db : Database} {found : Option Order}
    {plan : Order -> List Change}
    (h : forall o, found = some o -> plan o = [] ∨ Chosen t db (plan o)) :
    planOn found plan = [] ∨ Chosen t db (planOn found plan) := by
  cases found with
  | none => exact Or.inl rfl
  | some o => exact h o rfl

theorem chosen_plan {t : OrderTask} (db : Database) (ht : t.inTx = true) :
    t.plan db = [] ∨ Chosen t db (t.plan db) := by
  cases t with
  | update | patch | statusJob | cancelJob => cases ht
  | softDelete token id =>
      refine chosen_auth (fun _ => chosen_found (fun o ho => ?_))
      unfold softDeletePlan
      split
      · exact Or.inl rfl
      · rcases find?_of_paramOrder? ho with ⟨hid, hrow⟩
        refine Or.inr ⟨o.id, o, hid, hrow, ?_⟩
        rw [stockMoves_append, stockMoves_append, stockMoves_restock,
          stockMoves_status, List.append_nil]
        exact List.append_nil _
  | restore token id =>
      refine chosen_auth (fun _ => chosen_found (fun o ho => ?_))
      unfold restorePlan
      split
      · exact Or.inl rfl
      · rcases find?_of_paramOrder? ho with ⟨hid, hrow⟩
        refine Or.inr ⟨o.id, o, hid, hrow, ?_⟩
        rw [stockMoves_append, stockMoves_append, stockMoves_take,
          stockMoves_status, List.append_nil]
        exact List.nil_append _

theorem itemsOf_frozen {db db' : Database} (h : Frozen db db') {id : Int}
    {o : Order} (ho : db.orders.find? id = some o) (paranoid : Bool) :
    db'.itemsOf id paranoid = db.itemsOf id paranoid := by
  have hsplit : forall base : Database, base.itemsOf id paranoid =
      (base.items.rows.filter (fun i => decide (i.orderId = id))).filter
        (fun i => !paranoid || i.deletedAt.isNone) := by
    intro base
    rw [List.filter_filter]
    refine List.filter_congr (fun i _ => ?_)
    exact Bool.and_comm _ _
  rw [hsplit, hsplit, (h id o ho).right]

theorem Chosen.frozen {t : OrderTask} {db db' : Database} {us : List Change}
    (h : Chosen t db us) (hfrozen : Frozen db db') : Chosen t db' us := by
  rcases h with ⟨id, o, hid, ho, hmoves⟩
  rcases (hfrozen id o ho).left with ⟨o', ho', _⟩
  refine ⟨id, o', hid, ho', ?_⟩
  rw [itemsOf_frozen hfrozen ho]
  exact hmoves

theorem Chosen.product {t : OrderTask} {db : Database} {us : List Change}
    (h : Chosen t db us) {m : Int × Int} (hm : m ∈ stockMoves us) :
    (db.products.find? m.1).isSome = true := by
  rcases h with ⟨id, o, _, _, hmoves⟩
  rw [hmoves] at hm
  rcases List.mem_map.mp hm with ⟨i, hi, rfl⟩
  exact products_of_itemsOf i hi

theorem Chosen.moved {t : OrderTask} {db : Database} {us : List Change}
    (h : Chosen t db us) (p : Int) :
    exists id, orderParam? t = some id ∧
      movedBy us p = stockSign t * quantityOf (db.itemsOf id true) p := by
  rcases h with ⟨id, o, hid, _, hmoves⟩
  refine ⟨id, hid, ?_⟩
  unfold movedBy
  rw [hmoves, sum_itemMoves]

/-!
# Logs
-/

/-- The log of a transaction that has issued these statements. -/
def Logs (log : List Write) (us : List Change) : Prop :=
  List.Forall₂ (fun x u => exists now, x = Write.update u now) log us

theorem Logs.snoc {log : List Write} {us : List Change} {u : Change}
    (h : Logs log us) (now : Nat) :
    Logs (log ++ [.update u now]) (us ++ [u]) :=
  List.rel_append h (List.Forall₂.cons ⟨now, rfl⟩ List.Forall₂.nil)

theorem Logs.planned {log : List Write} {us : List Change} (h : Logs log us)
    (hplanned : forall u, u ∈ us -> isPlanned u = true) :
    forall x, x ∈ log ->
      exists u now, x = .update u now ∧ isPlanned u = true := by
  induction h with
  | nil =>
      intro x hx
      cases hx
  | @cons x u log us hx _ ih =>
      intro y hy
      rcases List.mem_cons.mp hy with rfl | hy
      · rcases hx with ⟨now, rfl⟩
        exact ⟨u, now, rfl, hplanned u List.mem_cons_self⟩
      · exact ih (fun v hv => hplanned v (List.mem_cons_of_mem _ hv)) y hy

theorem movedBy_cons_stock (id amount : Int) (us : List Change) (p : Int) :
    movedBy (.productStock id amount :: us) p =
      (if id = p then amount else 0) + movedBy us p := by
  have hmoves : stockMoves (.productStock id amount :: us) =
      (id, amount) :: stockMoves us := rfl
  unfold movedBy
  rw [hmoves, List.map_cons, List.sum_cons]

theorem stock_writeAll_logs {db : Database} {log : List Write}
    {us : List Change} (h : Logs log us)
    (hplanned : forall u, u ∈ us -> isPlanned u = true)
    (hproducts : forall m, m ∈ stockMoves us ->
      (db.products.find? m.1).isSome = true) (p : Int) :
    (db.writeAll log).stock p = db.stock p + movedBy us p := by
  induction h generalizing db with
  | nil => exact (Int.add_zero _).symm
  | @cons x u log us hx _ ih =>
      rcases hx with ⟨now, rfl⟩
      have hu := hplanned u List.mem_cons_self
      have hrest := fun v hv => hplanned v (List.mem_cons_of_mem u hv)
      rw [Database.writeAll_cons]
      cases u with
      | productStock id amount =>
          have hid : (db.products.find? id).isSome = true :=
            hproducts (id, amount) List.mem_cons_self
          rw [ih hrest ?_, movedBy_cons_stock]
          · show (db.update (.productStock id amount) now).stock p + _ = _
            rw [stock_update_productStock db id amount now hid, Int.add_assoc]
          · intro m hm
            exact (quiet_planned hu now).product _
              (hproducts m (List.mem_cons_of_mem _ hm))
      | orderStatus | orderDeleted => exact ih hrest hproducts
      | _ => cases hu

/-!
# Deletions and restorations
-/

def InHand (db : Database) (t : OrderTask) : Phase -> Tx -> Prop
  | .idle, tx => tx = none
  | .opened, tx => tx = some []
  | .acting performed todo, tx =>
      (performed ++ todo = [] ∨ Chosen t db (performed ++ todo)) ∧
      (forall u, u ∈ performed ++ todo -> isPlanned u = true) ∧
      exists log, tx = some log ∧ Logs log performed
  | .scheduled _, _ => False
  | .stopped _ _, _ => True
  | .finished performed, tx => tx = none ∧
      (performed = [] ∨ Chosen t db performed)

def phaseMoved (p : Int) : Phase -> Int
  | .finished performed => movedBy performed p
  | _ => 0

theorem InHand.frozen {db db' : Database} {t : OrderTask} {phase : Phase}
    {tx : Tx} (h : InHand db t phase tx) (hfrozen : Frozen db db') :
    InHand db' t phase tx := by
  have hchosen : forall {us : List Change}, us = [] ∨ Chosen t db us ->
      us = [] ∨ Chosen t db' us :=
    fun h => h.imp_right (fun hc => hc.frozen hfrozen)
  cases phase with
  | acting performed todo => exact ⟨hchosen h.left, h.right⟩
  | finished performed => exact ⟨h.left, hchosen h.right⟩
  | idle | opened | scheduled | stopped => exact h

section Steps

variable {ok : Env -> Prop} {customers : Table Customer} {w : World} {tx : Tx}
  {s' : World × Tx} {t : OrderTask} {phase : Phase}

/-- The phase after a command of the task, with what the command did. -/
def Proceeds (customers : Table Customer) (w : World) (s' : World × Tx)
    (t : OrderTask) (phase : Phase) (c : Cmd) (r : service.Reply c) : Prop :=
  exists phase', phase.next (t.intent customers) c r phase' ∧
    InHand s'.1.db t phase' s'.2 ∧ Quiet w.db s'.1.db ∧
    forall p, s'.1.db.stock p + phaseMoved p phase =
      w.db.stock p + phaseMoved p phase'

theorem proceeds_same {c : Cmd} {r : service.Reply c} (phase' : Phase)
    (hnext : phase.next (t.intent customers) c r phase')
    (hdb : s'.1.db = w.db) (hhand : InHand w.db t phase' s'.2)
    (hmoved : forall p, phaseMoved p phase' = phaseMoved p phase) :
    Proceeds customers w s' t phase c r := by
  refine ⟨phase', hnext, ?_, ?_, fun p => ?_⟩
  · rw [hdb]
    exact hhand
  · rw [hdb]
    exact Quiet.refl _
  · rw [hdb, hmoved p]

theorem proceeds_read {id : Int} {paranoid : Bool} {incl : Include}
    {r : service.Reply (.query true (.orderByPk id paranoid incl))}
    (ht : t.inTx = true) (hcustomers : w.db.customers = customers)
    (h : InHand w.db t .opened tx)
    (hnext : Next ok (w, tx) (.query true (.orderByPk id paranoid incl)) r s') :
    Proceeds customers w s' t .opened (.query true (.orderByPk id paranoid incl))
      r := by
  have htx : tx = some [] := h
  subst htx
  rcases next_query hnext with ⟨rfl, rfl | ⟨⟨e, rfl⟩, _⟩⟩
  · refine proceeds_same (.acting [] (t.plan w.db))
      ⟨w.db, hcustomers, rfl, rfl⟩ rfl ?_ (fun _ => rfl)
    exact ⟨chosen_plan w.db ht, isPlanned_plan t w.db, [], rfl, .nil⟩
  · exact proceeds_same (.stopped true []) rfl rfl trivial (fun _ => rfl)

theorem proceeds_update {performed todo : List Change} {u : Change}
    {r : service.Reply (.update true u)}
    (h : InHand w.db t (.acting performed (u :: todo)) tx)
    (hnext : Next ok (w, tx) (.update true u) r s') :
    Proceeds customers w s' t (.acting performed (u :: todo)) (.update true u)
      r := by
  rcases h with ⟨hchosen, hplanned, log, rfl, hlogs⟩
  rcases next_update hnext with ⟨now, rfl, _, rfl⟩ | ⟨⟨e, rfl⟩, rfl, _⟩
  · refine proceeds_same (.acting (performed ++ [u]) todo) rfl rfl ?_
      (fun _ => rfl)
    rw [List.append_cons] at hchosen hplanned
    exact ⟨hchosen, hplanned, _, rfl, hlogs.snoc now⟩
  · exact proceeds_same (.stopped true performed) rfl rfl trivial (fun _ => rfl)

theorem proceeds_commit {performed : List Change} {u : Change}
    {r : service.Reply Cmd.commit}
    (h : InHand w.db t (.acting (u :: performed) []) tx)
    (hnext : Next ok (w, tx) .commit r s') :
    Proceeds customers w s' t (.acting (u :: performed) []) .commit r := by
  rcases h with ⟨hchosen, hplanned, log, rfl, hlogs⟩
  rw [List.append_nil] at hchosen hplanned
  rcases next_commit hnext with ⟨rfl, rfl⟩ | ⟨⟨e, rfl⟩, rfl, _⟩
  · have hquiet : Quiet w.db (w.db.writeAll log) :=
      quiet_writeAll (hlogs.planned hplanned)
    rcases hchosen with hnil | hchosen
    · cases hnil
    · refine ⟨.finished (u :: performed), rfl,
        ⟨rfl, Or.inr (hchosen.frozen (frozen_quiet hquiet))⟩, hquiet,
        fun p => ?_⟩
      have hstock := stock_writeAll_logs hlogs hplanned
        (fun m hm => hchosen.product hm) p
      show (w.db.writeAll log).stock p + 0 = _
      rw [hstock, Int.add_zero]
      rfl
  · exact proceeds_same (.stopped false []) rfl rfl trivial (fun _ => rfl)

theorem proceeds_step {c : Cmd} {r : service.Reply c} (ht : t.inTx = true)
    (hcustomers : w.db.customers = customers) (h : InHand w.db t phase tx)
    (hmay : phase.may (t.intent customers) c)
    (hnext : Next ok (w, tx) c r s') : Proceeds customers w s' t phase c r := by
  have hrolled : forall {r : service.Reply Cmd.rollback},
      Next ok (w, tx) .rollback r s' -> s'.1.db = w.db ∧ s'.2 = none := by
    intro r hnext
    rw [next_rollback hnext]
    exact ⟨rfl, rfl⟩
  unfold Phase.may at hmay
  split at hmay
  · rcases next_begin hnext with ⟨rfl, rfl⟩ | ⟨⟨e, rfl⟩, rfl, _⟩
    · exact proceeds_same .opened rfl rfl rfl (fun _ => rfl)
    · exact proceeds_same (.stopped false []) rfl rfl trivial (fun _ => rfl)
  · subst hmay
    rcases next_query hnext with ⟨rfl, rfl | ⟨⟨e, rfl⟩, _⟩⟩
    · exact proceeds_same .idle ⟨rfl, w.db, hcustomers, rfl⟩ rfl h (fun _ => rfl)
    · exact proceeds_same (.stopped false []) rfl rfl trivial (fun _ => rfl)
  · have hno : t.inTx = false := hmay.right
    rw [ht] at hno
    cases hno
  · rcases hmay with ⟨rfl, _⟩
    exact proceeds_read ht hcustomers h hnext
  · refine proceeds_same (.stopped false []) ?_ (hrolled hnext).left trivial
      (fun _ => rfl)
    cases r <;> rfl
  · rcases hmay with ⟨hinTx, rfl⟩
    have hinTx : _ = t.inTx := hinTx
    rw [ht] at hinTx
    subst hinTx
    exact proceeds_update h hnext
  · exact proceeds_commit h hnext
  · cases r with
    | ok u =>
        exact proceeds_same (.finished []) rfl (hrolled hnext).left
          ⟨(hrolled hnext).right, Or.inl rfl⟩ (fun _ => rfl)
    | error e =>
        exact proceeds_same (.stopped false []) rfl (hrolled hnext).left trivial
          (fun _ => rfl)
  · have hno : t.inTx = false := hmay.left
    rw [ht] at hno
    cases hno
  · refine proceeds_same (.stopped false []) ?_ (hrolled hnext).left trivial
      (fun _ => rfl)
    cases r <;> rfl
  · rcases next_aside rfl hnext with ⟨hdb, _, htx⟩
    refine proceeds_same phase rfl hdb ?_ (fun _ => rfl)
    rw [htx]
    exact h
  · cases hmay

end Steps

/-!
# Pools of transactions
-/

/-- What is known of the thread of a transaction. -/
def Trading (customers : Table Customer) (w : World) : Ghost -> Tx -> Prop
  | .place basket stage, tx => basket.customers = customers ∧
      stage.At basket (fun _ => True) w tx
  | .order t phase, tx => t.inTx = true ∧ InHand w.db t phase tx
  | .product _ _, _ => False

def Ghost.moved (p : Int) : Ghost -> Int
  | place basket stage => -taken p (basket, stage)
  | order _ phase => phaseMoved p phase
  | product _ _ => 0

theorem trading_frozen {customers : Table Customer} {w w' : World} {g : Ghost}
    {tx : Tx} (h : Trading customers w g tx) (hquiet : Quiet w.db w'.db) :
    Trading customers w' g tx := by
  cases g with
  | place basket stage => exact ⟨h.left, at_quiet h.right hquiet⟩
  | order t phase => exact ⟨h.left, h.right.frozen (frozen_quiet hquiet)⟩
  | product t edit => exact h

structure Trades (customers : Table Customer) (w w' : World) (g g' : Ghost)
    (tx' : Tx) : Prop where
  self : Trading customers w' g' tx'
  accounts : w'.db.customers = w.db.customers
  frozen : Frozen w.db w'.db
  stock : forall p, w'.db.stock p + g.moved p = w.db.stock p + g'.moved p
  others : forall h there, Trading customers w h there -> GhostsApart g h ->
    Trading customers w' h there ∧ GhostsApart g' h

theorem trades_step {ok : Env -> Prop} {customers : Table Customer}
    {w w' : World} {g : Ghost} {tx tx' : Tx} {c : Cmd} {r : service.Reply c}
    (hcustomers : w.db.customers = customers) (h : Trading customers w g tx)
    (hmay : g.may customers c) (hnext : Next ok (w, tx) c r (w', tx')) :
    exists g', g.next customers c r g' ∧ Trades customers w w' g g' tx' := by
  cases g with
  | product t edit => cases h
  | place basket stage =>
      rcases reached_step (hcustomers.trans h.left.symm) (fun _ => trivial)
        h.right hmay hnext with ⟨stage', hnext', hat, hpassage⟩
      refine ⟨.place basket stage', ⟨stage', rfl, hnext'⟩, ⟨h.left, hat⟩,
        (offers_passage hpassage).left, ?_, fun p => ?_, ?_⟩
      · rcases quiet_or_placed hpassage with hquiet | ⟨d, now, _, _, hplaced⟩
        · exact frozen_quiet hquiet
        · exact frozen_placed hplaced
      · have hstock : w'.db.stock p + _ = _ :=
          stock_passage h.right hpassage p
        show _ + -taken p (basket, stage) = _ + -taken p (basket, stage')
        omega
      · intro other there hother hapart
        cases other with
        | place basket2 stage2 =>
            exact ⟨⟨hother.left, at_passage hother.right hapart hpassage⟩,
              keysApart_passage hother.right hapart hpassage⟩
        | product => cases hother
        | order t phase =>
            refine ⟨⟨hother.left, ?_⟩, (keysApart_none _).symm⟩
            rcases quiet_or_placed hpassage with
              hquiet | ⟨d, now, _, _, hplaced⟩
            · exact hother.right.frozen (frozen_quiet hquiet)
            · exact hother.right.frozen (frozen_placed hplaced)
  | order t phase =>
      rcases proceeds_step h.left hcustomers h.right hmay hnext with
        ⟨phase', hnext', hhand, hquiet, hstock⟩
      refine ⟨.order t phase', ⟨phase', rfl, hnext'⟩, ⟨h.left, hhand⟩,
        hquiet.customers, frozen_quiet hquiet, hstock, ?_⟩
      intro other there hother _
      exact ⟨trading_frozen hother hquiet, keysApart_none _⟩

theorem covered_transactions (w : World) (ts : List Transaction)
    (here : priv) :
    Pool.Covered (mixed w.db.customers) (fun _ _ _ => True)
      (⟨w, ts.map (fun t => ⟨here, t.run.task.code⟩)⟩ :
        Pool service World priv Outcome)
      (ts.map (fun t => (startGhost w.db.customers t.run, here))) :=
  Pool.covered_start (fun _ t _ => follows_mixed w.db.customers t.run)

theorem trading_start (w : World) (t : Transaction) :
    Trading w.db.customers w (startGhost w.db.customers t.run) none := by
  cases t with
  | create token items => exact ⟨rfl, rfl⟩
  | softDelete token id => exact ⟨rfl, rfl⟩
  | restore token id => exact ⟨rfl, rfl⟩

end Concurrency
end ExpressEcommerce
