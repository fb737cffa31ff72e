import ExpressEcommerce.Orders.Effect

/-!
# Moves of an order

Seen from outside, a task on an order makes one of three moves: it sets the
status, it cancels the order and gives the stock of its items back, or it
reopens the order and takes the stock again.  This module states what each move
changes in the store and shows that the plans of the tasks make these moves.
-/

namespace ExpressEcommerce
namespace Store
namespace Database

open Foundation

/-- The stock of a product; a product that does not exist has none. -/
def stock (db : Database) (p : Int) : Int :=
  ((db.products.find? p).map Product.stock).getD 0

/-- The quantity of a product in all items of the orders that are kept. -/
def held (db : Database) (keep : Order -> Bool) (p : Int) : Int :=
  db.items.sum (fun i =>
    if i.productId = p ∧ (db.orders.find? i.orderId).any keep = true
    then i.quantity else 0)

/-- The quantity of a product in the items of one order. -/
def itemTotal (db : Database) (orderId p : Int) : Int :=
  db.items.sum (fun i =>
    if i.orderId = orderId ∧ i.productId = p then i.quantity else 0)

/-- No handler deletes items, so every store that the service has written to
alone is of this kind. -/
def NoDeletedItems (db : Database) : Prop :=
  forall i, i ∈ db.items.rows -> i.deletedAt = none

instance (db : Database) : Decidable db.NoDeletedItems :=
  inferInstanceAs (Decidable
    (forall i, i ∈ db.items.rows -> i.deletedAt = none))

theorem held_replace {db db' : Database} {o o' : Order}
    (hitems : db'.items = db.items) (hfound : db.orders.find? o.id = some o)
    (horders : forall id, db'.orders.find? id =
      if id = o.id then some o' else db.orders.find? id)
    (keep : Order -> Bool) (p : Int) :
    db'.held keep p + (if keep o then db.itemTotal o.id p else 0) =
      db.held keep p + (if keep o' then db.itemTotal o.id p else 0) := by
  have hite : forall b : Bool,
      (if b then db.itemTotal o.id p else 0) =
        db.items.sum (fun i =>
          if b = true ∧ i.orderId = o.id ∧ i.productId = p
          then i.quantity else 0) := by
    intro b
    cases b with
    | true => simp [itemTotal]
    | false => simp [Table.sum]
  rw [hite, hite]
  unfold held
  rw [hitems, ← Table.sum_add, ← Table.sum_add]
  apply Table.sum_congr
  intro i _
  rw [horders]
  by_cases ho : i.orderId = o.id
  · rw [if_pos ho, ho, hfound]
    by_cases hp : i.productId = p <;> cases hold : keep o <;>
      cases hnew : keep o' <;> simp [hp, hold, hnew]
  · simp [ho]

theorem sum_itemsOf {db : Database} (hlive : db.NoDeletedItems)
    (orderId p : Int) (paranoid : Bool) :
    ((db.itemsOf orderId paranoid).map (fun i =>
      if i.productId = p then i.quantity else 0)).sum =
        db.itemTotal orderId p := by
  unfold NoDeletedItems at hlive
  unfold itemsOf itemTotal Table.sum
  generalize db.items.rows = rows at hlive ⊢
  induction rows with
  | nil => rfl
  | cons i rest ih =>
      have hi := hlive i List.mem_cons_self
      have hrest := ih (fun j hj => hlive j (List.mem_cons_of_mem i hj))
      rw [List.filter_cons, List.map_cons, List.sum_cons, ← hrest, hi]
      by_cases ho : i.orderId = orderId
      · simp [ho]
      · simp [ho]

end Database
end Store

namespace Orders

open Foundation
open Store
open Service

/-- The quantity of a product in a list of items. -/
def quantityOf (items : List OrderItem) (p : Int) : Int :=
  (items.map (fun i => if i.productId = p then i.quantity else 0)).sum

theorem quantityOf_append (items more : List OrderItem) (p : Int) :
    quantityOf (items ++ more) p = quantityOf items p + quantityOf more p := by
  unfold quantityOf
  rw [List.map_append, List.sum_append]

/-!
# Performing a list of statements
-/

theorem performs_append {db db' : Database} {us more : List Change}
    (h : Performs db (us ++ more) db') :
    exists mid, Performs db us mid ∧ Performs mid more db' := by
  induction us generalizing db with
  | nil => exact ⟨db, .nil db, h⟩
  | cons u rest ih =>
      cases h with
      | cons now hu hrest =>
          rcases ih hrest with ⟨mid, hfirst, hsecond⟩
          exact ⟨mid, .cons now hu hfirst, hsecond⟩

theorem performs_nil {db db' : Database} (h : Performs db [] db') :
    db' = db := by
  cases h
  rfl

theorem stock_update_productStock (db : Database) (id amount : Int)
    (now : Nat) (hid : (db.products.find? id).isSome = true) (p : Int) :
    (db.update (.productStock id amount) now).stock p =
      db.stock p + if id = p then amount else 0 := by
  unfold Database.stock
  rw [Database.find?_update_productStock]
  by_cases hp : p = id
  · subst hp
    rcases Option.isSome_iff_exists.mp hid with ⟨r, hr⟩
    simp [hr]
  · rw [if_neg hp, if_neg (fun h => hp h.symm), Int.add_zero]

theorem performs_moveStock {db db' : Database} {items : List OrderItem}
    {amount : OrderItem -> Int}
    (hproducts : forall i, i ∈ items ->
      (db.products.find? i.productId).isSome = true)
    (h : Performs db
      (items.map (fun i => .productStock i.productId (amount i))) db') :
    db'.customers = db.customers ∧ db'.orders = db.orders ∧
      db'.items = db.items ∧
      forall p, db'.stock p = db.stock p +
        (items.map (fun i => if i.productId = p then amount i else 0)).sum := by
  induction items generalizing db with
  | nil =>
      rw [performs_nil h]
      simp
  | cons i rest ih =>
      cases h with
      | cons now hu hrest =>
          have hi := hproducts i List.mem_cons_self
          have hkeep : forall j, j ∈ rest ->
              ((db.update (.productStock i.productId (amount i))
                now).products.find? j.productId).isSome = true := by
            intro j hj
            rw [Database.find?_update_productStock]
            split <;> simp [hproducts j (List.mem_cons_of_mem i hj)]
          rcases ih hkeep hrest with ⟨hcustomers, horders, hitems, hstock⟩
          refine ⟨hcustomers, horders, hitems, fun p => ?_⟩
          rw [hstock p, stock_update_productStock db _ _ now hi, List.map_cons,
            List.sum_cons, Int.add_assoc]

/-- One order is replaced; nothing else in the store changes but stamps and
stocks of products. -/
structure Replaced (db db' : Database) (o o' : Order) : Prop where
  customers : db'.customers = db.customers
  items : db'.items = db.items
  seq : db'.orders.seq = db.orders.seq
  find? : forall id, db'.orders.find? id =
    if id = o.id then some o' else db.orders.find? id

theorem replaced_trans {db mid db' : Database} {o o1 o2 : Order}
    (h1 : Replaced db mid o o1) (h2 : Replaced mid db' o1 o2)
    (hid : o1.id = o.id) : Replaced db db' o o2 := by
  refine ⟨h2.customers.trans h1.customers, h2.items.trans h1.items,
    h2.seq.trans h1.seq, fun id => ?_⟩
  rw [h2.find?, hid, h1.find?]
  split <;> rfl

/-- `r` is the row that the statement finds; it may have changed since `o` was
read. -/
theorem performs_statusChange {db db' : Database} {o r : Order}
    {status : Status} (hfound : db.orders.find? o.id = some r)
    (h : Performs db (statusChange o status) db') :
    exists now, db'.products = db.products ∧
      Replaced db db' r { r with
        status := if o.status = status then r.status else status
        updatedAt := now } := by
  have hkey : r.id = o.id := (Table.find?_eq_some_iff.mp hfound).right
  unfold statusChange at h
  rw [← hkey] at h hfound
  by_cases hsame : o.status = status
  · rw [if_pos hsame] at h
    rw [performs_nil h]
    refine ⟨r.updatedAt, rfl, rfl, rfl, rfl, fun id => ?_⟩
    rw [if_pos hsame]
    split
    · rename_i hid
      rw [hid]
      exact hfound
    · rfl
  · rw [if_neg hsame] at h
    cases h with
    | cons now hu hrest =>
        rw [performs_nil hrest]
        refine ⟨now, rfl, rfl, rfl, rfl, fun id => ?_⟩
        rw [Database.find?_update_orderStatus, if_neg hsame]
        split
        · rename_i hid
          rw [hid, hfound]
          rfl
        · rfl

theorem performs_orderDeleted {db db' : Database} {id : Int} {r : Order}
    {deleted : Bool} (hfound : db.orders.find? id = some r)
    (h : Performs db [.orderDeleted id deleted] db') :
    exists now, db'.products = db.products ∧
      Replaced db db' r
        { r with deletedAt := stamp deleted now, updatedAt := now } := by
  have hkey : r.id = id := (Table.find?_eq_some_iff.mp hfound).right
  rw [← hkey] at h hfound
  cases h with
  | cons now hu hrest =>
      rw [performs_nil hrest]
      refine ⟨now, rfl, rfl, rfl, rfl, fun id => ?_⟩
      rw [Database.find?_update_orderDeleted]
      split
      · rename_i hid
        rw [hid, hfound]
        rfl
      · rfl

/-!
# Moves
-/

inductive Move where
  | set (status : Status)
  | cancel
  | reopen
  deriving DecidableEq, Repr

namespace Move

def status : Move -> Status
  | set status => status
  | cancel => .cancelled
  | reopen => .pending

def deleted : Move -> Bool -> Bool
  | set _, before => before
  | cancel, _ => true
  | reopen, _ => false

/-- How often the quantities of the order are given back to the stock. -/
def direction : Move -> Int
  | set _ => 0
  | cancel => 1
  | reopen => -1

end Move

def setMove (o : Order) (status : Status) : Option (Order × Move) :=
  if o.status = status then none else some (o, .set status)

def OrderTask.move (db : Database) : OrderTask -> Option (Order × Move)
  | update token id status =>
      (tokenCustomer? db.customers token).bind (fun c =>
        (paramOrder? db id true).bind (fun o =>
          if o.customerId ≠ c.id ∨ o.status = Status.delivered then none
          else
            ((status.filter (fun s => !s.isEmpty)).bind Status.ofText?).bind
              (setMove o)))
  | patch token id status =>
      (tokenCustomer? db.customers token).bind (fun _ =>
        (paramOrder? db id true).bind (fun o =>
          if o.status = Status.delivered then none
          else (status.bind Status.ofText?).bind (setMove o)))
  | softDelete token id =>
      (tokenCustomer? db.customers token).bind (fun _ =>
        (paramOrder? db id true).bind (fun o =>
          if o.status = Status.delivered then none else some (o, .cancel)))
  | restore token id =>
      (tokenCustomer? db.customers token).bind (fun _ =>
        (paramOrder? db id false).bind (fun o =>
          if o.deletedAt.isNone then none else some (o, .reopen)))
  | statusJob job =>
      (db.order? job.orderId true).bind (fun o =>
        if o.status = Status.cancelled ∨ o.status = Status.delivered then none
        else setMove o job.targetStatus)
  | cancelJob orderId =>
      (db.order? orderId true).bind (fun o =>
        if o.status = Status.delivered then none else some (o, .cancel))

inductive Makes (db : Database) (o : Order) : Move -> List Change -> Prop where
  | set {status : Status} (hlive : o.deletedAt = none)
      (hopen : o.status ≠ .delivered) (hdiff : o.status ≠ status) :
      Makes db o (.set status) [.orderStatus o.id status]
  | cancel (hlive : o.deletedAt = none) (hopen : o.status ≠ .delivered) :
      Makes db o .cancel (restockChanges (db.itemsOf o.id true) ++
        statusChange o .cancelled ++ [.orderDeleted o.id true])
  | cancelJob (hlive : o.deletedAt = none) (hopen : o.status ≠ .delivered) :
      Makes db o .cancel (statusChange o .cancelled ++
        [.orderDeleted o.id true] ++ restockChanges (db.itemsOf o.id false))
  | reopen (hdeleted : o.deletedAt.isSome = true) :
      Makes db o .reopen ([.orderDeleted o.id false] ++
        statusChange o .pending ++ takeChanges (db.itemsOf o.id true))

def Decided (db : Database) (plan : List Change) :
    Option (Order × Move) -> Prop
  | none => plan = []
  | some (o, m) => db.orders.find? o.id = some o ∧ Makes db o m plan

theorem decided_setMove {db : Database} {o : Order} {status : Status}
    (hfound : db.orders.find? o.id = some o) (hlive : o.deletedAt = none)
    (hopen : o.status ≠ .delivered) :
    Decided db (statusChange o status) (setMove o status) := by
  unfold setMove statusChange
  split
  · rfl
  · rename_i hdiff
    exact ⟨hfound, .set hlive hopen hdiff⟩

theorem found_of_order? {db : Database} {id : Int} {paranoid : Bool}
    {o : Order} (h : db.order? id paranoid = some o) :
    db.orders.find? o.id = some o := by
  rw [Database.order?_key h]
  exact (Option.filter_eq_some_iff.mp h).left

theorem found_of_paramOrder? {db : Database} {id : String} {paranoid : Bool}
    {o : Order} (h : paramOrder? db id paranoid = some o) :
    db.orders.find? o.id = some o := by
  rcases Option.bind_eq_some_iff.mp h with ⟨_, _, hfound⟩
  exact found_of_order? hfound

theorem decided_auth {db : Database} {token : Token}
    {plan : Customer -> List Change}
    {move : Customer -> Option (Order × Move)}
    (h : forall c, Decided db (plan c) (move c)) :
    Decided db (authPlan db token plan)
      ((tokenCustomer? db.customers token).bind move) := by
  unfold authPlan
  cases tokenCustomer? db.customers token with
  | none => rfl
  | some c => exact h c

theorem decided_found {db : Database} {found : Option Order}
    {plan : Order -> List Change} {move : Order -> Option (Order × Move)}
    (h : forall o, found = some o -> Decided db (plan o) (move o)) :
    Decided db (planOn found plan) (found.bind move) := by
  cases found with
  | none => rfl
  | some o => exact h o rfl

theorem decided_move (t : OrderTask) (db : Database) :
    Decided db (t.plan db) (t.move db) := by
  cases t with
  | update token id status =>
      refine decided_auth (fun c => decided_found (fun o ho => ?_))
      unfold updatePlan
      split
      · rfl
      · rename_i hguard
        cases (status.filter (fun s => !s.isEmpty)).bind Status.ofText? with
        | none => rfl
        | some status =>
            exact decided_setMove (found_of_paramOrder? ho)
              (live_of_paramOrder? ho) (not_or.mp hguard).right
  | patch token id status =>
      refine decided_auth (fun _ => decided_found (fun o ho => ?_))
      unfold patchPlan
      split
      · rfl
      · rename_i hopen
        cases status.bind Status.ofText? with
        | none => rfl
        | some status =>
            exact decided_setMove (found_of_paramOrder? ho)
              (live_of_paramOrder? ho) hopen
  | softDelete token id =>
      refine decided_auth (fun _ => decided_found (fun o ho => ?_))
      unfold softDeletePlan
      split
      · rfl
      · rename_i hopen
        exact ⟨found_of_paramOrder? ho, .cancel (live_of_paramOrder? ho) hopen⟩
  | restore token id =>
      refine decided_auth (fun _ => decided_found (fun o ho => ?_))
      unfold restorePlan
      split
      · rfl
      · rename_i hdeleted
        refine ⟨found_of_paramOrder? ho, .reopen ?_⟩
        rw [Option.isSome_iff_ne_none]
        simpa using hdeleted
  | statusJob job =>
      refine decided_found (fun o ho => ?_)
      unfold statusJobPlan
      split
      · rfl
      · rename_i hguard
        exact decided_setMove (found_of_order? ho)
          (Database.order?_true_eq_some_iff.mp ho).right
          (not_or.mp hguard).right
  | cancelJob orderId =>
      refine decided_found (fun o ho => ?_)
      unfold cancelPlan
      split
      · rfl
      · rename_i hopen
        exact ⟨found_of_order? ho,
          .cancelJob (Database.order?_true_eq_some_iff.mp ho).right hopen⟩

/-- The guard under which a move is made. -/
def Move.Guard (o : Order) : Move -> Prop
  | set status => o.deletedAt = none ∧ o.status ≠ .delivered ∧
      o.status ≠ status
  | cancel => o.deletedAt = none ∧ o.status ≠ .delivered
  | reopen => o.deletedAt.isSome = true

theorem guard_of_makes {db : Database} {o : Order} {m : Move}
    {us : List Change} (h : Makes db o m us) : m.Guard o := by
  cases h with
  | set hlive hopen hdiff => exact ⟨hlive, hopen, hdiff⟩
  | cancel hlive hopen => exact ⟨hlive, hopen⟩
  | cancelJob hlive hopen => exact ⟨hlive, hopen⟩
  | reopen hdeleted => exact hdeleted

theorem guard_of_move {t : OrderTask} {db : Database} {o : Order} {m : Move}
    (h : t.move db = some (o, m)) :
    db.orders.find? o.id = some o ∧ m.Guard o := by
  have hdecided := decided_move t db
  rw [h] at hdecided
  exact ⟨hdecided.left, guard_of_makes hdecided.right⟩

/-- What a move changes in the store. -/
structure Moved (db db' : Database) (o : Order) (m : Move) : Prop where
  replaced : exists now deletedAt,
    deletedAt.isSome = m.deleted o.deletedAt.isSome ∧
      Replaced db db' o
        { o with status := m.status, deletedAt := deletedAt, updatedAt := now }
  stock : forall p,
    db'.stock p = db.stock p + m.direction * db.itemTotal o.id p

theorem stock_congr {db db' : Database} (h : db'.products = db.products)
    (p : Int) : db'.stock p = db.stock p := by
  unfold Database.stock
  rw [h]

theorem replaced_of_eq_left {db mid db' : Database} {o o' : Order}
    (hcustomers : mid.customers = db.customers)
    (horders : mid.orders = db.orders) (hitems : mid.items = db.items)
    (h : Replaced mid db' o o') : Replaced db db' o o' := by
  refine ⟨h.customers.trans hcustomers, h.items.trans hitems, ?_, ?_⟩
  · rw [← horders]
    exact h.seq
  · rw [← horders]
    exact h.find?

theorem replaced_of_eq_right {db mid db' : Database} {o o' : Order}
    (hcustomers : db'.customers = mid.customers)
    (horders : db'.orders = mid.orders) (hitems : db'.items = mid.items)
    (h : Replaced db mid o o') : Replaced db db' o o' := by
  refine ⟨hcustomers.trans h.customers, hitems.trans h.items, ?_, ?_⟩
  · rw [horders]
    exact h.seq
  · rw [horders]
    exact h.find?

theorem products_of_itemsOf {db : Database} {orderId : Int} {paranoid : Bool}
    (i : OrderItem) (hi : i ∈ db.itemsOf orderId paranoid) :
    (db.products.find? i.productId).isSome = true :=
  db.itemProduct i (List.mem_of_mem_filter hi)

theorem Replaced.find?_self {db db' : Database} {o o' : Order}
    (h : Replaced db db' o o') (hid : o'.id = o.id) :
    db'.orders.find? o'.id = some o' := by
  rw [h.find?, if_pos hid]

theorem performs_restock {db db' : Database} {items : List OrderItem}
    (hproducts : forall i, i ∈ items ->
      (db.products.find? i.productId).isSome = true)
    (h : Performs db (restockChanges items) db') :
    db'.customers = db.customers ∧ db'.orders = db.orders ∧
      db'.items = db.items ∧
      forall p, db'.stock p = db.stock p + quantityOf items p :=
  performs_moveStock hproducts h

theorem sum_neg_quantity (items : List OrderItem) (p : Int) :
    (items.map (fun i => if i.productId = p then -i.quantity else 0)).sum =
      -quantityOf items p := by
  unfold quantityOf
  induction items with
  | nil => rfl
  | cons i rest ih =>
      rw [List.map_cons, List.map_cons, List.sum_cons, List.sum_cons, ih]
      split <;> omega

theorem performs_take {db db' : Database} {items : List OrderItem}
    (hproducts : forall i, i ∈ items ->
      (db.products.find? i.productId).isSome = true)
    (h : Performs db (takeChanges items) db') :
    db'.customers = db.customers ∧ db'.orders = db.orders ∧
      db'.items = db.items ∧
      forall p, db'.stock p = db.stock p - quantityOf items p := by
  rcases performs_moveStock hproducts h with ⟨hc, ho, hi, hstock⟩
  refine ⟨hc, ho, hi, fun p => ?_⟩
  rw [hstock p, sum_neg_quantity, Int.sub_eq_add_neg]

/-- What the statements of a move do to a store in which the order has the row
`r`, when the move was decided for an order with the status `before`. -/
structure Applied (db db' : Database) (r : Order) (before : Status) (m : Move)
    (items : List OrderItem) : Prop where
  replaced : exists now deletedAt,
    deletedAt.isSome = m.deleted r.deletedAt.isSome ∧
      Replaced db db' r { r with
        status := if before = m.status then r.status else m.status
        deletedAt := deletedAt
        updatedAt := now }
  stock : forall p,
    db'.stock p = db.stock p + m.direction * quantityOf items p

def Move.changes (db : Database) (o : Order) : Move -> List Change
  | set status => statusChange o status
  | cancel => restockChanges (db.itemsOf o.id true) ++
      statusChange o .cancelled ++ [.orderDeleted o.id true]
  | reopen => [.orderDeleted o.id false] ++ statusChange o .pending ++
      takeChanges (db.itemsOf o.id true)

theorem applied_of_changes {base db db' : Database} {o r : Order} {m : Move}
    (hfound : db.orders.find? o.id = some r)
    (hproducts : forall i, i ∈ base.items.rows ->
      (db.products.find? i.productId).isSome = true)
    (h : Performs db (m.changes base o) db') :
    Applied db db' r o.status m (base.itemsOf o.id true) := by
  have hkey : r.id = o.id := (Table.find?_eq_some_iff.mp hfound).right
  have hitems : forall i, i ∈ base.itemsOf o.id true ->
      (db.products.find? i.productId).isSome = true :=
    fun i hi => hproducts i (List.mem_of_mem_filter hi)
  cases m with
  | set status =>
      rcases performs_statusChange hfound h with ⟨now, hp, hrep⟩
      refine ⟨⟨now, r.deletedAt, rfl, hrep⟩, fun p => ?_⟩
      rw [stock_congr hp]
      exact (Int.add_zero _).symm.trans (congrArg _ (Int.zero_mul _).symm)
  | cancel =>
      rcases performs_append h with ⟨mid2, h12, h3⟩
      rcases performs_append h12 with ⟨mid1, h1, h2⟩
      rcases performs_restock hitems h1 with ⟨hc, ho, hi, hstock⟩
      have hfound1 : mid1.orders.find? o.id = some r := by
        rw [ho]
        exact hfound
      rcases performs_statusChange hfound1 h2 with ⟨now2, hp2, hrep2⟩
      have hfound2 := hrep2.find?_self rfl
      rw [show o.id = r.id from hkey.symm] at h3
      rcases performs_orderDeleted hfound2 h3 with ⟨now3, hp3, hrep3⟩
      refine ⟨⟨now3, some now3, rfl, ?_⟩, fun p => ?_⟩
      · exact replaced_of_eq_left hc ho hi (replaced_trans hrep2 hrep3 rfl)
      · rw [stock_congr hp3, stock_congr hp2, hstock p]
        exact congrArg _ (Int.one_mul _).symm
  | reopen =>
      rcases performs_append h with ⟨mid2, h12, h3⟩
      rcases performs_append h12 with ⟨mid1, h1, h2⟩
      rcases performs_orderDeleted hfound h1 with ⟨now1, hp1, hrep1⟩
      have hfound1 : mid1.orders.find? o.id = some
          { r with deletedAt := stamp false now1, updatedAt := now1 } := by
        rw [← hkey]
        exact hrep1.find?_self rfl
      rcases performs_statusChange hfound1 h2 with ⟨now2, hp2, hrep2⟩
      have hrep := replaced_trans hrep1 hrep2 rfl
      have hp : mid2.products = db.products := hp2.trans hp1
      rcases performs_take (by rw [hp]; exact hitems) h3 with
        ⟨hc, ho, hi, hstock⟩
      refine ⟨⟨now2, none, rfl, replaced_of_eq_right hc ho hi hrep⟩,
        fun p => ?_⟩
      rw [hstock p, stock_congr hp]
      show db.stock p - _ = db.stock p + -1 * _
      omega

theorem applied_of_makes {base db db' : Database} {o r : Order} {m : Move}
    {us : List Change} (hmakes : Makes base o m us)
    (hfound : db.orders.find? o.id = some r)
    (hproducts : forall i, i ∈ base.items.rows ->
      (db.products.find? i.productId).isSome = true)
    (h : Performs db us db') :
    exists paranoid,
      Applied db db' r o.status m (base.itemsOf o.id paranoid) := by
  cases hmakes with
  | @set status hlive hopen hdiff =>
      refine ⟨true, applied_of_changes hfound hproducts ?_⟩
      rw [show Move.changes base o (.set status) = _ from if_neg hdiff]
      exact h
  | cancel hlive hopen =>
      exact ⟨true, applied_of_changes (m := .cancel) hfound hproducts h⟩
  | reopen hdeleted =>
      exact ⟨true, applied_of_changes (m := .reopen) hfound hproducts h⟩
  | cancelJob hlive hopen =>
      have hkey : r.id = o.id := (Table.find?_eq_some_iff.mp hfound).right
      rcases performs_append h with ⟨mid2, h12, h3⟩
      rcases performs_append h12 with ⟨mid1, h1, h2⟩
      rcases performs_statusChange hfound h1 with ⟨now1, hp1, hrep1⟩
      have hfound1 := hrep1.find?_self rfl
      rw [show o.id = r.id from hkey.symm] at h2
      rcases performs_orderDeleted hfound1 h2 with ⟨now2, hp2, hrep2⟩
      have hrep := replaced_trans hrep1 hrep2 rfl
      have hp : mid2.products = db.products := hp2.trans hp1
      have hitems : forall i, i ∈ base.itemsOf o.id false ->
          (mid2.products.find? i.productId).isSome = true := by
        intro i hi
        rw [hp]
        exact hproducts i (List.mem_of_mem_filter hi)
      rcases performs_restock hitems h3 with ⟨hc, ho, hi, hstock⟩
      refine ⟨false, ⟨now2, some now2, rfl,
        replaced_of_eq_right hc ho hi hrep⟩, fun p => ?_⟩
      rw [hstock p, stock_congr hp]
      exact congrArg _ (Int.one_mul _).symm

theorem moved_of_makes {db db' : Database} {o : Order} {m : Move}
    {us : List Change} (hitems : db.NoDeletedItems)
    (hfound : db.orders.find? o.id = some o) (hmakes : Makes db o m us)
    (h : Performs db us db') : Moved db db' o m := by
  rcases applied_of_makes hmakes hfound db.itemProduct h with
    ⟨paranoid, hreplaced, hstock⟩
  constructor
  · rcases hreplaced with ⟨now, deletedAt, hdeleted, hrep⟩
    have hstatus : (if o.status = m.status then o.status else m.status) =
        m.status := by
      split
      · assumption
      · rfl
    rw [hstatus] at hrep
    exact ⟨now, deletedAt, hdeleted, hrep⟩
  · intro p
    rw [hstock p]
    unfold quantityOf
    rw [Database.sum_itemsOf hitems]

def Completes : OrderTask -> Outcome -> Prop
  | .cancelJob _, out => out = .returned
  | _, _ => True

theorem length_statusJob_plan (job : Job) (db : Database) :
    ((OrderTask.statusJob job).plan db).length ≤ 1 := by
  dsimp only [OrderTask.plan, planOn]
  cases db.order? job.orderId true with
  | none => simp
  | some o =>
      dsimp only [statusJobPlan, statusChange]
      split
      · simp
      · split <;> simp

theorem whole_of_completes {ok : Env -> Prop} {t : OrderTask} {w w' : World}
    {out : Outcome} {performed todo : List Change} (hdone : Completes t out)
    (h : Executes ok w t.task out w')
    (heffect : Effect ok t w out w' performed todo) :
    todo = [] ∨ performed = [] := by
  rcases heffect.whole with hwhole | hwhole | ⟨e, rfl⟩
  · exact Or.inl hwhole
  · exact Or.inr hwhole
  · cases t with
    | statusJob job =>
        -- a status job has one statement at most
        have hlength := length_statusJob_plan job w.db
        rw [heffect.plan, List.length_append] at hlength
        cases performed with
        | nil => exact Or.inr rfl
        | cons u rest =>
            refine Or.inl (List.length_eq_zero_iff.mp ?_)
            rw [List.length_cons] at hlength
            omega
    | cancelJob orderId => cases hdone
    | update | patch | softDelete | restore =>
        rcases h.response with ⟨r, hr⟩
        cases hr

end Orders
end ExpressEcommerce
