import ExpressEcommerce.Foundation.History
import ExpressEcommerce.Runs.Sequential
import ExpressEcommerce.Service.Kinds

/-!
# What customers are charged

Only `createOrder` inserts orders and items, and nothing rewrites their owners
and prices.  An order belongs to the customer of the token.  An item has the
quantity of a line of the request and a price that the product had when the
request read it.  So every order and item that is ever committed can be traced
to a request, and the item to a moment at which the product was on sale for that
price, however products are edited meanwhile.
-/

namespace ExpressEcommerce
namespace Checkout

open Foundation
open Store
open Service
open Foundation.Action

/-- The customer and the lines of a request and the products it has read. -/
structure Cart where
  buyer : Option Int
  lines : List ItemRequest
  quoted : List Product

namespace Cart

def may (cart : Cart) : Cmd -> Prop
  | .insert _ (.order customerId _ _) => cart.buyer = some customerId
  | .insert inTx (.item _ productId quantity unitPrice) =>
      inTx = true ∧
      (exists line, line ∈ cart.lines ∧ line.productId = productId ∧
        line.quantity = quantity) ∧
      exists p, p ∈ cart.quoted ∧ p.id = productId ∧ p.price = unitPrice
  | .update _ (.itemFields _ _) => False
  | _ => True

def next : Cart -> (c : Cmd) -> service.Reply c -> Cart -> Prop
  | cart, .query false (.productsById _), .ok rows, cart' =>
      cart' = { cart with quoted := rows ++ cart.quoted }
  | cart, .query false (.customerByPk id _), .ok found, cart' =>
      cart' = cart ∧ forall c, found = some c -> c.id = id
  | cart, _, _, cart' => cart' = cart

end Cart

def carts : Protocol service Cart where
  may := Cart.may
  next := Cart.next

def cartOf : Task -> Cart
  | .request (.createOrder (.valid id) items) => ⟨some id, items, []⟩
  | _ => ⟨none, [], []⟩

/-!
# The tasks
-/

def setsNoPrice : Cmd -> Bool
  | .insert _ (.order _ _ _) => false
  | .insert _ (.item _ _ _ _) => false
  | .update _ (.itemFields _ _) => false
  | _ => true

theorem may_of_setsNoPrice {c : Cmd} (hc : setsNoPrice c = true)
    (cart : Cart) : cart.may c := by
  cases c with
  | insert inTx row =>
      cases row with
      | order | item => cases hc
      | _ => trivial
  | update inTx u =>
      cases u with
      | itemFields => cases hc
      | _ => trivial
  | _ => trivial

theorem cart_grows {cart cart' : Cart} {c : Cmd} {r : service.Reply c}
    (h : cart.next c r cart') :
    cart'.buyer = cart.buyer ∧ cart'.lines = cart.lines ∧
      forall p, p ∈ cart.quoted -> p ∈ cart'.quoted := by
  have hsame : cart' = cart -> cart'.buyer = cart.buyer ∧
      cart'.lines = cart.lines ∧
        forall p, p ∈ cart.quoted -> p ∈ cart'.quoted := by
    rintro rfl
    exact ⟨rfl, rfl, fun _ hp => hp⟩
  cases c with
  | query inTx q =>
      cases inTx with
      | true => exact hsame h
      | false =>
          cases q with
          | productsById ids =>
              cases r with
              | error e => exact hsame h
              | ok rows =>
                  cases h
                  exact ⟨rfl, rfl, fun _ hp => List.mem_append_right _ hp⟩
          | customerByPk id paranoid =>
              cases r with
              | error e => exact hsame h
              | ok found => exact hsame h.left
          | _ => exact hsame h
  | _ => exact hsame h

theorem carts_allowed {kind : Kind} (hkind : kind ≠ .placing) :
    kind.Allowed carts (fun _ => True) := by
  intro c hc
  refine keeps_command (fun cart _ => ?_) (fun _ _ _ _ _ => trivial)
  refine may_of_setsNoPrice ?_ cart
  cases c with
  | insert inTx row =>
      cases row with
      | order | item =>
          cases kind <;> first | exact absurd rfl hkind | cases hc
      | _ => rfl
  | update inTx u =>
      cases u with
      | itemFields => cases kind <;> first | exact absurd rfl hkind | cases hc
      | _ => rfl
  | _ => rfl

def Knows (buyer : Int) (lines : List ItemRequest) (rows : List Product)
    (cart : Cart) : Prop :=
  cart.buyer = some buyer ∧ cart.lines = lines ∧
    forall p, p ∈ rows -> p ∈ cart.quoted

section Knows

variable {buyer : Int} {lines : List ItemRequest} {rows : List Product}

theorem knows_command {c : Cmd} (hc : setsNoPrice c = true) :
    Keeps carts (Knows buyer lines rows) (perform (I := service) c) := by
  refine keeps_command (fun cart _ => may_of_setsNoPrice hc cart) ?_
  rintro cart r cart' ⟨hbuyer, hlines, hrows⟩ h
  rcases cart_grows h with ⟨hbuyer', hlines', hgrows⟩
  exact ⟨hbuyer'.trans hbuyer, hlines'.trans hlines,
    fun p hp => hgrows p (hrows p hp)⟩

theorem knows_moving : Moving carts (Knows buyer lines rows) := by
  intro c hc
  refine knows_command ?_
  cases c with
  | insert => cases hc
  | update inTx u =>
      cases u with
      | itemFields => cases hc
      | _ => rfl
  | _ => rfl

theorem knows_saveTotal (inTx : Bool) (order : Order) (total : Int) :
    Keeps carts (Knows buyer lines rows) (Order.saveTotal inTx order total) :=
  keeps_bind (knows_command rfl) (fun _ =>
    keeps_bind (keeps_invalidateOrderCache knows_moving _)
      (fun _ => keeps_pure _))

theorem knows_recalculate (item : OrderItem) :
    Keeps carts (Knows buyer lines rows) (OrderItem.recalculate item) := by
  refine keeps_bind (knows_command rfl) (fun found => ?_)
  cases found with
  | none => exact keeps_pure _
  | some graph =>
      exact keeps_bind (knows_saveTotal _ _ _)
        (fun _ => keeps_invalidateOrderCache knows_moving _)

theorem knows_schedule (id : Int) :
    Keeps carts (Knows buyer lines rows)
      (detached (scheduleStatusUpdateJob id (some Status.pending))) :=
  keeps_detached (keeps_schedule (statusParts_moving knows_moving
    (fun _ => knows_command rfl)) _ _)

theorem knows_placeItem {line : ItemRequest} (hline : line ∈ lines)
    (order : Order) (total : Int) :
    Keeps carts (Knows buyer lines rows) (placeItem rows order total line) := by
  unfold placeItem
  split
  · exact keeps_throw _
  · rename_i product hproduct
    have hmem : product ∈ rows := List.mem_of_find?_eq_some hproduct
    have hid : product.id = line.productId := by
      unfold findProduct at hproduct
      simpa using List.find?_some hproduct
    refine keeps_bind (keeps_bind ?_ (fun _ => keeps_bind
      (knows_recalculate _) (fun _ => keeps_pure _))) (fun _ => keeps_bind
      (keeps_moveStock knows_moving _ _ _) (fun _ => keeps_pure _))
    refine keeps_command (fun cart hknows => ?_) (fun cart r cart' hknows h => ?_)
    · rcases hknows with ⟨_, hlines, hrows⟩
      refine ⟨rfl, ⟨line, ?_, rfl, rfl⟩, product, hrows _ hmem, hid, rfl⟩
      rw [hlines]
      exact hline
    · cases h
      exact hknows

theorem knows_placing :
    Keeps carts (Knows buyer lines rows) (do
      lines.forM (checkItem rows)
      let order ← Order.create true buyer 0 Status.pending
      let total ← lines.foldlM (placeItem rows order) 0
      Order.saveTotal true order total) := by
  refine keeps_bind (keeps_forM (fun item => ?_) _) (fun _ => ?_)
  · unfold checkItem
    split
    · exact keeps_throw _
    · split
      · exact keeps_throw _
      · exact keeps_pure _
  refine keeps_bind ?_ (fun order => keeps_bind ?_
    (fun total => knows_saveTotal _ _ _))
  · refine keeps_bind (keeps_command (fun _ hknows => hknows.left) ?_)
      (fun _ => ?_)
    · rintro cart r cart' hknows ⟨⟩
      exact hknows
    · refine keeps_bind ?_ (fun _ => keeps_pure _)
      exact keeps_bind (keeps_invalidateOrderCache knows_moving _)
        (fun _ => knows_schedule _)
  · intro cart hknows
    refine wp_foldlM (fun rest _ cart => (forall line, line ∈ rest ->
      line ∈ lines) ∧ Knows buyer lines rows cart) ?_ (fun _ _ h => h.right) lines 0
      ⟨fun _ h => h, hknows⟩
    rintro line rest total cart ⟨hmem, hknows⟩
    refine wp_mono ?_ (fun _ _ h => h)
      (knows_placeItem (hmem line List.mem_cons_self) order total cart hknows)
    exact fun _ _ h => ⟨fun l hl => hmem l (List.mem_cons_of_mem _ hl), h⟩

end Knows

theorem knows_createOrder (buyer : Int) (items : List ItemRequest) :
    Keeps carts (Knows buyer items []) (createOrder buyer items) := by
  have hbody : Keeps carts (Knows buyer items [])
      (createOrderBody buyer items) := by
    intro cart hstart
    refine (wp_bind _ _ _).mpr (wp_command trivial ?_ ?_)
    · intro rows cart' h
      have hknows : Knows buyer items rows cart' := by
        cases h
        exact ⟨hstart.left, hstart.right.left,
          fun _ hp => List.mem_append_left _ hp⟩
      have hforget : forall cart, Knows buyer items rows cart ->
          Knows buyer items [] cart :=
        fun cart h => ⟨h.left, h.right.left, by rintro p ⟨⟩⟩
      exact wp_mono (fun _ cart h => hforget cart h)
        (fun _ cart h => hforget cart h) (knows_placing cart' hknows)
    · rintro e cart' ⟨⟩
      exact hstart
  refine keeps_tryCatch (keeps_bind ?_ (fun _ => keeps_respond _ _))
    (fun _ => keeps_respond _ _)
  refine keeps_bind (knows_moving .begin rfl) (fun _ => keeps_bind ?_
    (fun _ => keeps_bind (knows_schedule _) (fun _ => keeps_pure _)))
  refine keeps_tryCatch (keeps_bind hbody (fun _ => ?_)) (fun _ => ?_)
  · exact keeps_bind (knows_moving .commit rfl) (fun _ => keeps_pure _)
  · exact keeps_bind (keeps_detached (knows_moving .rollback rfl))
      (fun _ => keeps_throw _)

theorem wp_createOrder (token : Token) (items : List ItemRequest) :
    wp carts (handle (.createOrder token items)) (fun _ _ => True)
      (fun _ _ => True) (cartOf (.request (.createOrder token items))) := by
  cases token with
  | missing => trivial
  | invalid => trivial
  | valid id =>
      refine (wp_bind _ _ _).mpr ((wp_tryCatch _ _ _).mpr
        ((wp_bind _ _ _).mpr (wp_command trivial ?_ ?_)))
      · rintro found _ ⟨rfl, hfound⟩
        cases found with
        | none => trivial
        | some customer =>
            have hid := hfound customer rfl
            subst hid
            exact wp_mono (fun _ _ _ => trivial) (fun _ _ _ => trivial)
              (knows_createOrder customer.id items _
                ⟨rfl, rfl, by rintro p ⟨⟩⟩)
      · rintro e _ rfl
        trivial

/-- Every task places orders for its customer and prices items as it has read
the products. -/
theorem wp_carts (task : Task) :
    task.code.wp carts (fun _ _ => True) (cartOf task) := by
  by_cases hkind : kindOf task = .placing
  · cases task with
    | request req =>
        cases req with
        | createOrder token items =>
            exact wp_settle.mpr (wp_createOrder token items)
        | _ => cases hkind
    | _ => cases hkind
  · exact Prog.wp_mono (fun _ _ _ => trivial) _
      (wp_task (carts_allowed hkind) trivial)

/-!
# One command
-/

def Asked (tasks : List Task) (productId quantity : Int) : Prop :=
  exists id items line,
    Task.request (.createOrder (.valid id) items) ∈ tasks ∧ line ∈ items ∧
    line.productId = productId ∧ line.quantity = quantity

def OnSale (productId price : Int) (w : World) : Prop :=
  exists p, p ∈ w.db.liveProducts ∧ p.id = productId ∧ p.price = price

/-- What `destroy` and `restore` of an item leave alone. -/
def terms (i : OrderItem) : Int × Int × Int × Int × Int :=
  (i.id, i.orderId, i.productId, i.quantity, i.unitPrice)

section Step

variable (tasks : List Task) (start : World)

/-- The item was there at the start, or a request has asked for it and its
product has been on sale for its price. -/
def Justified (s : World × List World) (item : OrderItem) : Prop :=
  (exists old, old ∈ start.db.items.rows ∧ terms old = terms item) ∨
    Asked tasks item.productId item.quantity ∧
      Once (OnSale item.productId item.unitPrice) s

def Requested (order : Order) : Prop :=
  (exists old, old ∈ start.db.orders.rows ∧ old.id = order.id ∧
    old.customerId = order.customerId) ∨
    exists items,
      Task.request (.createOrder (.valid order.customerId) items) ∈ tasks

/-- A write that adds such rows and changes no owner and no price. -/
def FairWrite (s : World × List World) : Write -> Prop
  | .insertOrder order => Requested tasks start order
  | .insertItem item => Justified tasks start s item
  | .update (.itemFields _ _) _ => False
  | _ => True

structure FairRows (s : World × List World) (db : Database) : Prop where
  orders : forall order, order ∈ db.orders.rows -> Requested tasks start order
  items : forall item, item ∈ db.items.rows -> Justified tasks start s item

structure FairCart (s : World × List World) (cart : Cart) (tx : Tx) :
    Prop where
  buyer : forall id, cart.buyer = some id ->
    exists items, Task.request (.createOrder (.valid id) items) ∈ tasks
  lines : forall line, line ∈ cart.lines ->
    Asked tasks line.productId line.quantity
  quoted : forall p, p ∈ cart.quoted -> Once (OnSale p.id p.price) s
  log : forall log, tx = some log -> forall x, x ∈ log ->
    FairWrite tasks start s x

variable {tasks start} {s s' : World × List World}

theorem Justified.of_terms {a b : OrderItem} (h : Justified tasks start s a)
    (hterms : terms a = terms b) : Justified tasks start s b := by
  have hparts := hterms
  simp only [terms, Prod.mk.injEq] at hparts
  rcases hparts with ⟨_, _, hproduct, hquantity, hprice⟩
  rcases h with ⟨old, hold, heq⟩ | hnew
  · exact Or.inl ⟨old, hold, heq.trans hterms⟩
  · rw [hproduct, hquantity, hprice] at hnew
    exact Or.inr hnew

theorem Requested.of_owner {a b : Order} (h : Requested tasks start a)
    (hid : a.id = b.id) (hcustomer : a.customerId = b.customerId) :
    Requested tasks start b := by
  unfold Requested at h ⊢
  rw [← hid, ← hcustomer]
  exact h

theorem Justified.later {item : OrderItem} (h : Justified tasks start s item)
    (hpast : s'.2 = s.1 :: s.2) : Justified tasks start s' item :=
  h.imp_right (fun hnew => ⟨hnew.left, hnew.right.later hpast⟩)

theorem FairWrite.later {x : Write} (h : FairWrite tasks start s x)
    (hpast : s'.2 = s.1 :: s.2) : FairWrite tasks start s' x := by
  cases x with
  | insertOrder order => exact h
  | insertItem item => exact Justified.later h hpast
  | update u now =>
      cases u with
      | itemFields => exact h.elim
      | _ => trivial
  | _ => trivial

theorem FairRows.later {db : Database} (h : FairRows tasks start s db)
    (hpast : s'.2 = s.1 :: s.2) : FairRows tasks start s' db where
  orders := h.orders
  items := fun item hitem => (h.items item hitem).later hpast

theorem FairCart.later {cart : Cart} {tx : Tx}
    (h : FairCart tasks start s cart tx) (hpast : s'.2 = s.1 :: s.2) :
    FairCart tasks start s' cart tx where
  buyer := h.buyer
  lines := h.lines
  quoted := fun p hp => (h.quoted p hp).later hpast
  log := fun log htx x hx => (h.log log htx x hx).later hpast

theorem fairRows_update {db : Database} {u : Change} {now : Nat}
    (hu : FairWrite tasks start s (.update u now))
    (h : FairRows tasks start s db) : FairRows tasks start s (db.update u now) := by
  cases u with
  | itemFields => exact hu.elim
  | itemDeleted id deleted =>
      refine ⟨h.orders, fun item hitem => ?_⟩
      rcases List.mem_map.mp hitem with ⟨old, hold, rfl⟩
      refine (h.items old hold).of_terms ?_
      split <;> rfl
  | orderStatus | orderTotal | orderDeleted =>
      refine ⟨fun order horder => ?_, h.items⟩
      rcases List.mem_map.mp horder with ⟨old, hold, rfl⟩
      refine (h.orders old hold).of_owner ?_ ?_ <;> split <;> rfl
  | _ => exact ⟨h.orders, h.items⟩

theorem fairRows_write {db : Database} {x : Write}
    (hx : FairWrite tasks start s x) (h : FairRows tasks start s db) :
    FairRows tasks start s (db.write x) := by
  cases x with
  | insertCustomer r => exact ⟨h.orders, h.items⟩
  | insertProduct r => exact ⟨h.orders, h.items⟩
  | insertOrder r =>
      show FairRows tasks start s (db.insertOrder r)
      unfold Database.insertOrder
      split
      · refine ⟨fun order horder => ?_, h.items⟩
        rcases Table.mem_insert horder with hold | rfl
        · exact h.orders order hold
        · exact hx
      · exact h
  | insertItem r =>
      show FairRows tasks start s (db.insertItem r)
      unfold Database.insertItem
      split
      · refine ⟨h.orders, fun item hitem => ?_⟩
        rcases Table.mem_insert hitem with hold | rfl
        · exact h.items item hold
        · exact hx
      · exact h
  | update u now => exact fairRows_update hx h

theorem fairRows_writeAll {log : List Write} {db : Database}
    (hlog : forall x, x ∈ log -> FairWrite tasks start s x)
    (h : FairRows tasks start s db) :
    FairRows tasks start s (db.writeAll log) := by
  induction log generalizing db with
  | nil => exact h
  | cons x rest ih =>
      rw [Database.writeAll_cons]
      exact ih (fun y hy => hlog y (List.mem_cons_of_mem _ hy))
        (fairRows_write (hlog x List.mem_cons_self) h)

variable {ok : Env -> Prop} {tx tx' : Tx} {cart : Cart} {c : Cmd}

theorem cart_step (cart : Cart) {w w' : World} {r : service.Reply c}
    (h : Next ok (w, tx) c r (w', tx')) :
    exists cart', cart.next c r cart' ∧ forall p, p ∈ cart'.quoted ->
      p ∈ cart.quoted ∨ p ∈ w.db.liveProducts := by
  have hsame : cart.next c r cart -> exists cart', cart.next c r cart' ∧
      forall p, p ∈ cart'.quoted ->
        p ∈ cart.quoted ∨ p ∈ w.db.liveProducts :=
    fun hnext => ⟨cart, hnext, fun _ hp => Or.inl hp⟩
  cases c with
  | query inTx q =>
      cases inTx with
      | true => exact hsame rfl
      | false =>
          cases q with
          | productsById ids =>
              rcases (next_query h).right with rfl | ⟨⟨e, rfl⟩, _⟩
              · refine ⟨_, rfl, fun p hp => ?_⟩
                rcases List.mem_append.mp hp with hnew | hold
                · exact Or.inr (List.mem_filter.mp hnew).left
                · exact Or.inl hold
              · exact hsame rfl
          | customerByPk id paranoid =>
              rcases (next_query h).right with rfl | ⟨⟨e, rfl⟩, _⟩
              · exact hsame ⟨rfl, fun c hc => Database.customer?_key hc⟩
              · exact hsame rfl
          | _ => exact hsame rfl
  | _ => exact hsame rfl

theorem fairWrite_insert {inTx : Bool} {row : NewRow} {id : Int} {now : Nat}
    (hmay : cart.may (.insert inTx row)) (h : FairCart tasks start s cart tx) :
    FairWrite tasks start s (row.write id now) := by
  cases row with
  | order customerId totalPrice status => exact Or.inr (h.buyer customerId hmay)
  | item orderId productId quantity unitPrice =>
      rcases hmay with ⟨_, ⟨line, hline, hproduct, hquantity⟩, p, hp, hid, hprice⟩
      have hasked := h.lines line hline
      have honce := h.quoted p hp
      rw [hproduct, hquantity] at hasked
      rw [hid, hprice] at honce
      exact Or.inr ⟨hasked, honce⟩
  | _ => trivial

theorem fairWrite_update {inTx : Bool} {u : Change} {now : Nat}
    (hmay : cart.may (.update inTx u)) :
    FairWrite tasks start s (.update u now) := by
  cases u with
  | itemFields => exact hmay.elim
  | _ => trivial

theorem fairLog_step (hmay : cart.may c) (h : FairCart tasks start s cart tx)
    (hstep : TxStep tx c tx') (log' : List Write) (htx : tx' = some log')
    (x : Write) (hx : x ∈ log') : FairWrite tasks start s x := by
  have hsnoc : forall new : Write, FairWrite tasks start s new ->
      tx.map (fun log => log ++ [new]) = some log' ->
      FairWrite tasks start s x := by
    intro new hnew heq
    rcases Option.map_eq_some_iff.mp heq with ⟨log, hlog, rfl⟩
    rcases List.mem_append.mp hx with hold | hlast
    · exact h.log log hlog x hold
    · rw [List.mem_singleton.mp hlast]
      exact hnew
  cases hstep with
  | same => exact h.log log' htx x hx
  | opened =>
      cases htx
      cases hx
  | closed => cases htx
  | inserted row id now => exact hsnoc _ (fairWrite_insert hmay h) htx
  | updated u now => exact hsnoc _ (fairWrite_update hmay) htx

theorem fairRows_step {w : World} {db' : Database} (hmay : cart.may c)
    (hrows : FairRows tasks start s w.db)
    (h : FairCart tasks start s cart tx) (hstep : StoreStep w tx c db') :
    FairRows tasks start s db' := by
  have hreserve : forall name,
      FairRows tasks start s (w.db.reserve name) := by
    intro name
    cases name <;> exact ⟨hrows.orders, hrows.items⟩
  cases hstep with
  | same => exact hrows
  | reserved inTx row => exact hreserve _
  | inserted row now =>
      exact fairRows_write (fairWrite_insert hmay h) (hreserve _)
  | updated u now => exact fairRows_update (fairWrite_update hmay) hrows
  | committed log htx => exact fairRows_writeAll (h.log log htx) hrows

end Step

/-!
# Whole runs
-/

theorem preserves_fair (ok : Env -> Prop) (tasks : List Task) (start : World) :
    Pool.Preserves (system ok).recorded carts
      (Pool.Jointly (fun s _ => FairRows tasks start s s.1.db)
        (FairCart tasks start) (fun _ _ => True)) := by
  refine Pool.preserves_jointly (fun _ => trivial) ?_
  rintro s s' ghosts i cart here here' c r others hrows _ hcart hmay _
    ⟨hnext, hpast⟩
  rcases cart_step cart hnext with ⟨cart', hcart', hquoted⟩
  rcases cart_grows hcart' with ⟨hbuyer, hlines, _⟩
  have hrows' := fairRows_step hmay hrows hcart (storeStep_of_next hnext)
  refine ⟨cart', hcart', hrows'.later hpast, ⟨?_, ?_, ?_, ?_⟩,
    fun other there _ hother _ => ⟨hother.later hpast, trivial⟩⟩
  · rw [hbuyer]
    exact hcart.buyer
  · rw [hlines]
    exact hcart.lines
  · intro p hp
    refine Once.later (s := s) ?_ hpast
    rcases hquoted p hp with hold | hnew
    · exact hcart.quoted p hold
    · exact once_now ⟨p, hnew, rfl, rfl⟩
  · intro log htx x hx
    exact (fairLog_step hmay hcart (txStep_of_next hnext) log htx x hx).later
      hpast

theorem fairCart_start {tasks : List Task} {task : Task} (htask : task ∈ tasks)
    (start : World) (s : World × List World) :
    FairCart tasks start s (cartOf task) none := by
  have hempty : FairCart tasks start s ⟨none, [], []⟩ none :=
    ⟨by rintro id ⟨⟩, by rintro line ⟨⟩, by rintro p ⟨⟩, by rintro log ⟨⟩⟩
  unfold cartOf
  split
  · rename_i id items
    exact
      { hempty with
        buyer := by
          rintro _ ⟨⟩
          exact ⟨items, htask⟩
        lines := fun line hline =>
          ⟨id, items, line, htask, hline, rfl, rfl⟩ }
  · exact hempty

section Results

variable {ok : Env -> Prop} {w : World} {tasks : List Task} {pool : Tasks}
variable {past : List World}

theorem reaches_fair (hreach : Pool.Reaches (system ok).recorded
    ((startPool w tasks).recorded []) (pool.recorded past)) :
    FairRows tasks w (pool.shared, past) pool.shared.db := by
  have hstart : FairRows tasks w (w, []) w.db :=
    ⟨fun order horder => Or.inl ⟨order, horder, rfl, rfl⟩,
      fun item hitem => Or.inl ⟨item, hitem, rfl⟩⟩
  rcases Pool.reaches_jointly (preserves_fair ok tasks w) wp_carts hstart
    (fun task htask => fairCart_start htask w _) (fun _ _ => trivial) hreach
    with ⟨ghosts, hjoint, _⟩
  exact hjoint.all

end Results

end Checkout
end ExpressEcommerce
