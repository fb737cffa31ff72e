import ExpressEcommerce.Store.Rows

/-!
# The relational store

A database holds the four tables together with the foreign keys the migrations
declare.  The foreign keys are fields of the structure: since rows are only
inserted and modified, every write keeps them, and a row that would break one
is refused by the statement that inserts it.
-/

namespace ExpressEcommerce
namespace Store

open Foundation

@[ext] structure Database where
  customers : Table Customer
  products : Table Product
  orders : Table Order
  items : Table OrderItem
  orderCustomer : forall o, o ∈ orders.rows ->
    (customers.find? o.customerId).isSome = true
  itemOrder : forall i, i ∈ items.rows ->
    (orders.find? i.orderId).isSome = true
  itemProduct : forall i, i ∈ items.rows ->
    (products.find? i.productId).isSome = true

namespace Database

def empty : Database where
  customers := { rows := [], seq := 1, nodup := by decide, below := by decide }
  products := { rows := [], seq := 1, nodup := by decide, below := by decide }
  orders := { rows := [], seq := 1, nodup := by decide, below := by decide }
  items := { rows := [], seq := 1, nodup := by decide, below := by decide }
  orderCustomer := by decide
  itemOrder := by decide
  itemProduct := by decide

/-!
# Replacing one table

A table may be replaced by one that knows at least the same keys.
-/

def withCustomers (db : Database) (t : Table Customer)
    (hkeep : forall id, (db.customers.find? id).isSome = true ->
      (t.find? id).isSome = true) : Database :=
  { db with
    customers := t
    orderCustomer := fun o ho => hkeep _ (db.orderCustomer o ho) }

def withProducts (db : Database) (t : Table Product)
    (hkeep : forall id, (db.products.find? id).isSome = true ->
      (t.find? id).isSome = true) : Database :=
  { db with
    products := t
    itemProduct := fun i hi => hkeep _ (db.itemProduct i hi) }

def withOrders (db : Database) (t : Table Order)
    (hkeep : forall id, (db.orders.find? id).isSome = true ->
      (t.find? id).isSome = true)
    (hcustomer : forall o, o ∈ t.rows ->
      (db.customers.find? o.customerId).isSome = true) : Database :=
  { db with
    orders := t
    orderCustomer := hcustomer
    itemOrder := fun i hi => hkeep _ (db.itemOrder i hi) }

def withItems (db : Database) (t : Table OrderItem)
    (horder : forall i, i ∈ t.rows ->
      (db.orders.find? i.orderId).isSome = true)
    (hproduct : forall i, i ∈ t.rows ->
      (db.products.find? i.productId).isSome = true) : Database :=
  { db with
    items := t
    itemOrder := horder
    itemProduct := hproduct }

/-!
# Modifying one row
-/

def alterCustomer (db : Database) (id : Int) (f : Customer -> Customer)
    (hid : forall r, (f r).id = r.id) : Database :=
  db.withCustomers (db.customers.modify id f hid) (fun j h => by
    rw [Table.isSome_find?_modify]
    exact h)

def alterProduct (db : Database) (id : Int) (f : Product -> Product)
    (hid : forall r, (f r).id = r.id) : Database :=
  db.withProducts (db.products.modify id f hid) (fun j h => by
    rw [Table.isSome_find?_modify]
    exact h)

def alterOrder (db : Database) (id : Int) (f : Order -> Order)
    (hid : forall r, (f r).id = r.id)
    (hcustomer : forall r, (f r).customerId = r.customerId) : Database :=
  db.withOrders (db.orders.modify id f hid)
    (fun j h => by
      rw [Table.isSome_find?_modify]
      exact h)
    (fun o ho => by
      rcases Table.mem_modify ho with ⟨r, hr, rfl⟩
      split
      · rw [hcustomer]
        exact db.orderCustomer r hr
      · exact db.orderCustomer r hr)

/-- An item may be moved to another order only if that order exists. -/
def alterItem (db : Database) (id : Int) (f : OrderItem -> OrderItem)
    (hid : forall r, (f r).id = r.id)
    (horder : forall r, r ∈ db.items.rows ->
      (db.orders.find? (f r).orderId).isSome = true)
    (hproduct : forall r, (f r).productId = r.productId) : Database :=
  db.withItems (db.items.modify id f hid)
    (fun i hi => by
      rcases Table.mem_modify hi with ⟨r, hr, rfl⟩
      split
      · exact horder r hr
      · exact db.itemOrder r hr)
    (fun i hi => by
      rcases Table.mem_modify hi with ⟨r, hr, rfl⟩
      split
      · rw [hproduct]
        exact db.itemProduct r hr
      · exact db.itemProduct r hr)

def itemTargetExists (db : Database) (patch : ItemPatch) : Bool :=
  match patch.orderId with
  | none => true
  | some id => (db.orders.find? id).isSome

theorem itemTargetExists_patch {db : Database} {patch : ItemPatch}
    (h : db.itemTargetExists patch = true) (now : Nat) :
    forall r, r ∈ db.items.rows ->
      (db.orders.find? ({ r.patch patch with updatedAt := now } :
        OrderItem).orderId).isSome = true := by
  intro r hr
  unfold itemTargetExists at h
  cases hpatch : patch.orderId with
  | none =>
      simp only [OrderItem.patch, hpatch, Option.getD_none]
      exact db.itemOrder r hr
  | some id =>
      simp only [OrderItem.patch, hpatch, Option.getD_some]
      simpa [hpatch] using h

/-- The effect of an `UPDATE` statement; a missing row is not an error. -/
def update (db : Database) (change : Change) (now : Nat) : Database :=
  match change with
  | .orderStatus id status =>
      db.alterOrder id
        (fun o => { o with status := status, updatedAt := now })
        (fun _ => rfl) (fun _ => rfl)
  | .orderTotal id total =>
      db.alterOrder id
        (fun o => { o with totalPrice := total, updatedAt := now })
        (fun _ => rfl) (fun _ => rfl)
  | .orderDeleted id deleted =>
      db.alterOrder id
        (fun o => { o with deletedAt := stamp deleted now, updatedAt := now })
        (fun _ => rfl) (fun _ => rfl)
  | .itemFields id patch =>
      if h : db.itemTargetExists patch = true then
        db.alterItem id (fun i => { i.patch patch with updatedAt := now })
          (fun _ => rfl) (itemTargetExists_patch h now) (fun _ => rfl)
      else db
  | .itemDeleted id deleted =>
      db.alterItem id
        (fun i => { i with deletedAt := stamp deleted now, updatedAt := now })
        (fun _ => rfl) (fun r hr => db.itemOrder r hr) (fun _ => rfl)
  | .productStock id amount =>
      db.alterProduct id
        (fun p => { p with stock := p.stock + amount, updatedAt := now })
        (fun _ => rfl)
  | .productFields id patch =>
      db.alterProduct id (fun p => { p.patch patch with updatedAt := now })
        (fun _ => rfl)
  | .productDeleted id deleted =>
      db.alterProduct id
        (fun p => { p with deletedAt := stamp deleted now, updatedAt := now })
        (fun _ => rfl)
  | .customerFields id patch =>
      db.alterCustomer id (fun c => { c.patch patch with updatedAt := now })
        (fun _ => rfl)
  | .customerDeleted id deleted =>
      db.alterCustomer id
        (fun c => { c with deletedAt := stamp deleted now, updatedAt := now })
        (fun _ => rfl)

/-!
Lookups after the statements that orders and stocks are written by.
-/

theorem find?_update_orderStatus (db : Database) (id : Int) (status : Status)
    (now : Nat) (j : Int) :
    (db.update (.orderStatus id status) now).orders.find? j =
      if j = id then (db.orders.find? j).map
        (fun o => { o with status := status, updatedAt := now })
      else db.orders.find? j := by
  refine Table.find?_modify _ _ _ ?_ _
  exact fun _ => rfl

theorem find?_update_orderTotal (db : Database) (id total : Int) (now : Nat)
    (j : Int) :
    (db.update (.orderTotal id total) now).orders.find? j =
      if j = id then (db.orders.find? j).map
        (fun o => { o with totalPrice := total, updatedAt := now })
      else db.orders.find? j := by
  refine Table.find?_modify _ _ _ ?_ _
  exact fun _ => rfl

theorem find?_update_orderDeleted (db : Database) (id : Int) (deleted : Bool)
    (now : Nat) (j : Int) :
    (db.update (.orderDeleted id deleted) now).orders.find? j =
      if j = id then (db.orders.find? j).map
        (fun o => { o with deletedAt := stamp deleted now, updatedAt := now })
      else db.orders.find? j := by
  refine Table.find?_modify _ _ _ ?_ _
  exact fun _ => rfl

theorem find?_update_productStock (db : Database) (id amount : Int)
    (now : Nat) (j : Int) :
    (db.update (.productStock id amount) now).products.find? j =
      if j = id then (db.products.find? j).map
        (fun p => { p with stock := p.stock + amount, updatedAt := now })
      else db.products.find? j := by
  refine Table.find?_modify _ _ _ ?_ _
  exact fun _ => rfl

theorem find?_update_productFields (db : Database) (id : Int)
    (patch : ProductPatch) (now : Nat) (j : Int) :
    (db.update (.productFields id patch) now).products.find? j =
      if j = id then (db.products.find? j).map
        (fun p => { p.patch patch with updatedAt := now })
      else db.products.find? j := by
  refine Table.find?_modify _ _ _ ?_ _
  exact fun _ => rfl

theorem find?_update_productDeleted (db : Database) (id : Int)
    (deleted : Bool) (now : Nat) (j : Int) :
    (db.update (.productDeleted id deleted) now).products.find? j =
      if j = id then (db.products.find? j).map
        (fun p => { p with deletedAt := stamp deleted now, updatedAt := now })
      else db.products.find? j := by
  refine Table.find?_modify _ _ _ ?_ _
  exact fun _ => rfl

theorem find?_update_customerFields (db : Database) (id : Int)
    (patch : CustomerPatch) (now : Nat) (j : Int) :
    (db.update (.customerFields id patch) now).customers.find? j =
      if j = id then (db.customers.find? j).map
        (fun c => { c.patch patch with updatedAt := now })
      else db.customers.find? j := by
  refine Table.find?_modify _ _ _ ?_ _
  exact fun _ => rfl

theorem find?_update_customerDeleted (db : Database) (id : Int)
    (deleted : Bool) (now : Nat) (j : Int) :
    (db.update (.customerDeleted id deleted) now).customers.find? j =
      if j = id then (db.customers.find? j).map
        (fun c => { c with deletedAt := stamp deleted now, updatedAt := now })
      else db.customers.find? j := by
  refine Table.find?_modify _ _ _ ?_ _
  exact fun _ => rfl

/-!
# Inserting rows
-/

def insertCustomer (db : Database) (r : Customer) : Database :=
  db.withCustomers (db.customers.insert r)
    (fun _ h => Table.isSome_find?_insert h)

def insertProduct (db : Database) (r : Product) : Database :=
  db.withProducts (db.products.insert r)
    (fun _ h => Table.isSome_find?_insert h)

def insertOrder (db : Database) (r : Order) : Database :=
  if h : (db.customers.find? r.customerId).isSome = true then
    db.withOrders (db.orders.insert r)
      (fun _ hj => Table.isSome_find?_insert hj)
      (fun o ho => by
        rcases Table.mem_insert ho with hold | rfl
        · exact db.orderCustomer o hold
        · exact h)
  else db

def insertItem (db : Database) (r : OrderItem) : Database :=
  if h : (db.orders.find? r.orderId).isSome = true ∧
      (db.products.find? r.productId).isSome = true then
    db.withItems (db.items.insert r)
      (fun i hi => by
        rcases Table.mem_insert hi with hold | rfl
        · exact db.itemOrder i hold
        · exact h.left)
      (fun i hi => by
        rcases Table.mem_insert hi with hold | rfl
        · exact db.itemProduct i hold
        · exact h.right)
  else db

def write (db : Database) : Write -> Database
  | .insertCustomer r => db.insertCustomer r
  | .insertProduct r => db.insertProduct r
  | .insertOrder r => db.insertOrder r
  | .insertItem r => db.insertItem r
  | .update change now => db.update change now

def writeAll (db : Database) (log : List Write) : Database :=
  log.foldl write db

@[simp] theorem writeAll_nil (db : Database) : db.writeAll [] = db := rfl

@[simp] theorem writeAll_cons (db : Database) (w : Write) (log : List Write) :
    db.writeAll (w :: log) = (db.write w).writeAll log := rfl

theorem writeAll_append (db : Database) (log more : List Write) :
    db.writeAll (log ++ more) = (db.writeAll log).writeAll more :=
  List.foldl_append

@[simp] theorem writeAll_snoc (db : Database) (log : List Write) (w : Write) :
    db.writeAll (log ++ [w]) = (db.writeAll log).write w := by
  rw [writeAll_append]
  rfl

/-!
# Sequences

Taking the next value of a key sequence is not undone by a rollback.
-/

def reserve (db : Database) : TableName -> Database
  | .customers => db.withCustomers db.customers.reserve (fun _ h => h)
  | .products => db.withProducts db.products.reserve (fun _ h => h)
  | .orders => db.withOrders db.orders.reserve (fun _ h => h) db.orderCustomer
  | .items => db.withItems db.items.reserve db.itemOrder db.itemProduct

def nextId (db : Database) : TableName -> Int
  | .customers => db.customers.seq
  | .products => db.products.seq
  | .orders => db.orders.seq
  | .items => db.items.seq

/-!
# Column checks

PostgreSQL refuses values outside of a column's type, duplicate e-mail
addresses and references to rows that do not exist.
-/

def fitsInteger (n : Int) : Bool :=
  decide (-2147483648 <= n ∧ n <= 2147483647)

def fitsDecimal (hundredths : Int) : Bool :=
  decide (-9999999999 <= hundredths ∧ hundredths <= 9999999999)

def fitsText (limit : Nat) (s : String) : Bool :=
  decide (s.length <= limit)

def emailFree (db : Database) (id : Int) (email : String) : Bool :=
  db.customers.rows.all (fun c => decide (c.email ≠ email ∨ c.id = id))

def acceptsChange (db : Database) : Change -> Bool
  | .orderStatus _ _ => true
  | .orderTotal _ total => fitsDecimal total
  | .orderDeleted _ _ => true
  | .itemFields _ patch =>
      db.itemTargetExists patch && patch.quantity.all fitsInteger &&
        patch.unitPrice.all fitsDecimal
  | .itemDeleted _ _ => true
  | .productStock id amount =>
      (db.products.find? id).all (fun p => fitsInteger (p.stock + amount))
  | .productFields _ patch =>
      patch.name.all (fitsText 100) && patch.price.all fitsDecimal &&
        patch.stock.all fitsInteger
  | .productDeleted _ _ => true
  | .customerFields id patch =>
      patch.name.all (fitsText 255) &&
        patch.email.all (fun e => fitsText 255 e && db.emailFree id e) &&
        patch.password.all (fitsText 255)
  | .customerDeleted _ _ => true

def accepts (db : Database) : Write -> Bool
  | .insertCustomer r =>
      fitsText 255 r.name && fitsText 255 r.email && fitsText 255 r.password &&
        db.emailFree r.id r.email
  | .insertProduct r =>
      fitsText 100 r.name && fitsDecimal r.price && fitsInteger r.stock
  | .insertOrder r =>
      (db.customers.find? r.customerId).isSome && fitsDecimal r.totalPrice
  | .insertItem r =>
      (db.orders.find? r.orderId).isSome &&
        (db.products.find? r.productId).isSome && fitsInteger r.quantity &&
        fitsDecimal r.unitPrice
  | .update change _ => db.acceptsChange change

/-- The columns are checked before the index on the addresses. -/
def refusal : Write -> String
  | .insertCustomer r =>
      if fitsText 255 r.name && fitsText 255 r.email &&
        fitsText 255 r.password then "SequelizeUniqueConstraintError"
      else "value too long"
  | _ => "constraint violated"

end Database

end Store
end ExpressEcommerce
