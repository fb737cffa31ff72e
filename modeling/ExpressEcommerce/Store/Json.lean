import ExpressEcommerce.Store.Database

/-!
# Query results and serialised rows

The shapes that leave the store: joined query results, the JSON objects built
from them, and the responses of the HTTP handlers.  An attribute that a query
or a serialiser leaves out is `none`.
-/

namespace ExpressEcommerce
namespace Store

open Foundation

/-!
# Eager loading

`include` options of the order queries.  A nested `items` include carries its
own paranoid flag; the flag of the outer query is not inherited.
-/

structure Include where
  customer : Bool := false
  items : Option Bool := none
  product : Bool := false
  deriving DecidableEq, Repr

structure ItemGraph where
  item : OrderItem
  product : Option Product
  deriving DecidableEq, Repr

structure OrderGraph where
  order : Order
  customer : Option Customer
  items : List ItemGraph
  deriving DecidableEq, Repr

namespace Database

/-- A paranoid lookup ignores rows whose `deletedAt` is set. -/
def customer? (db : Database) (id : Int) (paranoid : Bool) : Option Customer :=
  (db.customers.find? id).filter (fun r => !paranoid || r.deletedAt.isNone)

def product? (db : Database) (id : Int) (paranoid : Bool) : Option Product :=
  (db.products.find? id).filter (fun r => !paranoid || r.deletedAt.isNone)

def order? (db : Database) (id : Int) (paranoid : Bool) : Option Order :=
  (db.orders.find? id).filter (fun r => !paranoid || r.deletedAt.isNone)

@[simp] theorem customer?_false (db : Database) (id : Int) :
    db.customer? id false = db.customers.find? id := by
  unfold customer?
  cases db.customers.find? id <;> rfl

@[simp] theorem product?_false (db : Database) (id : Int) :
    db.product? id false = db.products.find? id := by
  unfold product?
  cases db.products.find? id <;> rfl

@[simp] theorem order?_false (db : Database) (id : Int) :
    db.order? id false = db.orders.find? id := by
  unfold order?
  cases db.orders.find? id <;> rfl

theorem customer?_key {db : Database} {id : Int} {paranoid : Bool}
    {c : Customer} (h : db.customer? id paranoid = some c) : c.id = id :=
  (Table.find?_eq_some_iff.mp (Option.filter_eq_some_iff.mp h).left).right

theorem product?_key {db : Database} {id : Int} {paranoid : Bool}
    {p : Product} (h : db.product? id paranoid = some p) : p.id = id :=
  (Table.find?_eq_some_iff.mp (Option.filter_eq_some_iff.mp h).left).right

theorem order?_key {db : Database} {id : Int} {paranoid : Bool}
    {o : Order} (h : db.order? id paranoid = some o) : o.id = id :=
  (Table.find?_eq_some_iff.mp (Option.filter_eq_some_iff.mp h).left).right

theorem order?_true_eq_some_iff {db : Database} {id : Int} {o : Order} :
    db.order? id true = some o <->
      db.orders.find? id = some o ∧ o.deletedAt = none := by
  unfold order?
  rw [Option.filter_eq_some_iff]
  simp

def itemsOf (db : Database) (orderId : Int) (paranoid : Bool) :
    List OrderItem :=
  db.items.rows.filter (fun i =>
    decide (i.orderId = orderId) && (!paranoid || i.deletedAt.isNone))

def itemGraph (db : Database) (incl : Include) (i : OrderItem) : ItemGraph :=
  { item := i
    product := if incl.product then db.product? i.productId true else none }

def graph (db : Database) (incl : Include) (o : Order) : OrderGraph :=
  { order := o
    customer :=
      if incl.customer then db.customer? o.customerId true else none
    items :=
      match incl.items with
      | none => []
      | some paranoid => (db.itemsOf o.id paranoid).map (db.itemGraph incl) }

@[simp] theorem graph_order (db : Database) (incl : Include) (o : Order) :
    (db.graph incl o).order = o := rfl

theorem map_item_graph (db : Database) {incl : Include} {paranoid : Bool}
    (hincl : incl.items = some paranoid) (o : Order) :
    (db.graph incl o).items.map ItemGraph.item =
      db.itemsOf o.id paranoid := by
  unfold graph
  rw [hincl, List.map_map]
  exact List.map_id _

theorem live_of_mem_itemsOf {db : Database} {orderId : Int} {i : OrderItem}
    (h : i ∈ db.itemsOf orderId true) : i.deletedAt = none := by
  have := (List.mem_filter.mp h).right
  simp at this
  exact this.right

end Database

/-!
# JSON objects
-/

structure CustomerJson where
  id : Int
  name : String
  email : String
  password : Option String
  createdAt : Option Nat
  updatedAt : Option Nat
  deletedAt : Option (Option Nat)
  deriving DecidableEq, Repr

structure ProductJson where
  id : Int
  name : String
  price : Rat
  description : Option (Option String)
  stock : Option Int
  createdAt : Option Nat
  updatedAt : Option Nat
  deletedAt : Option (Option Nat)
  deriving DecidableEq, Repr

structure ItemJson where
  item : OrderItem
  /-- `none` when the product was not included, `some none` for a null. -/
  product : Option (Option ProductJson)
  deriving DecidableEq, Repr

structure OrderJson where
  order : Order
  /-- `none` when the customer was not included, `some none` for a null. -/
  customer : Option (Option CustomerJson)
  items : Option (List ItemJson)
  deriving DecidableEq, Repr

/-- `get({ plain: true })` of a customer instance: every attribute. -/
def Customer.get (c : Customer) : CustomerJson :=
  { id := c.id
    name := c.name
    email := c.email
    password := some c.password
    createdAt := some c.createdAt
    updatedAt := some c.updatedAt
    deletedAt := some c.deletedAt }

/-- The override `Customer.prototype.toJSON`. -/
def Customer.toJSON (c : Customer) : CustomerJson :=
  { c.get with password := none }

/-- `attributes: ['id', 'name', 'email']`. -/
def Customer.idNameEmail (c : Customer) : CustomerJson :=
  { id := c.id
    name := c.name
    email := c.email
    password := none
    createdAt := none
    updatedAt := none
    deletedAt := none }

def Product.toJSON (p : Product) : ProductJson :=
  { id := p.id
    name := p.name
    price := p.price
    description := some p.description
    stock := some p.stock
    createdAt := some p.createdAt
    updatedAt := some p.updatedAt
    deletedAt := some p.deletedAt }

/-- `attributes: ['id', 'name', 'price']`. -/
def Product.idNamePrice (p : Product) : ProductJson :=
  { id := p.id
    name := p.name
    price := p.price
    description := none
    stock := none
    createdAt := none
    updatedAt := none
    deletedAt := none }

def Order.toJSON (o : Order) : OrderJson :=
  { order := o, customer := none, items := none }

/-- The document that is kept for a product in the search index. -/
structure ProductDoc where
  name : String
  description : Option String
  price : Rat
  stock : Int
  deriving DecidableEq, Repr

def Product.doc (p : Product) : ProductDoc :=
  { name := p.name
    description := p.description
    price := p.price
    stock := p.stock }

/-!
# Responses
-/

inductive Rows where
  | customers (rows : List CustomerJson)
  | products (rows : List ProductJson)
  | orders (rows : List OrderJson)
  deriving DecidableEq, Repr

structure Pagination where
  totalItems : Nat
  currentPage : Int
  totalPages : Int
  perPage : Int
  deriving DecidableEq, Repr

inductive Body where
  | error (text : String)
  | errorDetails (text details : String)
  | errors (messages : List String)
  | message (text : String)
  | messageCustomer (text : String) (customer : CustomerJson)
  | messageProduct (text : String) (product : ProductJson)
  | messageOrder (text : String) (order : OrderJson)
  | customer (customer : CustomerJson)
  | product (product : ProductJson)
  | order (order : OrderJson)
  | page (dataKey : String) (rows : Rows) (pagination : Pagination)
  | results (hits : List (Int × ProductDoc))
  | token (text : String) (id : Int) (email : String)
  deriving DecidableEq, Repr

structure Response where
  status : Nat
  body : Body
  deriving DecidableEq, Repr

end Store
end ExpressEcommerce
