import ExpressEcommerce.Foundation.Table

/-!
# Rows of the store

The four Sequelize models `Customer`, `Product`, `Order` and
`OrderItem` as records, and the statements that write them.  Amounts of
type `DECIMAL(10,2)` are integers counting hundredths.  Timestamps are
natural numbers; `deletedAt` is the paranoid column, empty for a live row.
-/

namespace ExpressEcommerce
namespace Store

open Foundation

/-- The enumeration of the `orders.status` column. -/
inductive Status where
  | pending
  | processing
  | shipped
  | delivered
  | cancelled
  deriving DecidableEq, Repr

namespace Status

def text : Status -> String
  | pending => "pending"
  | processing => "processing"
  | shipped => "shipped"
  | delivered => "delivered"
  | cancelled => "cancelled"

def ofText? (text : String) : Option Status :=
  [pending, processing, shipped, delivered, cancelled].find?
    (fun s => decide (s.text = text))

end Status

structure Customer where
  id : Int
  name : String
  email : String
  password : String
  createdAt : Nat
  updatedAt : Nat
  deletedAt : Option Nat
  deriving DecidableEq, Repr

structure Product where
  id : Int
  name : String
  description : Option String
  price : Int
  stock : Int
  createdAt : Nat
  updatedAt : Nat
  deletedAt : Option Nat
  deriving DecidableEq, Repr

structure Order where
  id : Int
  customerId : Int
  totalPrice : Int
  status : Status
  createdAt : Nat
  updatedAt : Nat
  deletedAt : Option Nat
  deriving DecidableEq, Repr

structure OrderItem where
  id : Int
  orderId : Int
  productId : Int
  quantity : Int
  unitPrice : Int
  createdAt : Nat
  updatedAt : Nat
  deletedAt : Option Nat
  deriving DecidableEq, Repr

instance : Keyed Customer := ⟨Customer.id⟩
instance : Keyed Product := ⟨Product.id⟩
instance : Keyed Order := ⟨Order.id⟩
instance : Keyed OrderItem := ⟨OrderItem.id⟩

@[simp] theorem key_customer (r : Customer) : Keyed.key r = r.id := rfl
@[simp] theorem key_product (r : Product) : Keyed.key r = r.id := rfl
@[simp] theorem key_order (r : Order) : Keyed.key r = r.id := rfl
@[simp] theorem key_orderItem (r : OrderItem) : Keyed.key r = r.id := rfl

/-!
# Partial updates

The fields of an instance that `save` found changed; a field that is
`none` is left out of the `SET` list.
-/

structure ProductPatch where
  name : Option String := none
  description : Option (Option String) := none
  price : Option Int := none
  stock : Option Int := none
  deriving DecidableEq, Repr

structure CustomerPatch where
  name : Option String := none
  email : Option String := none
  password : Option String := none
  deriving DecidableEq, Repr

structure ItemPatch where
  orderId : Option Int := none
  quantity : Option Int := none
  unitPrice : Option Int := none
  deriving DecidableEq, Repr

def Product.patch (r : Product) (p : ProductPatch) : Product :=
  { r with
    name := p.name.getD r.name
    description := p.description.getD r.description
    price := p.price.getD r.price
    stock := p.stock.getD r.stock }

def Customer.patch (r : Customer) (p : CustomerPatch) : Customer :=
  { r with
    name := p.name.getD r.name
    email := p.email.getD r.email
    password := p.password.getD r.password }

def OrderItem.patch (r : OrderItem) (p : ItemPatch) : OrderItem :=
  { r with
    orderId := p.orderId.getD r.orderId
    quantity := p.quantity.getD r.quantity
    unitPrice := p.unitPrice.getD r.unitPrice }

/-- The paranoid column after `destroy` or `restore`. -/
def stamp (deleted : Bool) (now : Nat) : Option Nat :=
  if deleted then some now else none

@[simp] theorem stamp_true (now : Nat) : stamp true now = some now := rfl
@[simp] theorem stamp_false (now : Nat) : stamp false now = none := rfl

/-- The `UPDATE` statements issued by the application, each on the row
with the given primary key. -/
inductive Change where
  | orderStatus (id : Int) (status : Status)
  | orderTotal (id : Int) (total : Int)
  | orderDeleted (id : Int) (deleted : Bool)
  | itemFields (id : Int) (patch : ItemPatch)
  | itemDeleted (id : Int) (deleted : Bool)
  /-- The relative update `stock = stock + by`. -/
  | productStock (id : Int) (amount : Int)
  | productFields (id : Int) (patch : ProductPatch)
  | productDeleted (id : Int) (deleted : Bool)
  | customerFields (id : Int) (patch : CustomerPatch)
  | customerDeleted (id : Int) (deleted : Bool)
  deriving DecidableEq, Repr

/-- A row version that a statement creates, as it is kept until commit. -/
inductive Write where
  | insertCustomer (row : Customer)
  | insertProduct (row : Product)
  | insertOrder (row : Order)
  | insertItem (row : OrderItem)
  | update (change : Change) (now : Nat)
  deriving DecidableEq, Repr

inductive TableName where
  | customers
  | products
  | orders
  | items
  deriving DecidableEq, Repr

/-- The row that a statement locks until its transaction ends. -/
def Change.row : Change -> TableName × Int
  | orderStatus id _ => (.orders, id)
  | orderTotal id _ => (.orders, id)
  | orderDeleted id _ => (.orders, id)
  | itemFields id _ => (.items, id)
  | itemDeleted id _ => (.items, id)
  | productStock id _ => (.products, id)
  | productFields id _ => (.products, id)
  | productDeleted id _ => (.products, id)
  | customerFields id _ => (.customers, id)
  | customerDeleted id _ => (.customers, id)

def Write.row : Write -> TableName × Int
  | insertCustomer r => (.customers, r.id)
  | insertProduct r => (.products, r.id)
  | insertOrder r => (.orders, r.id)
  | insertItem r => (.items, r.id)
  | update u _ => u.row

end Store
end ExpressEcommerce
