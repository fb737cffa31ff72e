import ExpressEcommerce.Foundation.Paging
import ExpressEcommerce.Foundation.Program
import ExpressEcommerce.Store.Json
import Mathlib.Data.List.Sort

/-!
# Commands of the service

Everything the handlers and jobs do outside of their own memory is a command:
SQL statements, Bull's `add`, Redis and Elasticsearch calls, bcrypt and the
e-mail check of validator.js.  A SQL statement carries a flag that says whether
it was given the `transaction` option; without it the statement runs on another
connection and commits by itself.

The semantics is that of PostgreSQL's READ COMMITTED level.  A statement sees
the committed rows together with the writes of its own transaction.  Writes of
an open transaction are kept in a log that commit applies and rollback drops.
-/

namespace ExpressEcommerce
namespace Store

open Foundation

/-!
# Queries
-/

inductive OrderFilter where
  | all
  | byStatus (customerId : Int) (status : Status)
  | byCustomer (customerId : Int)
  deriving DecidableEq, Repr

def OrderFilter.test : OrderFilter -> Order -> Bool
  | all, _ => true
  | byStatus customerId status, o =>
      decide (o.customerId = customerId) && decide (o.status = status)
  | byCustomer customerId, o => decide (o.customerId = customerId)

inductive Query where
  | productsById (ids : List Int)
  | productByPk (id : Int) (paranoid : Bool)
  | productPage (limit offset : Int)
  | products
  | orderByPk (id : Int) (paranoid : Bool) (incl : Include)
  | orderPage (filter : OrderFilter) (incl : Include) (limit offset : Int)
  | customerByPk (id : Int) (paranoid : Bool)
  | customerByEmail (email : String) (paranoid : Bool)
  | customerPage (limit offset : Int)
  | undelivered (customerId : Int)
  | undeliveredCount (customerId : Int)
  deriving DecidableEq, Repr

abbrev Query.Answer : Query -> Type
  | productsById _ => List Product
  | productByPk _ _ => Option Product
  | productPage _ _ => Nat × List Product
  | products => List Product
  | orderByPk _ _ _ => Option OrderGraph
  | orderPage _ _ _ _ => Nat × List OrderGraph
  | customerByPk _ _ => Option Customer
  | customerByEmail _ _ => Option Customer
  | customerPage _ _ => Nat × List Customer
  | undelivered _ => List Order
  | undeliveredCount _ => Nat

/-- Rows sorted by `createdAt` descending; rows with equal stamps keep the
order of the table. -/
def latestFirst (createdAt : rho -> Nat) (rows : List rho) : List rho :=
  rows.insertionSort (fun a b => createdAt b <= createdAt a)

namespace Database

def liveCustomers (db : Database) : List Customer :=
  db.customers.rows.filter (fun r => r.deletedAt.isNone)

def liveProducts (db : Database) : List Product :=
  db.products.rows.filter (fun r => r.deletedAt.isNone)

def liveOrders (db : Database) : List Order :=
  db.orders.rows.filter (fun r => r.deletedAt.isNone)

/-- Without `distinct`, `findAndCountAll` counts the rows of the join with the
included items: an order without items still gives one row. -/
def joinedRows (db : Database) (incl : Include) (o : Order) : Nat :=
  max 1 (db.graph incl o).items.length

end Database

/-- `LIMIT` and `OFFSET` are of type `bigint`.  They are sent as JavaScript
numbers, which from `2 ^ 63 - 512` on are rounded to `2 ^ 63`. -/
def windowBound : Int :=
  2 ^ 63 - 512

def fitsWindow (n : Int) : Bool :=
  decide (0 <= n ∧ n < windowBound)

/-- The `LIMIT` and the `OFFSET` of a query. -/
def Query.window? : Query -> Option (Int × Int)
  | productPage limit offset => some (limit, offset)
  | orderPage _ _ limit offset => some (limit, offset)
  | customerPage limit offset => some (limit, offset)
  | _ => none

def Query.accepted (q : Query) : Bool :=
  q.window?.all (fun window => fitsWindow window.1 && fitsWindow window.2)

def windowRefusal (limit offset : Int) : String :=
  if windowBound <= max limit.natAbs offset.natAbs then "bigint out of range"
  else if offset < 0 then "OFFSET must not be negative"
  else "LIMIT must not be negative"

def Query.refusal (q : Query) : String :=
  (q.window?.map (fun window => windowRefusal window.1 window.2)).getD
    "connection lost"

def Query.eval (db : Database) : (q : Query) -> q.Answer
  | productsById ids =>
      db.liveProducts.filter (fun p => decide (p.id ∈ ids))
  | productByPk id paranoid => db.product? id paranoid
  | productPage limit offset =>
      (db.liveProducts.length,
        slice limit offset (latestFirst Product.createdAt db.liveProducts))
  | products => db.liveProducts
  | orderByPk id paranoid incl => (db.order? id paranoid).map (db.graph incl)
  | orderPage filter incl limit offset =>
      let rows := db.liveOrders.filter filter.test
      ((rows.map (db.joinedRows incl)).sum,
        (slice limit offset (latestFirst Order.createdAt rows)).map
          (db.graph incl))
  | customerByPk id paranoid => db.customer? id paranoid
  | customerByEmail email paranoid =>
      (db.customers.rows.find? (fun r => decide (r.email = email))).filter
        (fun r => !paranoid || r.deletedAt.isNone)
  | customerPage limit offset =>
      (db.liveCustomers.length,
        slice limit offset (latestFirst Customer.createdAt db.liveCustomers))
  | undelivered customerId =>
      db.liveOrders.filter (fun o =>
        decide (o.customerId = customerId) &&
          decide (o.status ≠ Status.delivered))
  | undeliveredCount customerId =>
      -- the condition names the paranoid column once more
      (db.liveOrders.filter (fun o =>
        decide (o.customerId = customerId) &&
          decide (o.status ≠ Status.delivered) &&
          o.deletedAt.isNone)).length

/-!
# Queue, cache and search index
-/

/-- The data of a `statusUpdate` job.  Its job id is the text
`orderId-targetStatus`, which determines both parts. -/
structure Job where
  orderId : Int
  targetStatus : Status
  deriving DecidableEq, Repr

inductive JobState where
  | waiting
  | completed
  | failed
  deriving DecidableEq, Repr

structure QueuedJob where
  job : Job
  state : JobState
  deriving DecidableEq, Repr

abbrev Queue : Type := List QueuedJob

/-- Bull's `add` does nothing when the job id is known to the queue, completed
jobs included. -/
def Queue.add (q : Queue) (job : Job) : Queue :=
  if q.any (fun e => decide (e.job = job)) then q
  else q ++ [⟨job, JobState.waiting⟩]

def Queue.settle (q : Queue) (job : Job) (state : JobState) : Queue :=
  q.map (fun e => if e.job = job then { e with state := state } else e)

inductive CacheValue where
  | order (value : OrderJson)
  | product (value : ProductJson)
  deriving DecidableEq, Repr

abbrev Cache : Type := List (String × CacheValue)

def Cache.del (cache : Cache) (key : String) : Cache :=
  cache.filter (fun e => decide (e.1 ≠ key))

def Cache.set (cache : Cache) (key : String) (value : CacheValue) : Cache :=
  (key, value) :: Cache.del cache key

def Cache.get (cache : Cache) (key : String) : Option CacheValue :=
  cache.lookup key

@[simp] theorem Cache.get_nil (key : String) : Cache.get [] key = none := rfl

theorem Cache.get_cons (entry : String × CacheValue) (rest : Cache)
    (key : String) :
    Cache.get (entry :: rest) key =
      if key = entry.1 then some entry.2 else Cache.get rest key := by
  rcases entry with ⟨k, v⟩
  unfold Cache.get
  rw [List.lookup_cons]
  by_cases hkey : key = k
  · rw [if_pos hkey, show (key == k) = true from beq_iff_eq.mpr hkey]
  · rw [if_neg hkey, show (key == k) = false from beq_eq_false_iff_ne.mpr hkey]

theorem Cache.get_del (cache : Cache) (key other : String) :
    Cache.get (cache.del key) other =
      if other = key then none else cache.get other := by
  induction cache with
  | nil => simp [Cache.del]
  | cons entry rest ih =>
      unfold Cache.del at ih ⊢
      rw [List.filter_cons, Cache.get_cons]
      by_cases hkeep : entry.1 = key
      · rw [if_neg (by simp [hkeep]), ih]
        split
        · rfl
        · rename_i hother
          rw [if_neg (fun h => hother (h.trans hkeep))]
      · rw [if_pos (by simp [hkeep]), Cache.get_cons, ih]
        by_cases hother : other = entry.1
        · rw [if_pos hother, if_pos hother,
            if_neg (fun h => hkeep (hother.symm.trans h))]
        · rw [if_neg hother, if_neg hother]

theorem Cache.get_set (cache : Cache) (key other : String)
    (value : CacheValue) :
    Cache.get (cache.set key value) other =
      if other = key then some value else cache.get other := by
  unfold Cache.set
  rw [Cache.get_cons, Cache.get_del]
  split <;> rfl

abbrev SearchIndex : Type := List (Int × ProductDoc)

def SearchIndex.del (index : SearchIndex) (id : Int) : SearchIndex :=
  index.filter (fun e => decide (e.1 ≠ id))

def SearchIndex.put (index : SearchIndex) (id : Int) (doc : ProductDoc) :
    SearchIndex :=
  (id, doc) :: SearchIndex.del index id

/-- Everything that requests and jobs share. -/
structure World where
  db : Database
  queue : Queue
  cache : Cache
  index : SearchIndex

/-- The open transaction of a request, as the log of its writes. -/
abbrev Tx : Type := Option (List Write)

/-- What lies outside of the service when one command runs: whether the call
fails, the time it stamps on what it writes, bcrypt, the e-mail check of
validator.js, which documents Elasticsearch finds relevant, and whether its index
exists while it has no documents. -/
structure Env where
  fault : Bool := false
  now : Nat := 0
  hash : String -> String := fun password => "bcrypt:" ++ password
  compare : String -> String -> Bool :=
    fun password digest => decide (digest = "bcrypt:" ++ password)
  isEmail : String -> Bool := fun text => text.contains '@'
  relevant : String -> ProductDoc -> Bool := fun _ _ => true
  indexed : Bool := true

/-!
# Commands
-/

inductive NewRow where
  | customer (name email password : String)
  | product (name : String) (description : Option String) (price stock : Int)
  | order (customerId totalPrice : Int) (status : Status)
  | item (orderId productId quantity unitPrice : Int)
  deriving DecidableEq, Repr

def NewRow.table : NewRow -> TableName
  | customer _ _ _ => .customers
  | product _ _ _ _ => .products
  | order _ _ _ => .orders
  | item _ _ _ _ => .items

def NewRow.write (id : Int) (now : Nat) : NewRow -> Write
  | customer name email password =>
      .insertCustomer ⟨id, name, email, password, now, now, none⟩
  | product name description price stock =>
      .insertProduct ⟨id, name, description, price, stock, now, now, none⟩
  | order customerId totalPrice status =>
      .insertOrder ⟨id, customerId, totalPrice, status, now, now, none⟩
  | item orderId productId quantity unitPrice =>
      .insertItem
        ⟨id, orderId, productId, quantity, unitPrice, now, now, none⟩

inductive Cmd where
  | begin
  | commit
  | rollback
  | query (inTx : Bool) (q : Query)
  | insert (inTx : Bool) (row : NewRow)
  | update (inTx : Bool) (change : Change)
  | addJob (job : Job)
  | redisGet (key : String)
  | redisSet (key : String) (value : CacheValue)
  | redisDel (key : String)
  | indexDoc (id : Int) (doc : ProductDoc)
  | deleteDoc (id : Int)
  | bulkIndex (docs : List (Int × ProductDoc))
  | indexExists
  | createIndex
  | search (query : String)
  | bcryptHash (password : String)
  | bcryptCompare (password digest : String)
  | isEmail (text : String)

/-- The answer to an insert is the new key with the creation stamp, the answer
to an update the stamp it wrote. -/
abbrev Cmd.Answer : Cmd -> Type
  | query _ q => q.Answer
  | insert _ _ => Int × Nat
  | update _ _ => Nat
  | redisGet _ => Option CacheValue
  | indexExists => Bool
  | search _ => List (Int × ProductDoc)
  | bcryptHash _ => String
  | bcryptCompare _ _ => Bool
  | isEmail _ => Bool
  | _ => Unit

abbrev service : Interface where
  Cmd := Cmd
  Answer := Cmd.Answer
  Failure := String

/-- The rows a statement sees. -/
def World.view (w : World) (tx : Tx) (inTx : Bool) : Database :=
  if inTx then w.db.writeAll (tx.getD []) else w.db

/-- Keep a write in the log of the open transaction, or commit it at once. -/
def World.record (w : World) (tx : Tx) (inTx : Bool) (x : Write) :
    World × Tx :=
  if inTx then (w, tx.map (fun log => log ++ [x]))
  else ({ w with db := w.db.write x }, tx)

def exec (env : Env) : (c : Cmd) -> World × Tx ->
    service.Reply c × (World × Tx)
  | .begin, (w, tx) =>
      if env.fault then (.error "connection lost", (w, tx))
      else (.ok (), (w, some []))
  | .commit, (w, tx) =>
      match tx with
      | none => (.error "transaction finished", (w, none))
      | some log =>
          if env.fault then (.error "connection lost", (w, none))
          else (.ok (), ({ w with db := w.db.writeAll log }, none))
  | .rollback, (w, tx) =>
      match tx with
      | none => (.error "transaction finished", (w, none))
      | some _ =>
          if env.fault then (.error "connection lost", (w, none))
          else (.ok (), (w, none))
  | .query inTx q, (w, tx) =>
      if env.fault then (.error "connection lost", (w, tx))
      else if q.accepted then (.ok (q.eval (w.view tx inTx)), (w, tx))
      else (.error q.refusal, (w, tx))
  | .insert inTx row, (w, tx) =>
      if env.fault then (.error "connection lost", (w, tx))
      else
        let id := w.db.nextId row.table
        let x := row.write id env.now
        let reserved := { w with db := w.db.reserve row.table }
        if (reserved.view tx inTx).accepts x then
          (.ok (id, env.now), reserved.record tx inTx x)
        else (.error (Database.refusal x), (reserved, tx))
  | .update inTx change, (w, tx) =>
      if env.fault then (.error "connection lost", (w, tx))
      else if (w.view tx inTx).acceptsChange change then
        (.ok env.now, w.record tx inTx (.update change env.now))
      else (.error "constraint violated", (w, tx))
  | .addJob job, (w, tx) =>
      if env.fault then (.error "connection lost", (w, tx))
      else (.ok (), ({ w with queue := w.queue.add job }, tx))
  | .redisGet key, (w, tx) =>
      if env.fault then (.error "connection lost", (w, tx))
      else (.ok (w.cache.get key), (w, tx))
  | .redisSet key value, (w, tx) =>
      if env.fault then (.error "connection lost", (w, tx))
      else (.ok (), ({ w with cache := w.cache.set key value }, tx))
  | .redisDel key, (w, tx) =>
      if env.fault then (.error "connection lost", (w, tx))
      else (.ok (), ({ w with cache := w.cache.del key }, tx))
  | .indexDoc id doc, (w, tx) =>
      if env.fault then (.error "connection lost", (w, tx))
      else (.ok (), ({ w with index := w.index.put id doc }, tx))
  | .deleteDoc id, (w, tx) =>
      if env.fault then (.error "connection lost", (w, tx))
      else (.ok (), ({ w with index := w.index.del id }, tx))
  | .bulkIndex docs, (w, tx) =>
      if env.fault then (.error "connection lost", (w, tx))
      else
        (.ok (), ({ w with
          index := docs.foldl (fun ix d => SearchIndex.put ix d.1 d.2) w.index },
          tx))
  | .indexExists, (w, tx) =>
      if env.fault then (.error "connection lost", (w, tx))
      else (.ok (env.indexed || !w.index.isEmpty), (w, tx))
  | .createIndex, (w, tx) =>
      if env.fault then (.error "connection lost", (w, tx))
      else if w.index.isEmpty then (.ok (), (w, tx))
      else (.error "resource already exists", (w, tx))
  | .search query, (w, tx) =>
      if env.fault then (.error "connection lost", (w, tx))
      else (.ok (w.index.filter (fun e => env.relevant query e.2)), (w, tx))
  | .bcryptHash password, (w, tx) =>
      if env.fault then (.error "connection lost", (w, tx))
      else (.ok (env.hash password), (w, tx))
  | .bcryptCompare password digest, (w, tx) =>
      if env.fault then (.error "connection lost", (w, tx))
      else (.ok (env.compare password digest), (w, tx))
  | .isEmail text, (w, tx) => (.ok (env.isEmail text), (w, tx))

end Store
end ExpressEcommerce
