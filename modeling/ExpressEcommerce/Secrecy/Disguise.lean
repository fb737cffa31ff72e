import ExpressEcommerce.Foundation.Lockstep
import ExpressEcommerce.Service.Execution

/-!
# Other passwords

The same world with other password hashes: every hash that is stored with a
customer, or with the copy of a customer in a cached order, is replaced by the
value of a function.  All commands but those that write passwords act on the
disguised world as they do on the original one, and their answers are the
disguised answers.
-/

namespace ExpressEcommerce
namespace Secrecy

open Foundation
open Store
open Service

variable (f : String -> String)

/-!
# Rows and tables
-/

def maskCustomer (c : Customer) : Customer :=
  { c with password := f c.password }

def maskCustomers (t : Table Customer) : Table Customer :=
  t.mapRows (maskCustomer f) (fun _ => rfl)

theorem find?_maskCustomers (t : Table Customer) (id : Int) :
    (maskCustomers f t).find? id = (t.find? id).map (maskCustomer f) :=
  Table.find?_mapRows t _ id

theorem isSome_find?_maskCustomers (t : Table Customer) (id : Int) :
    ((maskCustomers f t).find? id).isSome = (t.find? id).isSome := by
  rw [find?_maskCustomers, Option.isSome_map]

def maskDb (db : Database) : Database :=
  db.withCustomers (maskCustomers f db.customers) (fun id h => by
    rw [isSome_find?_maskCustomers]
    exact h)

/-!
# Query results, cached values and responses
-/

def maskGraph (g : OrderGraph) : OrderGraph :=
  { g with customer := g.customer.map (maskCustomer f) }

def maskCustomerJson (c : CustomerJson) : CustomerJson :=
  { c with password := c.password.map f }

def maskOrderJson (j : OrderJson) : OrderJson :=
  { j with customer := j.customer.map (Option.map (maskCustomerJson f)) }

def maskValue : CacheValue -> CacheValue
  | .order value => .order (maskOrderJson f value)
  | .product value => .product value

def maskCache (cache : Cache) : Cache :=
  cache.map (fun e => (e.1, maskValue f e.2))

def maskWorld (w : World) : World :=
  { w with db := maskDb f w.db, cache := maskCache f w.cache }

def maskRows : Rows -> Rows
  | .customers rows => .customers (rows.map (maskCustomerJson f))
  | .products rows => .products rows
  | .orders rows => .orders (rows.map (maskOrderJson f))

def maskBody : Body -> Body
  | .messageCustomer text customer =>
      .messageCustomer text (maskCustomerJson f customer)
  | .messageOrder text order => .messageOrder text (maskOrderJson f order)
  | .customer customer => .customer (maskCustomerJson f customer)
  | .order order => .order (maskOrderJson f order)
  | .page dataKey rows pagination =>
      .page dataKey (maskRows f rows) pagination
  | body => body

def maskResponse (res : Response) : Response :=
  { res with body := maskBody f res.body }

def maskFound : (q : Query) -> q.Answer -> q.Answer
  | .orderByPk _ _ _, found => found.map (maskGraph f)
  | .orderPage _ _ _ _, found => (found.1, found.2.map (maskGraph f))
  | .customerByPk _ _, found => found.map (maskCustomer f)
  | .customerByEmail _ _, found => found.map (maskCustomer f)
  | .customerPage _ _, found => (found.1, found.2.map (maskCustomer f))
  | .productsById _, found => found
  | .productByPk _ _, found => found
  | .productPage _ _, found => found
  | .products, found => found
  | .undelivered _, found => found
  | .undeliveredCount _, found => found

def maskAnswer : (c : Cmd) -> c.Answer -> c.Answer
  | .query _ q, found => maskFound f q found
  | .redisGet _, found => found.map (maskValue f)
  | .begin, a => a
  | .commit, a => a
  | .rollback, a => a
  | .insert _ _, a => a
  | .update _ _, a => a
  | .addJob _, a => a
  | .redisSet _ _, a => a
  | .redisDel _, a => a
  | .indexDoc _ _, a => a
  | .deleteDoc _, a => a
  | .bulkIndex _, a => a
  | .indexExists, a => a
  | .createIndex, a => a
  | .search _, a => a
  | .bcryptHash _, a => a
  | .bcryptCompare _ _, a => a
  | .isEmail _, a => a

def maskReply (c : Cmd) (r : service.Reply c) : service.Reply c :=
  r.map (maskAnswer f c)

@[simp] theorem maskReply_error (c : Cmd) (e : String) :
    maskReply f c (.error e) = .error e := rfl

@[simp] theorem maskReply_ok (c : Cmd) (a : c.Answer) :
    maskReply f c (.ok a) = .ok (maskAnswer f c a) := rfl

/-!
# Queries
-/

theorem filter_mask (found : Option Customer) (paranoid : Bool) :
    (found.map (maskCustomer f)).filter
        (fun r => !paranoid || r.deletedAt.isNone) =
      (found.filter (fun r => !paranoid || r.deletedAt.isNone)).map
        (maskCustomer f) := by
  cases found with
  | none => rfl
  | some c =>
      rw [Option.map_some, Option.filter_some, Option.filter_some]
      show (if (!paranoid || c.deletedAt.isNone) = true then _ else _) = _
      split <;> rfl

theorem customer?_mask (db : Database) (id : Int) (paranoid : Bool) :
    (maskDb f db).customer? id paranoid =
      (db.customer? id paranoid).map (maskCustomer f) := by
  unfold Database.customer?
  show ((maskCustomers f db.customers).find? id).filter _ = _
  rw [find?_maskCustomers]
  exact filter_mask f _ paranoid

theorem graph_mask (db : Database) (incl : Include) (o : Order) :
    (maskDb f db).graph incl o = maskGraph f (db.graph incl o) := by
  unfold Database.graph maskGraph
  rw [customer?_mask]
  cases incl.customer <;> rfl

theorem joinedRows_mask (db : Database) (incl : Include) (o : Order) :
    (maskDb f db).joinedRows incl o = db.joinedRows incl o := by
  unfold Database.joinedRows
  rw [graph_mask]
  rfl

theorem liveCustomers_mask (db : Database) :
    (maskDb f db).liveCustomers = db.liveCustomers.map (maskCustomer f) := by
  show (db.customers.rows.map (maskCustomer f)).filter _ = _
  rw [List.filter_map]
  rfl

theorem latestFirst_mask (rows : List Customer) :
    latestFirst Customer.createdAt (rows.map (maskCustomer f)) =
      (latestFirst Customer.createdAt rows).map (maskCustomer f) := by
  unfold latestFirst
  refine (List.map_insertionSort _ _ _ _ ?_).symm
  intro a _ b _
  rfl

theorem eval_mask (db : Database) (q : Query) :
    q.eval (maskDb f db) = maskFound f q (q.eval db) := by
  cases q with
  | orderByPk id paranoid incl =>
      show (db.order? id paranoid).map _ = Option.map _ (Option.map _ _)
      rw [Option.map_map]
      congr 1
      funext o
      exact graph_mask f db incl o
  | orderPage filter incl limit offset =>
      have hcount : (maskDb f db).joinedRows incl = db.joinedRows incl :=
        funext (joinedRows_mask f db incl)
      have hgraph : (maskDb f db).graph incl = maskGraph f ∘ db.graph incl :=
        funext (graph_mask f db incl)
      simp only [Query.eval, maskFound, List.map_map, hcount, hgraph]
      rfl
  | customerByPk id paranoid => exact customer?_mask f db id paranoid
  | customerByEmail email paranoid =>
      show (List.find? _ (db.customers.rows.map (maskCustomer f))).filter _ =
        Option.map _ (Option.filter _ _)
      rw [List.find?_map]
      exact filter_mask f _ paranoid
  | customerPage limit offset =>
      simp only [Query.eval, maskFound]
      rw [liveCustomers_mask, latestFirst_mask, slice_map, List.length_map]
  | productsById | productByPk | productPage | products | undelivered
  | undeliveredCount => rfl

/-!
# Writes

A write that carries no password does the same to the disguised rows.
-/

def blindChange : Change -> Bool
  | .customerFields _ patch => patch.password.isNone
  | _ => true

def blindWrite : Write -> Bool
  | .insertCustomer _ => false
  | .update change _ => blindChange change
  | _ => true

theorem alterCustomer_mask (db : Database) (id : Int)
    {g : Customer -> Customer} (hid : forall c, (g c).id = c.id)
    (hcomm : forall c, maskCustomer f (g c) = g (maskCustomer f c)) :
    (maskDb f db).alterCustomer id g hid =
      maskDb f (db.alterCustomer id g hid) := by
  refine Database.ext ?_ rfl rfl rfl
  have hmask : forall c, Keyed.key (maskCustomer f c) = Keyed.key c :=
    fun _ => rfl
  exact (Table.mapRows_modify db.customers hmask hid hcomm id).symm

theorem update_mask {change : Change} (h : blindChange change = true)
    (db : Database) (now : Nat) :
    (maskDb f db).update change now = maskDb f (db.update change now) := by
  cases change with
  | customerFields id patch =>
      apply alterCustomer_mask
      intro c
      have hnone : patch.password = none := Option.isNone_iff_eq_none.mp h
      unfold maskCustomer Customer.patch
      rw [hnone]
      rfl
  | customerDeleted id deleted =>
      apply alterCustomer_mask
      intro c
      rfl
  | itemFields id patch =>
      dsimp only [Database.update]
      by_cases htarget : db.itemTargetExists patch = true
      · rw [dif_pos htarget]
        exact dif_pos htarget
      · rw [dif_neg htarget]
        exact dif_neg htarget
  | orderStatus | orderTotal | orderDeleted | itemDeleted | productStock
  | productFields | productDeleted => rfl

theorem write_mask {x : Write} (h : blindWrite x = true) (db : Database) :
    (maskDb f db).write x = maskDb f (db.write x) := by
  cases x with
  | insertCustomer r => cases h
  | insertProduct r => rfl
  | insertOrder r =>
      show (maskDb f db).insertOrder r = maskDb f (db.insertOrder r)
      unfold Database.insertOrder
      by_cases hknown : (db.customers.find? r.customerId).isSome = true
      · rw [dif_pos hknown, dif_pos (by
          rw [← hknown]
          exact isSome_find?_maskCustomers f _ _)]
        rfl
      · rw [dif_neg hknown, dif_neg (by
          intro hmask
          apply hknown
          rw [← hmask]
          exact (isSome_find?_maskCustomers f _ _).symm)]
  | insertItem r =>
      show (maskDb f db).insertItem r = maskDb f (db.insertItem r)
      unfold Database.insertItem
      by_cases hknown : (db.orders.find? r.orderId).isSome = true ∧
          (db.products.find? r.productId).isSome = true
      · rw [dif_pos hknown]
        exact dif_pos hknown
      · rw [dif_neg hknown]
        exact dif_neg hknown
  | update change now => exact update_mask f h db now

def BlindLog (tx : Tx) : Prop :=
  forall x, x ∈ tx.getD [] -> blindWrite x = true

theorem writeAll_mask {log : List Write}
    (h : forall x, x ∈ log -> blindWrite x = true) (db : Database) :
    (maskDb f db).writeAll log = maskDb f (db.writeAll log) := by
  induction log generalizing db with
  | nil => rfl
  | cons x rest ih =>
      rw [Database.writeAll_cons, Database.writeAll_cons,
        write_mask f (h x List.mem_cons_self)]
      exact ih (fun y hy => h y (List.mem_cons_of_mem _ hy)) _

theorem emailFree_mask (db : Database) (id : Int) (email : String) :
    (maskDb f db).emailFree id email = db.emailFree id email := by
  show (db.customers.rows.map (maskCustomer f)).all _ = _
  rw [List.all_map]
  rfl

theorem acceptsChange_mask (db : Database) (change : Change) :
    (maskDb f db).acceptsChange change = db.acceptsChange change := by
  cases change with
  | customerFields id patch =>
      unfold Database.acceptsChange
      simp only [emailFree_mask]
  | orderStatus | orderTotal | orderDeleted | itemFields | itemDeleted
  | productStock | productFields | productDeleted | customerDeleted => rfl

theorem accepts_mask (db : Database) (x : Write) :
    (maskDb f db).accepts x = db.accepts x := by
  cases x with
  | insertCustomer r =>
      unfold Database.accepts
      simp only [emailFree_mask]
  | insertOrder r =>
      show (((maskCustomers f db.customers).find? _).isSome && _) = _
      rw [isSome_find?_maskCustomers]
      rfl
  | insertProduct | insertItem => rfl
  | update change now => exact acceptsChange_mask f db change

theorem view_mask {w : World} {tx : Tx} (h : BlindLog tx) (inTx : Bool) :
    (maskWorld f w).view tx inTx = maskDb f (w.view tx inTx) := by
  unfold World.view
  cases inTx with
  | false => rfl
  | true => exact writeAll_mask f h w.db

theorem reserve_mask (db : Database) (table : TableName) :
    (maskDb f db).reserve table = maskDb f (db.reserve table) := by
  cases table <;> rfl

theorem nextId_mask (db : Database) (table : TableName) :
    (maskDb f db).nextId table = db.nextId table := by
  cases table <;> rfl

/-!
# Commands
-/

def blind : Cmd -> Bool
  | .insert _ row =>
      match row with
      | .customer _ _ _ => false
      | _ => true
  | .update _ change => blindChange change
  | .redisSet _ _ => false
  | _ => true

theorem get_mask (cache : Cache) (key : String) :
    (maskCache f cache).get key = (cache.get key).map (maskValue f) := by
  induction cache with
  | nil => rfl
  | cons entry rest ih =>
      show Cache.get ((entry.1, maskValue f entry.2) :: maskCache f rest) key
        = _
      rw [Cache.get_cons, Cache.get_cons, ih]
      split <;> rfl

theorem del_mask (cache : Cache) (key : String) :
    (maskCache f cache).del key = maskCache f (cache.del key) := by
  unfold Cache.del maskCache
  rw [List.filter_map]
  rfl

theorem set_mask (cache : Cache) (key : String) (value : CacheValue) :
    (maskCache f cache).set key (maskValue f value) =
      maskCache f (cache.set key value) := by
  unfold Cache.set
  rw [del_mask]
  rfl

theorem record_mask {x : Write} (h : blindWrite x = true) (w : World)
    (tx : Tx) (inTx : Bool) :
    (maskWorld f w).record tx inTx x =
      (maskWorld f (w.record tx inTx x).1, (w.record tx inTx x).2) := by
  cases inTx with
  | true => rfl
  | false =>
      show (({ maskWorld f w with db := (maskDb f w.db).write x } : World), tx)
        = _
      rw [write_mask f h]
      rfl

/-- A command that neither writes a password nor stores a value acts on the
disguised world as on the original one. -/
theorem exec_mask (env : Env) {c : Cmd} (hc : blind c = true) (w : World)
    {tx : Tx} (htx : BlindLog tx) :
    exec env c (maskWorld f w, tx) =
      (maskReply f c (exec env c (w, tx)).1,
        maskWorld f (exec env c (w, tx)).2.1, (exec env c (w, tx)).2.2) := by
  cases c with
  | begin => dsimp only [exec]; split <;> rfl
  | commit =>
      cases tx with
      | none => rfl
      | some log =>
          have hlog : forall x, x ∈ log -> blindWrite x = true := htx
          dsimp only [exec]
          split
          · rfl
          · rw [show (maskWorld f w).db = maskDb f w.db from rfl,
              writeAll_mask f hlog]
            rfl
  | rollback =>
      cases tx with
      | none => rfl
      | some log => dsimp only [exec]; split <;> rfl
  | query inTx q =>
      dsimp only [exec]
      rw [view_mask f htx, eval_mask]
      repeat' split
      all_goals rfl
  | insert inTx row =>
      have hblind : forall id now, blindWrite (row.write id now) = true := by
        intro id now
        cases row with
        | customer name email password => cases hc
        | product | order | item => rfl
      have hreserved : ({ maskWorld f w with
          db := (maskWorld f w).db.reserve row.table } : World) =
          maskWorld f { w with db := w.db.reserve row.table } := by
        show ({ maskWorld f w with
          db := (maskDb f w.db).reserve row.table } : World) = _
        rw [reserve_mask]
        rfl
      have hid : (maskWorld f w).db.nextId row.table =
          w.db.nextId row.table :=
        nextId_mask f w.db row.table
      dsimp only [exec]
      rw [hreserved, hid, view_mask f htx, accepts_mask,
        record_mask f (hblind _ _)]
      repeat' split
      all_goals rfl
  | update inTx change =>
      dsimp only [exec]
      have hblind : forall now, blindWrite (.update change now) = true :=
        fun _ => hc
      rw [view_mask f htx, acceptsChange_mask, record_mask f (hblind _)]
      repeat' split
      all_goals rfl
  | redisGet key =>
      dsimp only [exec]
      rw [show (maskWorld f w).cache = maskCache f w.cache from rfl, get_mask]
      split <;> rfl
  | redisSet key value => cases hc
  | redisDel key =>
      dsimp only [exec]
      rw [show (maskWorld f w).cache = maskCache f w.cache from rfl, del_mask]
      split <;> rfl
  | addJob | indexDoc | deleteDoc | bulkIndex | indexExists | search
  | bcryptHash | bcryptCompare => dsimp only [exec]; split <;> rfl
  | createIndex =>
      dsimp only [exec]
      rw [show (maskWorld f w).index = w.index from rfl]
      split
      · rfl
      · split <;> rfl
  | isEmail => rfl

theorem exec_redisSet_mask (env : Env) (key : String) (value : CacheValue)
    (w : World) (tx : Tx) :
    exec env (.redisSet key (maskValue f value)) (maskWorld f w, tx) =
      ((exec env (.redisSet key value) (w, tx)).1,
        maskWorld f (exec env (.redisSet key value) (w, tx)).2.1,
        (exec env (.redisSet key value) (w, tx)).2.2) := by
  dsimp only [exec]
  rw [show (maskWorld f w).cache = maskCache f w.cache from rfl, set_mask]
  split <;> rfl

theorem blindLog_exec (env : Env) {c : Cmd} (hc : blind c = true) (w : World)
    {tx : Tx} (htx : BlindLog tx) : BlindLog (exec env c (w, tx)).2.2 := by
  have hnext : Next AnyEnv (w, tx) c (exec env c (w, tx)).1
      ((exec env c (w, tx)).2.1, (exec env c (w, tx)).2.2) :=
    ⟨env, trivial, rfl⟩
  have hsnoc : forall x, blindWrite x = true ->
      BlindLog (tx.map (fun log => log ++ [x])) := by
    intro x hx y hy
    cases tx with
    | none => cases hy
    | some log =>
        rcases List.mem_append.mp hy with hold | hnew
        · exact htx y hold
        · rw [List.mem_singleton.mp hnew]
          exact hx
  generalize (exec env c (w, tx)).2.2 = tx' at hnext ⊢
  cases txStep_of_next hnext with
  | same => exact htx
  | opened => exact fun _ hx => nomatch hx
  | closed => exact fun _ hx => nomatch hx
  | inserted row id now =>
      apply hsnoc
      cases row with
      | customer name email password => cases hc
      | product | order | item => rfl
  | updated u now => exact hsnoc _ hc

/-!
# Disguised programs

Two programs are in lockstep if the second one acts on the disguised world as
the first one does on the original.
-/

/-- A blind command is paired with itself, under any relation that its replies
have with the disguised replies. -/
inductive Paired : service.Pairing where
  | same (c : Cmd) (rel : service.Reply c -> service.Reply c -> Prop)
      (hblind : blind c = true)
      (hrel : forall env s,
        rel (exec env c s).1 (maskReply f c (exec env c s).1)) :
      Paired c c rel
  | stored (key : String) (value : CacheValue) :
      Paired (.redisSet key value) (.redisSet key (maskValue f value)) Eq

def Disguised (s t : World × Tx) : Prop :=
  t = (maskWorld f s.1, s.2) ∧ BlindLog s.2

theorem disguised_exec (env : Env) {s t : World × Tx} {c c' : Cmd}
    {rel : service.Reply c -> service.Reply c' -> Prop}
    (hst : Disguised f s t) (h : Paired f c c' rel) :
    rel (exec env c s).1 (exec env c' t).1 ∧
      Disguised f (exec env c s).2 (exec env c' t).2 := by
  rcases s with ⟨w, tx⟩
  rcases hst with ⟨ht, htx⟩
  subst ht
  cases h with
  | same c rel hblind hrel =>
      rw [exec_mask f env hblind w htx]
      exact ⟨hrel env _, rfl, blindLog_exec env hblind w htx⟩
  | stored key value =>
      rw [exec_redisSet_mask]
      refine ⟨rfl, rfl, ?_⟩
      dsimp only [exec]
      split <;> exact htx

end Secrecy
end ExpressEcommerce
