import ExpressEcommerce.Runs.Sequential
import ExpressEcommerce.Service.Conduct
import ExpressEcommerce.Store.Frames

/-!
# What a task may write

The footprint of a task in a store is the list of existing rows that it may
write when it runs alone.  All other rows are found after it as they were
before, and nobody adds an item to an order that exists.
-/

namespace ExpressEcommerce
namespace Runs

open Foundation
open Store
open Service
open Orders
open Products
open Foundation.Action

/-- The check of the first loop of `createOrder`, line by line. -/
def inStock (products : List Product) (line : ItemRequest) : Bool :=
  (findProduct products line.productId).any
    (fun product => decide (line.quantity <= product.stock))

theorem inStock_of_passes {products : List Product} {line : ItemRequest}
    (h : Passes products line) : inStock products line = true := by
  rcases h with ⟨product, hfound, hle⟩
  unfold inStock
  rw [hfound]
  exact decide_eq_true hle

def placeRows (db : Database) (token : Token) (items : List ItemRequest) :
    List (TableName × Int) :=
  if (tokenCustomer? db.customers token).isSome &&
      items.all (inStock (readRows db items)) then
    items.map (fun line => (.products, line.productId))
  else []

def paramRows (table : TableName) (id : String) : List (TableName × Int) :=
  (pgInteger? id).toList.map (fun n => (table, n))

def planRows (db : Database) (t : OrderTask) : List (TableName × Int) :=
  (t.plan db).map Change.row

def footprint (db : Database) : Task -> List (TableName × Int)
  | .request (.createOrder token items) => placeRows db token items
  | .request (.updateOrder token id status) =>
      planRows db (.update token id status)
  | .request (.patchOrderStatus token id status) =>
      planRows db (.patch token id status)
  | .request (.softDeleteOrder token id) => planRows db (.softDelete token id)
  | .request (.restoreOrder token id) => planRows db (.restore token id)
  | .request (.updateProduct id _) => paramRows .products id
  | .request (.patchProduct id _) => paramRows .products id
  | .request (.softDeleteProduct id) => paramRows .products id
  | .request (.restoreProduct id) => paramRows .products id
  | .request (.updateCustomer _ id _) => paramRows .customers id
  | .request (.patchCustomer _ id _) => paramRows .customers id
  | .request (.restoreCustomer _ id) => paramRows .customers id
  | .statusJob job => planRows db (.statusJob job)
  | .cancelJob orderId => planRows db (.cancelJob orderId)
  | _ => []

theorem mem_paramRows {table : TableName} {id : String} {n : Int}
    (h : pgInteger? id = some n) : (table, n) ∈ paramRows table id := by
  unfold paramRows
  rw [h]
  exact List.mem_singleton.mpr rfl

theorem footprint_order (db : Database) (t : OrderTask) :
    footprint db t.task = planRows db t := by
  cases t <;> rfl

/-!
# Confined changes
-/

structure Confined (rows : List (TableName × Int)) (db db' : Database) :
    Prop where
  same : forall row, Found db row -> row ∉ rows -> SameRow db db' row
  items : forall id, Found db (.orders, id) ->
    db'.itemsOf id true = db.itemsOf id true
  kept : forall id, Found db (.orders, id) -> Found db' (.orders, id)

theorem Confined.refl (rows : List (TableName × Int)) (db : Database) :
    Confined rows db db :=
  ⟨fun _ _ _ => SameRow.refl _ _, fun _ _ => rfl, fun _ h => h⟩

theorem Confined.trans {rows : List (TableName × Int)}
    {db mid db' : Database} (h1 : Confined rows db mid)
    (h2 : Confined rows mid db') : Confined rows db db' := by
  refine ⟨fun row hfound hrow => ?_, fun id hfound => ?_, fun id hfound => ?_⟩
  · have hsame := h1.same row hfound hrow
    exact hsame.trans (h2.same row (hfound.same hsame) hrow)
  · rw [h2.items id (h1.kept id hfound), h1.items id hfound]
  · exact h2.kept id (h1.kept id hfound)

theorem confined_of_rows {rows : List (TableName × Int)} {db db' : Database}
    (h : SameRows db db') : Confined rows db db' := by
  have hsame : forall row, SameRow db db' row := by
    rintro ⟨name, id⟩
    cases name with
    | customers => exact congrArg (List.find? _) h.customers
    | products => exact congrArg (List.find? _) h.products
    | orders => exact congrArg (List.find? _) h.orders
    | items => exact congrArg (List.find? _) h.items
  refine ⟨fun row _ _ => hsame row, fun id _ => ?_,
    fun id hfound => hfound.same (hsame _)⟩
  unfold Database.itemsOf
  rw [h.items]

theorem confined_update {rows : List (TableName × Int)} (db : Database)
    (u : Change) (now : Nat) (hrow : u.row ∈ rows)
    (hitem : u.row.1 ≠ .items) : Confined rows db (db.update u now) := by
  have hitems : (db.update u now).items = db.items := by
    cases u with
    | itemFields | itemDeleted => exact absurd rfl hitem
    | _ => rfl
  refine ⟨fun row _ hother => Database.sameRow_update db u now ?_,
    fun id _ => ?_, fun id hfound => ?_⟩
  · rintro rfl
    exact hother hrow
  · unfold Database.itemsOf
    rw [hitems]
  · rcases hfound with ⟨o, ho⟩
    rcases ownersKept_update db u now id o ho with ⟨o', ho', _⟩
    exact ⟨o', ho'⟩

/-!
# Orders
-/

theorem row_of_isPlanned {u : Change} (h : isPlanned u = true) :
    u.row.1 ≠ .items := by
  intro hitem
  cases u <;> cases h <;> cases hitem

theorem confined_performs {rows : List (TableName × Int)} {db db' : Database}
    {us : List Change} (h : Performs db us db')
    (hrows : forall u, u ∈ us -> u.row ∈ rows)
    (hplanned : forall u, u ∈ us -> isPlanned u = true) :
    Confined rows db db' := by
  induction h with
  | nil db => exact Confined.refl _ _
  | cons now _ _ ih =>
      refine (confined_update _ _ now (hrows _ List.mem_cons_self)
        (row_of_isPlanned (hplanned _ List.mem_cons_self))).trans ?_
      exact ih (fun u hu => hrows u (List.mem_cons_of_mem _ hu))
        (fun u hu => hplanned u (List.mem_cons_of_mem _ hu))

theorem confined_order {ok : Env -> Prop} {t : OrderTask} {w w' : World}
    {out : Outcome} (h : Executes ok w t.task out w') :
    Confined (planRows w.db t) w.db w'.db := by
  rcases executes_effect h with ⟨performed, todo, heffect⟩
  have hplan : forall u, u ∈ performed -> u ∈ t.plan w.db := by
    intro u hu
    rw [heffect.plan]
    exact List.mem_append_left _ hu
  exact confined_performs heffect.performs
    (fun u hu => List.mem_map_of_mem (hplan u hu))
    (fun u hu => isPlanned_plan t w.db u (hplan u hu))

theorem confined_grows {rows : List (TableName × Int)} {db db' : Database}
    (h : Grows db db') : Confined rows db db' :=
  confined_of_rows ⟨by rw [h.customers], by rw [h.products], h.orders, h.items⟩

theorem confined_placed {rows : List (TableName × Int)} {db db' : Database}
    {d : Draft} {now : Nat} (h : Placed db db' d now)
    (hrows : forall i, i ∈ d.items -> (.products, i.productId) ∈ rows) :
    Confined rows db db' := by
  have hne : forall {id : Int}, Found db (.orders, id) -> id ≠ d.order.id := by
    rintro id ⟨o, ho⟩ rfl
    rw [h.free] at ho
    cases ho
  have horder : forall {id : Int}, Found db (.orders, id) ->
      db'.orders.find? id = db.orders.find? id := by
    intro id hfound
    rw [h.order, if_neg (hne hfound)]
  refine ⟨fun row hfound hrow => ?_, fun id hfound => ?_,
    fun id hfound => hfound.same (horder hfound)⟩
  · rcases row with ⟨name, id⟩
    cases name with
    | customers =>
        show db'.customers.find? id = db.customers.find? id
        rw [h.customers]
    | products =>
        refine h.others id (fun hmem => hrow ?_)
        rcases List.mem_map.mp hmem with ⟨i, hi, rfl⟩
        exact hrows i hi
    | orders => exact horder hfound
    | items =>
        rcases hfound with ⟨i, hi⟩
        have hold : List.find? (fun r : OrderItem => decide (Keyed.key r = id))
          db.items.rows = some i := hi
        show List.find? _ db'.items.rows = List.find? _ db.items.rows
        rw [h.items, List.find?_append, hold]
        rfl
  · -- the new items belong to the new order
    unfold Database.itemsOf
    rw [h.items, List.filter_append]
    have hnil : d.items.filter (fun i => decide (i.orderId = id) &&
        (!true || i.deletedAt.isNone)) = [] := by
      rw [List.filter_eq_nil_iff]
      intro i hi
      rw [h.owner i hi, decide_eq_false (hne hfound).symm]
      simp
    rw [hnil, List.append_nil]

theorem mem_placeRows {db : Database} {token : Token}
    {items : List ItemRequest} {d : Draft} (hcomplete : d.Complete)
    (hsound : d.Sound ⟨db.customers, token, items⟩
      (fun rows => rows = readRows db items))
    {i : OrderItem} (hi : i ∈ d.items) :
    (TableName.products, i.productId) ∈ placeRows db token items := by
  rcases hsound.owner with ⟨c, hc, _⟩
  have hc : tokenCustomer? db.customers token = some c := hc
  have hall : items.all (inStock (readRows db items)) = true := by
    rw [List.all_eq_true]
    intro line hline
    rw [← hsound.seen]
    exact inStock_of_passes (hsound.passes line hline)
  rcases hsound.lines with ⟨before, hbefore, hmatches⟩
  rw [hcomplete.todo, List.append_nil] at hbefore
  rcases exists_left_of_mem hmatches hi with ⟨line, hline, hmatch⟩
  unfold placeRows
  rw [hc, hall, hmatch.left]
  have hbefore : items = before := hbefore
  rw [hbefore]
  exact List.mem_map_of_mem hline

theorem confined_createOrder {ok : Env -> Prop} {token : Token}
    {items : List ItemRequest} {w w' : World} {out : Outcome}
    (h : Executes ok w (.request (.createOrder token items)) out w') :
    Confined (placeRows w.db token items) w.db w'.db := by
  rcases executes_createOrder h with ⟨stage, _, hstored, _, _, hsound⟩
  cases stage with
  | committed d now =>
      rcases hstored with ⟨mid, hgrows, hplaced⟩
      rcases hsound d now rfl with ⟨hcomplete, hsound⟩
      exact (confined_grows hgrows).trans
        (confined_placed hplaced (fun i hi => mem_placeRows hcomplete hsound hi))
  | _ => exact confined_grows hstored

/-!
# Products
-/

def ProductTask.rows : ProductTask -> List (TableName × Int)
  | .create _ => []
  | .update id _ => paramRows .products id
  | .patch id _ => paramRows .products id
  | .softDelete id => paramRows .products id
  | .restore id => paramRows .products id

theorem row_of_mayChange {t : ProductTask} {u : Change} (h : t.MayChange u) :
    u.row ∈ ProductTask.rows t ∧ u.row.1 ≠ .items := by
  cases t with
  | create body => cases h
  | update id body | patch id body =>
      rcases h with ⟨p, patch, rfl, hid, _⟩
      exact ⟨mem_paramRows hid, fun hitem => by cases hitem⟩
  | softDelete id | restore id =>
      rcases h with ⟨p, deleted, rfl, hid⟩
      exact ⟨mem_paramRows hid, fun hitem => by cases hitem⟩

theorem confined_new {rows : List (TableName × Int)} (db : Database)
    (row : NewRow) (now : Nat)
    (hrow : row.table = .customers ∨ row.table = .products) :
    Confined rows db ((db.reserve row.table).write
      (row.write (db.nextId row.table) now)) := by
  refine ⟨fun old hfound _ => ?_, fun id _ => ?_, fun id hfound => ?_⟩
  · refine (sameRow_reserve db row.table old).trans
      (Database.sameRow_write _ _ ?_)
    rintro rfl
    exact not_found_new hfound
  · cases row with
    | customer | product => rfl
    | order | item => rcases hrow with hrow | hrow <;> cases hrow
  · cases row with
    | customer | product => exact hfound
    | order | item => rcases hrow with hrow | hrow <;> cases hrow

theorem confined_product {ok : Env -> Prop} {t : ProductTask} {w w' : World}
    {out : Outcome} (h : Executes ok w t.task out w') :
    Confined (ProductTask.rows t) w.db w'.db := by
  rcases executes_edited h with ⟨edit, hedited⟩
  cases edit with
  | nothing => exact confined_of_rows hedited
  | inserted row =>
      rcases hedited with ⟨hmay, mid, now, hrows, hdb⟩
      rw [hdb]
      refine (confined_of_rows hrows).trans (confined_new mid row now ?_)
      cases t with
      | create body =>
          rcases hmay with ⟨name, description, price, stock, rfl, _⟩
          exact Or.inr rfl
      | _ => cases hmay
  | changed u =>
      rcases hedited with ⟨hmay, mid, now, hrows, hdb⟩
      rw [hdb]
      rcases row_of_mayChange hmay with ⟨hrow, hitem⟩
      exact (confined_of_rows hrows).trans (confined_update mid u now hrow hitem)

/-!
# Customers, and requests that write nothing
-/

/-- Outside of transactions, nothing but new customers and statements on the
customers of the footprint. -/
def touching (rows : List (TableName × Int)) : Protocol service Unit where
  may := fun _ c =>
    match c with
    | .query inTx _ => inTx = false
    | .insert inTx row => inTx = false ∧ row.table = .customers
    | .update inTx u => inTx = false ∧ u.row ∈ rows ∧ u.row.1 = .customers
    | c => Cmd.aside c = true
  next := fun _ c r _ =>
    match c, r with
    | .query _ (.customerByPk id _), .ok found =>
        forall c, found = some c -> c.id = id
    | _, _ => True

abbrev Touches (rows : List (TableName × Int)) (x : Act alpha) : Prop :=
  Keeps (touching rows) (fun _ => True) x

section Touching

variable {rows : List (TableName × Int)}

theorem touches_perform {c : Cmd} (hmay : (touching rows).may () c) :
    Touches rows (perform (I := service) c) :=
  fun _ _ => wp_command hmay (fun _ _ _ => trivial) (fun _ _ _ => trivial)

theorem calm_touching : Calm (touching rows) (fun _ => True) := by
  intro c hc
  refine touches_perform ?_
  cases c with
  | query inTx q => exact (Bool.not_eq_true' _).mp hc
  | search | bcryptHash | bcryptCompare | isEmail => rfl
  | _ => cases hc

theorem touches_param {text : String} {f : Int -> Act alpha}
    (h : forall id, pgInteger? text = some id -> Touches rows (f id)) :
    Touches rows (integerParam text >>= f) :=
  fun _ _ => wp_integerParam (fun _ _ => trivial)
    (fun id hid => h id hid _ trivial)

theorem touches_customer {id : Int} {paranoid : Bool}
    {f : Option Customer -> Act alpha} (hnone : Touches rows (f none))
    (hsome : forall c : Customer, c.id = id -> Touches rows (f (some c))) :
    Touches rows (query false (.customerByPk id paranoid) >>= f) := by
  intro s _
  rw [wp_bind]
  refine wp_command rfl ?_ (fun _ _ _ => trivial)
  rintro found s' hid
  cases found with
  | none => exact hnone s' trivial
  | some c => exact hsome c (hid c rfl) s' trivial

theorem touches_saveCustomer (message : String) (customerId : Int)
    (idParam : String) (body : CustomerBody) :
    Touches (paramRows .customers idParam)
      (saveCustomer message customerId idParam body) := by
  refine keeps_ownData (keeps_tryCatch ?_ (fun _ => keeps_respond _ _)) _ _
  refine touches_param (fun id hid => ?_)
  refine touches_customer (keeps_respond _ _) (fun c hc => ?_)
  refine keeps_bind ?_ (fun _ => keeps_respond _ _)
  rw [← hc] at hid
  unfold Customer.update
  split
  · exact keeps_pure _
  · refine keeps_bind (keeps_beforeUpdate calm_touching _) (fun patch => ?_)
    exact keeps_bind (touches_perform ⟨rfl, mem_paramRows hid, rfl⟩)
      (fun _ => keeps_pure _)

theorem touches_restoreCustomer (customerId : Int) (idParam : String) :
    Touches (paramRows .customers idParam)
      (restoreCustomer customerId idParam) := by
  unfold restoreCustomer
  split
  · exact keeps_respond _ _
  · refine keeps_tryCatch ?_ (fun _ => keeps_respond _ _)
    refine touches_param (fun id hid => ?_)
    refine touches_customer (keeps_respond _ _) (fun c hc => ?_)
    refine keeps_bind ?_ (fun _ => keeps_respond _ _)
    rw [← hc] at hid
    unfold Customer.restore
    split
    · exact keeps_bind (touches_perform ⟨rfl, mem_paramRows hid, rfl⟩)
        (fun _ => keeps_pure _)
    · exact keeps_pure _

theorem touches_registerCustomer (body : CustomerBody) :
    Touches rows (registerCustomer body) :=
  keeps_registerCustomer calm_touching
    (fun _ _ _ => touches_perform ⟨rfl, rfl⟩) body

theorem touches_getOrderById (customerId : Int) (orderId : String) :
    Touches rows (getOrderById customerId orderId) := by
  refine keeps_tryCatch (keeps_bind (touches_perform rfl) (fun cached => ?_))
    (fun _ => keeps_respond _ _)
  rcases cached with _ | ⟨value | value⟩
  · refine keeps_bind (keeps_integerParam _) (fun id => ?_)
    refine keeps_bind (keeps_query calm_touching _) (fun found => ?_)
    cases found with
    | none => exact keeps_respond _ _
    | some graph =>
        dsimp only
        split
        · exact keeps_respond _ _
        · exact keeps_bind (touches_perform rfl) (fun _ => keeps_respond _ _)
  · dsimp only
    split <;> exact keeps_respond _ _
  · exact keeps_respond _ _

theorem touches_getProductById (idParam : String) :
    Touches rows (getProductById idParam) := by
  refine keeps_tryCatch (keeps_bind (touches_perform rfl) (fun cached => ?_))
    (fun _ => keeps_respond _ _)
  rcases cached with _ | ⟨value | value⟩
  · refine keeps_bind (keeps_integerParam _) (fun id => ?_)
    refine keeps_bind (keeps_query calm_touching _) (fun found => ?_)
    cases found with
    | none => exact keeps_respond _ _
    | some row =>
        exact keeps_bind (touches_perform rfl) (fun _ => keeps_respond _ _)
  · exact keeps_respond _ _
  · exact keeps_respond _ _

structure Untouched (rows : List (TableName × Int)) (db db' : Database) :
    Prop where
  confined : Confined rows db db'
  products : db'.products = db.products

theorem untouched_touching {ok : Env -> Prop} {start : Database}
    {s s' : World × Tx} {c : Cmd} {r : service.Reply c}
    (h : Untouched rows start s.1.db) (hmay : (touching rows).may () c)
    (hnext : Next ok s c r s') :
    exists u, (touching rows).next () c r u ∧
      Untouched rows start s'.1.db := by
  rcases s with ⟨w, tx⟩
  cases c with
  | query inTx q =>
      rcases next_query hnext with ⟨rfl, rfl | ⟨⟨e, rfl⟩, _⟩⟩
      · refine ⟨(), ?_, h⟩
        cases q with
        | customerByPk id paranoid =>
            exact fun c hc => Database.customer?_key hc
        | _ => trivial
      · exact ⟨(), by cases q <;> trivial, h⟩
  | insert inTx row =>
      rcases hmay with ⟨rfl, hrow⟩
      refine ⟨(), by cases r <;> trivial, ?_⟩
      rcases next_insert hnext with ⟨now, _, _, rfl⟩ | ⟨_, rfl | rfl⟩
      · refine ⟨h.confined.trans (confined_new w.db row now (Or.inl hrow)), ?_⟩
        cases row with
        | customer name email password => exact h.products
        | product | order | item => cases hrow
      · exact h
      · refine ⟨h.confined.trans (confined_of_rows (sameRows_reserve _ _)), ?_⟩
        rw [hrow]
        exact h.products
  | update inTx u =>
      rcases hmay with ⟨rfl, hrow, htable⟩
      refine ⟨(), by cases r <;> trivial, ?_⟩
      rcases next_update hnext with ⟨now, _, _, rfl⟩ | ⟨_, rfl, _⟩
      · refine ⟨h.confined.trans (confined_update w.db u now hrow ?_), ?_⟩
        · rw [htable]
          exact fun hitem => by cases hitem
        · cases u with
          | customerFields | customerDeleted => exact h.products
          | _ => cases htable
      · exact h
  | _ =>
      refine ⟨(), by cases r <;> trivial, ?_⟩
      rw [(next_aside hmay hnext).left]
      exact h

theorem untouched_of_touches {ok : Env -> Prop} {x : Act Response}
    {done : Response -> Outcome} {failed : String -> Outcome}
    {w w' : World} {tx tx' : Tx} {out : Outcome} (hx : Touches rows x)
    (h : Prog.Runs (Next ok) (settle x done failed) (w, tx) out (w', tx')) :
    Untouched rows w.db w'.db := by
  have hwp : (settle x done failed).wp (touching rows) (fun _ _ => True) () :=
    wp_settle.mpr (hx () trivial)
  rcases Prog.wp_sound
    (J := fun (s : World × Tx) (_ : Unit) => Untouched rows w.db s.1.db)
    (fun hJ hmay hnext => untouched_touching hJ hmay hnext) hwp
    ⟨Confined.refl rows w.db, rfl⟩ h with ⟨_, huntouched, _⟩
  exact huntouched

end Touching

/-!
# Every task
-/

def deals : Request -> Bool
  | .createOrder _ _ => true
  | .updateOrder _ _ _ => true
  | .patchOrderStatus _ _ _ => true
  | .softDeleteOrder _ _ => true
  | .restoreOrder _ _ => true
  | .createProduct _ => true
  | .updateProduct _ _ => true
  | .patchProduct _ _ => true
  | .softDeleteProduct _ => true
  | .restoreProduct _ => true
  | _ => false

theorem touches_handle (db : Database) {req : Request}
    (h : deals req = false) :
    Touches (footprint db (.request req)) (handle req) := by
  by_cases hlooks : looks req = true
  · exact keeps_handle_looks calm_touching hlooks
  · cases req with
    | getOrderById token id =>
        exact keeps_authenticated calm_touching
          (fun _ => touches_getOrderById _ _) _ _ _ _
    | getProductById id =>
        exact keeps_validateRequest (touches_getProductById _) _
    | updateCustomer token id body =>
        refine keeps_bind (keeps_emailVerdict calm_touching _)
          (fun _ => keeps_validateRequest ?_ _)
        exact keeps_authenticated calm_touching
          (fun _ => touches_saveCustomer _ _ _ _) _ _ _ _
    | patchCustomer token id body =>
        refine keeps_bind (keeps_emailVerdict calm_touching _)
          (fun _ => keeps_validateRequest ?_ _)
        exact keeps_authenticated calm_touching
          (fun _ => touches_saveCustomer _ _ _ _) _ _ _ _
    | restoreCustomer token id =>
        exact keeps_validateRequest (keeps_authenticated calm_touching
          (fun _ => touches_restoreCustomer _ _) _ _ _ _) _
    | registerCustomer body => exact touches_registerCustomer _
    | createOrder | updateOrder | patchOrderStatus | softDeleteOrder
    | restoreOrder | createProduct | updateProduct | patchProduct
    | softDeleteProduct | restoreProduct => cases h
    | _ => exact absurd rfl hlooks

theorem executes_untouched {ok : Env -> Prop} {req : Request} {w w' : World}
    {out : Outcome} (hreq : deals req = false)
    (h : Executes ok w (.request req) out w') :
    Untouched (footprint w.db (.request req)) w.db w'.db := by
  rcases h with ⟨tx, hrun⟩
  exact untouched_of_touches (touches_handle w.db hreq) hrun

/-- A task that runs alone writes no existing row outside of its footprint. -/
theorem executes_confined {ok : Env -> Prop} {t : Task} {w w' : World}
    {out : Outcome} (h : Executes ok w t out w') :
    Confined (footprint w.db t) w.db w'.db := by
  cases t with
  | statusJob job => exact confined_order (t := .statusJob job) h
  | cancelJob orderId => exact confined_order (t := .cancelJob orderId) h
  | request req =>
      cases hdeals : deals req with
      | false => exact (executes_untouched hdeals h).confined
      | true =>
          cases req with
          | createOrder token items => exact confined_createOrder h
          | updateOrder token id status =>
              exact confined_order (t := .update token id status) h
          | patchOrderStatus token id status =>
              exact confined_order (t := .patch token id status) h
          | softDeleteOrder token id =>
              exact confined_order (t := .softDelete token id) h
          | restoreOrder token id =>
              exact confined_order (t := .restore token id) h
          | createProduct body => exact confined_product (t := .create body) h
          | updateProduct id body =>
              exact confined_product (t := .update id body) h
          | patchProduct id body =>
              exact confined_product (t := .patch id body) h
          | softDeleteProduct id =>
              exact confined_product (t := .softDelete id) h
          | restoreProduct id => exact confined_product (t := .restore id) h
          | _ => cases hdeals

/-!
# Runs of tasks
-/

/-- One step of a run; `Allowed` restricts what may be executed in a world. -/
def TaskStep (ok : Cmd -> Env -> Prop) (Allowed : World -> Task -> Prop)
    (w w' : World) : Prop :=
  exists t out, Allowed w t ∧ ExecutesIn ok w t out w'

def TaskRun (ok : Cmd -> Env -> Prop) (Allowed : World -> Task -> Prop) :
    World -> World -> Prop :=
  Relation.ReflTransGen (TaskStep ok Allowed)

theorem taskRun_invariant {ok : Cmd -> Env -> Prop}
    {Allowed : World -> Task -> Prop} {J : World -> Prop}
    (hstep : forall {w w' : World} {t : Task} {out : Outcome}, J w ->
      Allowed w t -> ExecutesIn ok w t out w' -> J w')
    {start w : World} (hstart : J start) (hrun : TaskRun ok Allowed start w) :
    J w := by
  refine invariant_of_steps ?_ hstart hrun
  rintro w w' hJ ⟨t, out, hallowed, hexec⟩
  exact hstep hJ hallowed hexec

/-- The world after a task that nothing disturbs. -/
def afterTask (w : World) (t : Task) : World :=
  (t.perform w).2

theorem taskStep_after {ok : Cmd -> Env -> Prop} (hok : forall c, ok c {})
    {Allowed : World -> Task -> Prop} {w : World} {t : Task}
    (h : Allowed w t) : TaskStep ok Allowed w (afterTask w t) :=
  ⟨t, _, h, executesIn_perform hok t w⟩

end Runs
end ExpressEcommerce
