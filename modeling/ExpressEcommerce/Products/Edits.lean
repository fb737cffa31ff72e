import ExpressEcommerce.Orders.Moves

/-!
# Product requests

A product request writes at most one row: a new product, the submitted fields
of one product, or its paranoid column.  The protocol records that write; the
orders and their items are never touched.
-/

namespace ExpressEcommerce
namespace Products

open Foundation
open Store
open Service
open Orders

inductive ProductTask where
  | create (body : ProductBody)
  | update (id : String) (body : ProductBody)
  | patch (id : String) (body : ProductBody)
  | softDelete (id : String)
  | restore (id : String)
  deriving DecidableEq, Repr

def ProductTask.task : ProductTask -> Task
  | create body => .request (.createProduct body)
  | update id body => .request (.updateProduct id body)
  | patch id body => .request (.patchProduct id body)
  | softDelete id => .request (.softDeleteProduct id)
  | restore id => .request (.restoreProduct id)

def bodyStock? (body : ProductBody) : Option Int :=
  body.stock.bind Scalar.integer?

def SavesFields (id : String) (body : ProductBody) (u : Change) : Prop :=
  exists p patch, u = .productFields p patch ∧ pgInteger? id = some p ∧
    forall n, patch.stock = some n -> bodyStock? body = some n ∧ 0 <= n

def MarksDeleted (id : String) (u : Change) : Prop :=
  exists p deleted, u = .productDeleted p deleted ∧ pgInteger? id = some p

def ProductTask.MayInsert : ProductTask -> NewRow -> Prop
  | create body, row => exists name description price stock,
      row = .product name description price stock ∧
        bodyStock? body = some stock ∧ 0 <= stock
  | _, _ => False

def ProductTask.MayChange : ProductTask -> Change -> Prop
  | create _, _ => False
  | update id body, u => SavesFields id body u
  | patch id body, u => SavesFields id body u
  | softDelete id, u => MarksDeleted id u
  | restore id, u => MarksDeleted id u

/-!
# The protocol
-/

inductive Edit where
  | nothing
  | inserted (row : NewRow)
  | changed (u : Change)

def Edit.may (t : ProductTask) : Edit -> Cmd -> Prop
  | _, .query inTx _ => inTx = false
  | nothing, .insert inTx row => inTx = false ∧ t.MayInsert row
  | nothing, .update inTx u => inTx = false ∧ t.MayChange u
  | _, c => Cmd.aside c = true

def Edit.next (edit : Edit) : (c : Cmd) -> service.Reply c -> Edit -> Prop
  | .query _ (.productByPk id _), .ok found, edit' =>
      edit' = edit ∧ forall p, found = some p -> p.id = id
  | .insert _ row, .ok _, edit' => edit' = inserted row
  | .update _ u, .ok _, edit' => edit' = changed u
  | _, _, edit' => edit' = edit

def editing (t : ProductTask) : Protocol service Edit where
  may := Edit.may t
  next := Edit.next

section Rules

variable {t : ProductTask} {E : String -> Edit -> Prop} {edit : Edit}

theorem edit_aside {c : Cmd} {Q : c.Answer -> Edit -> Prop}
    (hc : Cmd.aside c = true) (hok : forall a, Q a edit)
    (herr : forall e, E e edit) :
    Action.wp (editing t) (Action.perform (I := service) c) Q E edit := by
  refine Action.wp_command ?_ ?_ ?_
  · cases c <;> cases hc <;> cases edit <;> rfl
  · intro a edit' hnext
    cases c <;> cases hc <;> cases hnext <;> exact hok a
  · intro e edit' hnext
    cases c <;> cases hc <;> cases hnext <;> exact herr e

theorem edit_invalidate {Q : Unit -> Edit -> Prop} {id : Int}
    (hok : Q () edit) :
    Action.wp (editing t) (invalidateProductCache id) Q E edit := by
  refine (Action.wp_tryCatch _ _ _).mpr ?_
  exact edit_aside rfl (fun _ => hok) (fun _ => hok)

theorem edit_find {Q : Option Product -> Edit -> Prop} {id : Int}
    {paranoid : Bool} (hnone : Q none edit)
    (hsome : forall p : Product, p.id = id -> Q (some p) edit)
    (herr : forall e, E e edit) :
    Action.wp (editing t) (query false (.productByPk id paranoid)) Q E
      edit := by
  refine Action.wp_command ?_ ?_ ?_
  · cases edit <;> rfl
  · rintro found _ ⟨rfl, hid⟩
    cases found with
    | none => exact hnone
    | some p => exact hsome p (hid p rfl)
  · rintro e _ rfl
    exact herr e

theorem edit_change {Q : Nat -> Edit -> Prop} {u : Change}
    (hmay : t.MayChange u) (hok : forall now, Q now (.changed u))
    (herr : forall e, E e .nothing) :
    Action.wp (editing t) (Service.update false u) Q E .nothing := by
  refine Action.wp_command ⟨rfl, hmay⟩ ?_ ?_
  · rintro now _ rfl
    exact hok now
  · rintro e _ rfl
    exact herr e

theorem stock_of_changed {product : Product} {body : ProductBody}
    {patch : ProductPatch} (h : Product.changed product body = some patch)
    {n : Int} (hn : patch.stock = some n) : bodyStock? body = some n := by
  unfold Product.changed at h
  rcases Option.bind_eq_some_iff.mp h with ⟨price, _, h⟩
  rcases Option.bind_eq_some_iff.mp h with ⟨stock, hstock, h⟩
  cases h
  have hn : stock = some n := hn
  unfold bodyStock?
  cases hbody : body.stock with
  | none =>
      rw [hbody] at hstock
      cases hstock
      cases hn
  | some v =>
      rw [hbody] at hstock
      dsimp only [Product.changedStock] at hstock
      split at hstock
      · cases hstock
        cases hn
      · rcases Option.map_eq_some_iff.mp hstock with ⟨m, hm, rfl⟩
        cases hn
        exact hm

/-!
# The handlers
-/

theorem edit_update {Q : ProductInstance -> Edit -> Prop} {product : Product}
    {body : ProductBody} {id : String}
    (hid : pgInteger? id = some product.id)
    (hmay : forall u, SavesFields id body u -> t.MayChange u)
    (hok : forall p edit, Q p edit) (herr : forall e edit, E e edit) :
    Action.wp (editing t) (Product.update product body) Q E .nothing := by
  unfold Product.update
  cases hchanged : Product.changed product body with
  | none => exact herr _ _
  | some patch =>
      dsimp only
      split
      · exact herr _ _
      · rename_i hnegative
        split
        · exact hok _ _
        · rw [Action.wp_bind]
          refine edit_change (hmay _ ⟨product.id, patch, rfl, hid, ?_⟩) ?_
            (fun _ => herr _ _)
          · intro n hn
            rw [hn] at hnegative
            exact ⟨stock_of_changed hchanged hn, by simpa using hnegative⟩
          · intro now
            rw [Action.wp_bind]
            refine edit_invalidate ?_
            rw [Action.wp_bind]
            exact edit_aside rfl (fun _ => hok _ _) (fun _ => herr _ _)

theorem edit_saveProduct {Q : Response -> Edit -> Prop} {id : String}
    {body : ProductBody} {message : String}
    (hmay : forall u, SavesFields id body u -> t.MayChange u)
    (hok : forall r edit, Q r edit) :
    Action.wp (editing t) (saveProduct message id body) Q E .nothing := by
  unfold saveProduct
  rw [Action.wp_tryCatch]
  refine wp_integerParam (fun _ _ => hok _ _) (fun n hid => ?_)
  rw [Action.wp_bind]
  refine edit_find (hok _ _) (fun p hp => ?_) (fun _ => hok _ _)
  rw [Action.wp_bind]
  rw [← hp] at hid
  exact edit_update hid hmay (fun _ _ => hok _ _) (fun _ _ => hok _ _)

theorem edit_removed {Q : Product -> Edit -> Prop} {product : Product}
    (hok : forall p edit, Q p edit) :
    Action.wp (editing t)
      (do
        invalidateProductCache product.id
        removeFromElasticsearch product.id
        pure product) Q E edit := by
  rw [Action.wp_bind]
  refine edit_invalidate ?_
  rw [Action.wp_bind]
  refine (Action.wp_tryCatch _ _ _).mpr ?_
  exact edit_aside rfl (fun _ => hok _ _) (fun _ => hok _ _)

theorem edit_dated {Q : Product -> Edit -> Prop} {product : Product}
    {changes : Bool} {u : Change} {stamped : Nat -> Product}
    (hmay : t.MayChange u) (hok : forall p edit, Q p edit)
    (herr : forall e edit, E e edit) :
    Action.wp (editing t)
      (do
        let product ←
          if changes then do
            let now ← Service.update false u
            pure (stamped now)
          else pure product
        invalidateProductCache product.id
        removeFromElasticsearch product.id
        pure product) Q E .nothing := by
  dsimp only
  split
  · rw [Action.wp_bind]
    refine edit_change hmay (fun now => ?_) (fun _ => herr _ _)
    rw [Action.wp_bind, Action.wp_pure]
    exact edit_removed hok
  · rw [Action.wp_bind, Action.wp_pure]
    exact edit_removed hok

theorem edit_destroy {Q : Product -> Edit -> Prop} {product : Product}
    (hmay : forall deleted, t.MayChange (.productDeleted product.id deleted))
    (hok : forall p edit, Q p edit) (herr : forall e edit, E e edit) :
    Action.wp (editing t) (Product.destroy product) Q E .nothing :=
  edit_dated (hmay true) hok herr

theorem edit_restore {Q : Product -> Edit -> Prop} {product : Product}
    (hmay : forall deleted, t.MayChange (.productDeleted product.id deleted))
    (hok : forall p edit, Q p edit) (herr : forall e edit, E e edit) :
    Action.wp (editing t) (Product.restore product) Q E .nothing :=
  edit_dated (hmay false) hok herr

theorem edit_createProduct {Q : Response -> Edit -> Prop}
    {body : ProductBody}
    (hmay : forall name description price stock,
      bodyStock? body = some stock ->
      t.MayInsert (.product name description price stock))
    (hok : forall r edit, Q r edit) :
    Action.wp (editing t) (createProduct body) Q E .nothing := by
  unfold createProduct
  rw [Action.wp_tryCatch]
  split
  · rename_i name price stock _ _ hstock
    rw [Action.wp_bind]
    unfold Product.create
    rw [Action.wp_bind]
    refine Action.wp_command ⟨rfl, hmay _ _ _ _ hstock⟩ ?_ ?_
    · rintro ⟨id, now⟩ _ rfl
      dsimp only
      rw [Action.wp_bind]
      refine edit_invalidate ?_
      rw [Action.wp_bind]
      exact edit_aside rfl (fun _ => hok _ _) (fun _ => hok _ _)
    · rintro e _ rfl
      exact hok _ _
  · exact hok _ _

theorem edit_validateRequest {Q : Response -> Edit -> Prop}
    {errors : List (String × String)} {next : Act Response}
    (hok : forall r edit, Q r edit)
    (hnext : errors = [] -> Action.wp (editing t) next Q E edit) :
    Action.wp (editing t) (validateRequest errors next) Q E edit := by
  unfold validateRequest
  split
  · exact hnext (by assumption)
  · exact hok _ _

end Rules

theorem natural_of_rules {body : ProductBody}
    (h : createProductRules body = []) {n : Int}
    (hn : bodyStock? body = some n) : 0 <= n := by
  have hrule : body.stock.any Scalar.isNatural = true :=
    ruleErrors_eq_nil_iff.mp h
      (_, "stock", "Stock must be a non-negative integer")
      (List.mem_of_getElem? (i := 6) rfl)
  rcases Option.bind_eq_some_iff.mp hn with ⟨v, hv, hinteger⟩
  rw [hv, Option.any_some, Scalar.isNatural, hinteger] at hrule
  simpa using hrule

/-- The code of a product request follows the protocol. -/
theorem follows_edit (t : ProductTask) :
    t.task.code.wp (editing t) (fun _ _ => True) .nothing := by
  have hok : forall (r : Response) (edit : Edit), True := fun _ _ => trivial
  cases t with
  | create body =>
      refine wp_settle.mpr (edit_validateRequest hok (fun hrules => ?_))
      exact edit_createProduct (fun name description price stock hstock =>
        ⟨name, description, price, stock, rfl, hstock,
          natural_of_rules hrules hstock⟩) hok
  | update id body =>
      refine wp_settle.mpr (edit_validateRequest hok (fun _ => ?_))
      exact edit_saveProduct (fun _ h => h) hok
  | patch id body =>
      refine wp_settle.mpr (edit_validateRequest hok (fun _ => ?_))
      exact edit_saveProduct (fun _ h => h) hok
  | softDelete id =>
      refine wp_settle.mpr (edit_validateRequest hok (fun _ => ?_))
      unfold softDeleteProduct
      rw [Action.wp_tryCatch]
      refine wp_integerParam (fun _ _ => trivial) (fun n hid => ?_)
      rw [Action.wp_bind]
      refine edit_find trivial (fun p hp => ?_) (fun _ => trivial)
      rw [Action.wp_bind]
      rw [← hp] at hid
      exact edit_destroy (fun deleted => ⟨p.id, deleted, rfl, hid⟩)
        (fun _ _ => trivial) (fun _ _ => trivial)
  | restore id =>
      refine wp_settle.mpr (edit_validateRequest hok (fun _ => ?_))
      unfold restoreProduct
      rw [Action.wp_tryCatch]
      refine wp_integerParam (fun _ _ => trivial) (fun n hid => ?_)
      rw [Action.wp_bind]
      refine edit_find trivial (fun p hp => ?_) (fun _ => trivial)
      rw [Action.wp_bind]
      rw [← hp] at hid
      exact edit_restore (fun deleted => ⟨p.id, deleted, rfl, hid⟩)
        (fun _ _ => trivial) (fun _ _ => trivial)

/-!
# The effect of a request that runs alone
-/

structure SameRows (db db' : Database) : Prop where
  customers : db'.customers.rows = db.customers.rows
  products : db'.products.rows = db.products.rows
  orders : db'.orders.rows = db.orders.rows
  items : db'.items.rows = db.items.rows

theorem SameRows.refl (db : Database) : SameRows db db :=
  ⟨rfl, rfl, rfl, rfl⟩

theorem sameRows_reserve (db : Database) (name : TableName) :
    SameRows db (db.reserve name) := by
  cases name <;> exact ⟨rfl, rfl, rfl, rfl⟩

theorem SameRows.trans {db mid db' : Database} (h1 : SameRows db mid)
    (h2 : SameRows mid db') : SameRows db db' :=
  ⟨h2.customers.trans h1.customers, h2.products.trans h1.products,
    h2.orders.trans h1.orders, h2.items.trans h1.items⟩

/-- The write that has been made, on a store with the rows of the start. -/
def Edited (t : ProductTask) (start db : Database) : Edit -> Prop
  | .nothing => SameRows start db
  | .inserted row => t.MayInsert row ∧ exists mid now, SameRows start mid ∧
      db = (mid.reserve row.table).write (row.write (mid.nextId row.table) now)
  | .changed u => t.MayChange u ∧ exists mid now, SameRows start mid ∧
      db = mid.update u now

theorem edited_step {ok : Env -> Prop} {t : ProductTask} {start : Database}
    {s s' : World × Tx} {edit : Edit} {c : Cmd} {r : service.Reply c}
    (h : Edited t start s.1.db edit) (hmay : edit.may t c)
    (hnext : Next ok s c r s') :
    exists edit', edit.next c r edit' ∧ Edited t start s'.1.db edit' := by
  rcases s with ⟨w, tx⟩
  unfold Edit.may at hmay
  split at hmay
  · rename_i inTx q
    subst hmay
    rcases next_query hnext with ⟨rfl, rfl | ⟨⟨e, rfl⟩, _⟩⟩
    · refine ⟨edit, ?_, h⟩
      cases q with
      | productByPk id paranoid =>
          exact ⟨rfl, fun p hp => Database.product?_key hp⟩
      | _ => rfl
    · exact ⟨edit, by cases q <;> rfl, h⟩
  · rcases hmay with ⟨rfl, hrow⟩
    rename_i row
    rcases next_insert hnext with ⟨now, rfl, _, rfl⟩ | ⟨⟨e, rfl⟩, hs⟩
    · exact ⟨.inserted row, rfl, hrow, w.db, now, h, rfl⟩
    · refine ⟨.nothing, rfl, ?_⟩
      rcases hs with rfl | rfl
      · exact h
      · exact SameRows.trans h (sameRows_reserve _ _)
  · rcases hmay with ⟨rfl, hchange⟩
    rename_i u
    rcases next_update hnext with ⟨now, rfl, _, rfl⟩ | ⟨⟨e, rfl⟩, rfl, _⟩
    · exact ⟨.changed u, rfl, hchange, w.db, now, h, rfl⟩
    · exact ⟨.nothing, rfl, h⟩
  · rcases next_aside hmay hnext with ⟨hdb, _, _⟩
    refine ⟨edit, ?_, ?_⟩
    · cases c <;> cases hmay <;> rfl
    · rw [hdb]
      exact h

theorem stock_of_rows {db db' : Database}
    (h : db'.products.rows = db.products.rows) (p : Int) :
    db'.stock p = db.stock p := by
  unfold Database.stock Table.find?
  rw [h]

/-- The stock that a request writes to a product. -/
def ProductTask.Writes (db : Database) (p n : Int) : ProductTask -> Prop
  | create body => db.products.find? p = none ∧ bodyStock? body = some n
  | update id body => pgInteger? id = some p ∧ bodyStock? body = some n
  | patch id body => pgInteger? id = some p ∧ bodyStock? body = some n
  | _ => False

/-- A product request that ran alone has changed products only, and a stock
only to a number that its body asks for. -/
structure Stocked (t : ProductTask) (db db' : Database) : Prop where
  customers : db'.customers.rows = db.customers.rows
  orders : db'.orders.rows = db.orders.rows
  items : db'.items.rows = db.items.rows
  stock : forall p, db'.stock p = db.stock p ∨
    t.Writes db p (db'.stock p) ∧ 0 <= db'.stock p

theorem stock_update_productFields (db : Database) (id : Int)
    (patch : ProductPatch) (now : Nat) (p : Int) :
    (db.update (.productFields id patch) now).stock p = db.stock p ∨
      p = id ∧ patch.stock =
        some ((db.update (.productFields id patch) now).stock p) := by
  unfold Database.stock
  rw [Database.find?_update_productFields]
  by_cases hp : p = id
  · rw [if_pos hp]
    cases db.products.find? p with
    | none => exact Or.inl rfl
    | some r =>
        cases hpatch : patch.stock with
        | none =>
            left
            simp [Product.patch, hpatch]
        | some n =>
            right
            simp [Product.patch, hpatch, hp]
  · rw [if_neg hp]
    exact Or.inl rfl

theorem stock_update_productDeleted (db : Database) (id : Int)
    (deleted : Bool) (now : Nat) (p : Int) :
    (db.update (.productDeleted id deleted) now).stock p = db.stock p := by
  unfold Database.stock
  rw [Database.find?_update_productDeleted]
  split
  · cases db.products.find? p <;> rfl
  · rfl

theorem find?_insertProduct (db : Database) (r : Product)
    (hid : r.id = db.products.seq) (p : Int) :
    ((db.reserve .products).insertProduct r).products.find? p =
      if p = r.id then some r else db.products.find? p := by
  have hfree : (db.reserve .products).products.find? r.id = none := by
    rw [hid]
    exact Table.find?_seq db.products
  have hlt : r.id < (db.reserve .products).products.seq := by
    show r.id < db.products.seq + 1
    omega
  exact Table.find?_insert_of_fresh hlt hfree p

theorem stock_insertProduct (db : Database) (r : Product)
    (hid : r.id = db.products.seq) (p : Int) :
    ((db.reserve .products).insertProduct r).stock p =
      if p = r.id then r.stock else db.stock p := by
  unfold Database.stock
  rw [find?_insertProduct db r hid p]
  split <;> rfl

theorem stocked_of_changed {t : ProductTask} {start mid : Database}
    {u : Change} (now : Nat) (hmay : t.MayChange u)
    (hrows : SameRows start mid) : Stocked t start (mid.update u now) := by
  have hsave : forall {id : String} {body : ProductBody},
      SavesFields id body u ->
      (forall p n, pgInteger? id = some p -> bodyStock? body = some n ->
        t.Writes start p n) -> Stocked t start (mid.update u now) := by
    rintro id body ⟨q, patch, rfl, hq, hstock⟩ hwrites
    refine ⟨hrows.customers, hrows.orders, hrows.items, fun p => ?_⟩
    rcases stock_update_productFields mid q patch now p with hsame | ⟨rfl, hn⟩
    · exact Or.inl (hsame.trans (stock_of_rows hrows.products p))
    · rcases hstock _ hn with ⟨hbody, hnat⟩
      exact Or.inr ⟨hwrites _ _ hq hbody, hnat⟩
  have hdelete : forall {id : String}, MarksDeleted id u ->
      Stocked t start (mid.update u now) := by
    rintro id ⟨q, deleted, rfl, _⟩
    refine ⟨hrows.customers, hrows.orders, hrows.items, fun p => ?_⟩
    exact Or.inl ((stock_update_productDeleted mid q deleted now p).trans
      (stock_of_rows hrows.products p))
  cases t with
  | create body => cases hmay
  | update id body => exact hsave hmay (fun _ _ hp hn => ⟨hp, hn⟩)
  | patch id body => exact hsave hmay (fun _ _ hp hn => ⟨hp, hn⟩)
  | softDelete id => exact hdelete hmay
  | restore id => exact hdelete hmay

theorem stocked_of_inserted {t : ProductTask} {start mid : Database}
    {row : NewRow} (now : Nat) (hmay : t.MayInsert row)
    (hrows : SameRows start mid) :
    Stocked t start ((mid.reserve row.table).write
      (row.write (mid.nextId row.table) now)) := by
  cases t with
  | create body =>
      rcases hmay with ⟨name, description, price, stock, rfl, hstock, hnat⟩
      refine ⟨hrows.customers, hrows.orders, hrows.items, fun p => ?_⟩
      have hinsert := stock_insertProduct mid ⟨mid.products.seq, name,
        description, price, stock, now, now, none⟩ rfl p
      by_cases hp : p = mid.products.seq
      · right
        have hnew := hinsert.trans (if_pos hp)
        refine ⟨⟨?_, ?_⟩, ?_⟩
        · rw [hp]
          unfold Table.find?
          rw [← hrows.products]
          exact Table.find?_seq mid.products
        · exact hstock.trans (congrArg some hnew.symm)
        · exact le_of_le_of_eq hnat hnew.symm
      · left
        exact (hinsert.trans (if_neg hp)).trans
          (stock_of_rows hrows.products p)
  | update | patch | softDelete | restore => cases hmay

theorem executes_edited {ok : Env -> Prop} {t : ProductTask} {w w' : World}
    {out : Outcome} (h : Executes ok w t.task out w') :
    exists edit, Edited t w.db w'.db edit := by
  rcases h with ⟨tx, hrun⟩
  have hstart : Edited t w.db (w, (none : Tx)).1.db .nothing :=
    SameRows.refl w.db
  rcases Prog.wp_sound
    (J := fun (s : World × Tx) edit => Edited t w.db s.1.db edit)
    (fun hJ hmay hnext => edited_step hJ hmay hnext) (follows_edit t)
    hstart hrun with ⟨edit, hedited, _⟩
  exact ⟨edit, hedited⟩

theorem executes_edit {ok : Env -> Prop} {t : ProductTask} {w w' : World}
    {out : Outcome} (h : Executes ok w t.task out w') :
    Stocked t w.db w'.db := by
  rcases executes_edited h with ⟨edit, hedited⟩
  cases edit with
  | nothing =>
      exact ⟨hedited.customers, hedited.orders, hedited.items,
        fun p => Or.inl (stock_of_rows hedited.products p)⟩
  | inserted row =>
      rcases hedited with ⟨hmay, mid, now, hrows, hdb⟩
      rw [hdb]
      exact stocked_of_inserted now hmay hrows
  | changed u =>
      rcases hedited with ⟨hmay, mid, now, hrows, hdb⟩
      rw [hdb]
      exact stocked_of_changed now hmay hrows

end Products
end ExpressEcommerce
