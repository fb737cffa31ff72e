import ExpressEcommerce.Store.Commands

/-!
# What a write leaves alone

A statement writes one row, the one it locks.  All other rows are found after it
as they were before, and no statement ever gives an order to another customer.
-/

namespace ExpressEcommerce
namespace Store

open Foundation

theorem find?_insert_of_ne {rho : Type} [Keyed rho] (t : Table rho) {r : rho}
    {j : Int} (h : j ≠ Keyed.key r) : (t.insert r).find? j = t.find? j := by
  by_cases hcond : Keyed.key r < t.seq ∧ t.find? (Keyed.key r) = none
  · rw [Table.find?_insert_of_fresh hcond.left hcond.right, if_neg h]
  · unfold Table.insert
    rw [dif_neg hcond]

theorem find?_modify_of_ne {rho : Type} [Keyed rho] (t : Table rho) {id : Int}
    {f : rho -> rho} (hf : forall r, Keyed.key (f r) = Keyed.key r) {j : Int}
    (h : j ≠ id) : (t.modify id f hf).find? j = t.find? j := by
  rw [Table.find?_modify, if_neg h]

/-- A row is found in both stores, with the same columns, or in neither. -/
def SameRow (db db' : Database) : TableName × Int -> Prop
  | (.customers, id) => db'.customers.find? id = db.customers.find? id
  | (.products, id) => db'.products.find? id = db.products.find? id
  | (.orders, id) => db'.orders.find? id = db.orders.find? id
  | (.items, id) => db'.items.find? id = db.items.find? id

theorem SameRow.refl (db : Database) (row : TableName × Int) :
    SameRow db db row := by
  rcases row with ⟨name, id⟩
  cases name <;> rfl

theorem SameRow.trans {db mid db' : Database} {row : TableName × Int}
    (h1 : SameRow db mid row) (h2 : SameRow mid db' row) :
    SameRow db db' row := by
  rcases row with ⟨name, id⟩
  cases name <;> exact Eq.trans h2 h1

def Found (db : Database) : TableName × Int -> Prop
  | (.customers, id) => exists r, db.customers.find? id = some r
  | (.products, id) => exists r, db.products.find? id = some r
  | (.orders, id) => exists r, db.orders.find? id = some r
  | (.items, id) => exists r, db.items.find? id = some r

theorem Found.same {db db' : Database} {row : TableName × Int}
    (h : Found db row) (hsame : SameRow db db' row) : Found db' row := by
  rcases row with ⟨name, id⟩
  cases name with
  | customers | products | orders | items =>
      rcases h with ⟨r, hr⟩
      exact ⟨r, Eq.trans hsame hr⟩

theorem not_found_new {db : Database} {row : NewRow} {now : Nat} :
    ¬ Found db (row.write (db.nextId row.table) now).row := by
  intro h
  cases row with
  | customer | product | order | item =>
      rcases h with ⟨r, hr⟩
      exact absurd (Table.lt_seq_of_find? hr) (lt_irrefl _)

theorem sameRow_reserve (db : Database) (name : TableName)
    (row : TableName × Int) : SameRow db (db.reserve name) row := by
  rcases row with ⟨table, id⟩
  cases table <;> cases name <;> rfl

namespace Database

theorem sameRow_update (db : Database) (u : Change) (now : Nat)
    {row : TableName × Int} (h : row ≠ u.row) :
    SameRow db (db.update u now) row := by
  rcases row with ⟨table, id⟩
  have hne : forall {other : Int}, (table, id) ≠ (table, other) ->
      id ≠ other := by
    rintro other hrow rfl
    exact hrow rfl
  cases u with
  | itemFields other patch =>
      dsimp only [update]
      split
      · cases table with
        | items =>
            refine find?_modify_of_ne _ ?_ (hne h)
            exact fun _ => rfl
        | _ => rfl
      · exact SameRow.refl db (table, id)
  | orderStatus | orderTotal | orderDeleted =>
      cases table with
      | orders =>
          refine find?_modify_of_ne _ ?_ (hne h)
          exact fun _ => rfl
      | _ => rfl
  | itemDeleted =>
      cases table with
      | items =>
          refine find?_modify_of_ne _ ?_ (hne h)
          exact fun _ => rfl
      | _ => rfl
  | productStock | productFields | productDeleted =>
      cases table with
      | products =>
          refine find?_modify_of_ne _ ?_ (hne h)
          exact fun _ => rfl
      | _ => rfl
  | customerFields | customerDeleted =>
      cases table with
      | customers =>
          refine find?_modify_of_ne _ ?_ (hne h)
          exact fun _ => rfl
      | _ => rfl

theorem sameRow_write (db : Database) (x : Write) {row : TableName × Int}
    (h : row ≠ x.row) : SameRow db (db.write x) row := by
  rcases row with ⟨table, id⟩
  have hne : forall {other : Int}, (table, id) ≠ (table, other) ->
      id ≠ other := by
    rintro other hrow rfl
    exact hrow rfl
  cases x with
  | insertCustomer r =>
      cases table with
      | customers => exact find?_insert_of_ne _ (hne h)
      | _ => rfl
  | insertProduct r =>
      cases table with
      | products => exact find?_insert_of_ne _ (hne h)
      | _ => rfl
  | insertOrder r =>
      show SameRow db (db.insertOrder r) _
      unfold insertOrder
      split
      · cases table with
        | orders => exact find?_insert_of_ne _ (hne h)
        | _ => rfl
      · exact SameRow.refl db (table, id)
  | insertItem r =>
      show SameRow db (db.insertItem r) _
      unfold insertItem
      split
      · cases table with
        | items => exact find?_insert_of_ne _ (hne h)
        | _ => rfl
      · exact SameRow.refl db (table, id)
  | update u now => exact sameRow_update db u now h

theorem sameRow_writeAll (db : Database) (log : List Write)
    {row : TableName × Int} (h : row ∉ log.map Write.row) :
    SameRow db (db.writeAll log) row := by
  induction log generalizing db with
  | nil => exact SameRow.refl db row
  | cons x rest ih =>
      rw [List.map_cons, List.mem_cons, not_or] at h
      exact (sameRow_write db x h.left).trans (ih (db.write x) h.right)

/-- The row that a write changes; an insertion leaves every row as it is. -/
def changes? : Write -> Option (TableName × Int)
  | .update u _ => some u.row
  | _ => none

theorem find?_insert_of_found {rho : Type} [Keyed rho] (t : Table rho)
    (new : rho) {id : Int} {r : rho} (h : t.find? id = some r) :
    (t.insert new).find? id = t.find? id := by
  rcases Table.find?_insert t new id with hsame | ⟨hid, _⟩
  · exact hsame
  · have hused : ¬ (Keyed.key new < t.seq ∧ t.find? (Keyed.key new) = none) := by
      rintro ⟨_, hnone⟩
      rw [← hid, h] at hnone
      cases hnone
    unfold Table.insert
    rw [dif_neg hused]

theorem sameRow_write_of_found (db : Database) (x : Write)
    {row : TableName × Int} (hfound : Found db row)
    (h : changes? x ≠ some row) : SameRow db (db.write x) row := by
  by_cases hrow : row = x.row
  · subst hrow
    cases x with
    | update u now => exact absurd rfl h
    | insertCustomer r =>
        rcases hfound with ⟨old, hold⟩
        exact find?_insert_of_found _ r hold
    | insertProduct r =>
        rcases hfound with ⟨old, hold⟩
        exact find?_insert_of_found _ r hold
    | insertOrder r =>
        rcases hfound with ⟨old, hold⟩
        show SameRow db (db.insertOrder r) _
        unfold insertOrder
        split
        · exact find?_insert_of_found _ r hold
        · exact SameRow.refl db _
    | insertItem r =>
        rcases hfound with ⟨old, hold⟩
        show SameRow db (db.insertItem r) _
        unfold insertItem
        split
        · exact find?_insert_of_found _ r hold
        · exact SameRow.refl db _
  · exact sameRow_write db x hrow

theorem sameRow_writeAll_of_found (db : Database) (log : List Write)
    {row : TableName × Int} (hfound : Found db row)
    (h : row ∉ log.filterMap changes?) :
    SameRow db (db.writeAll log) row := by
  induction log generalizing db with
  | nil => exact SameRow.refl db row
  | cons x rest ih =>
      have hfirst : changes? x ≠ some row := by
        intro hx
        exact h (List.mem_filterMap.mpr ⟨x, List.mem_cons_self, hx⟩)
      have hsame := sameRow_write_of_found db x hfound hfirst
      refine hsame.trans (ih (db.write x) (hfound.same hsame) ?_)
      intro hmem
      rcases List.mem_filterMap.mp hmem with ⟨y, hy, hrow⟩
      exact h (List.mem_filterMap.mpr ⟨y, List.mem_cons_of_mem _ hy, hrow⟩)

end Database

/-!
# Owners
-/

def OwnersKept (db db' : Database) : Prop :=
  forall id o, db.orders.find? id = some o ->
    exists o', db'.orders.find? id = some o' ∧ o'.customerId = o.customerId

theorem OwnersKept.trans {db mid db' : Database} (h1 : OwnersKept db mid)
    (h2 : OwnersKept mid db') : OwnersKept db db' := by
  intro id o ho
  rcases h1 id o ho with ⟨o1, ho1, howner1⟩
  rcases h2 id o1 ho1 with ⟨o2, ho2, howner2⟩
  exact ⟨o2, ho2, howner2.trans howner1⟩

theorem ownersKept_of_eq {db db' : Database} (h : db'.orders = db.orders) :
    OwnersKept db db' := by
  intro id o ho
  rw [h]
  exact ⟨o, ho, rfl⟩

theorem ownersKept_reserve (db : Database) (name : TableName) :
    OwnersKept db (db.reserve name) := by
  intro id o ho
  refine ⟨o, ?_, rfl⟩
  rw [show (db.reserve name).orders.find? id = db.orders.find? id from
    sameRow_reserve db name (.orders, id)]
  exact ho

theorem ownersKept_alterOrder (db : Database) (other : Int)
    (f : Order -> Order) (hid : forall r, (f r).id = r.id)
    (hcustomer : forall r, (f r).customerId = r.customerId) :
    OwnersKept db (db.alterOrder other f hid hcustomer) := by
  intro id o ho
  have hfind : (db.alterOrder other f hid hcustomer).orders.find? id =
      if id = other then (db.orders.find? id).map f
      else db.orders.find? id := Table.find?_modify _ _ _ hid _
  rw [hfind, ho]
  split
  · exact ⟨f o, rfl, hcustomer o⟩
  · exact ⟨o, rfl, rfl⟩

theorem ownersKept_update (db : Database) (u : Change) (now : Nat) :
    OwnersKept db (db.update u now) := by
  cases u with
  | orderStatus | orderTotal | orderDeleted =>
      refine ownersKept_alterOrder db _ _ ?_ ?_
      exact fun _ => rfl
  | itemFields id patch =>
      dsimp only [Database.update]
      split
      · exact ownersKept_of_eq rfl
      · exact ownersKept_of_eq rfl
  | _ => exact ownersKept_of_eq rfl

theorem ownersKept_insertOrder (db : Database) (r : Order) :
    OwnersKept db (db.insertOrder r) := by
  unfold Database.insertOrder
  split
  · intro id o ho
    refine ⟨o, ?_, rfl⟩
    show (db.orders.insert r).find? id = some o
    by_cases hcond : Keyed.key r < db.orders.seq ∧
        db.orders.find? (Keyed.key r) = none
    · rw [Table.find?_insert_of_fresh hcond.left hcond.right, if_neg]
      · exact ho
      · rintro rfl
        rw [hcond.right] at ho
        cases ho
    · unfold Table.insert
      rw [dif_neg hcond]
      exact ho
  · exact ownersKept_of_eq rfl

theorem ownersKept_write (db : Database) (x : Write) :
    OwnersKept db (db.write x) := by
  cases x with
  | insertCustomer r => exact ownersKept_of_eq rfl
  | insertProduct r => exact ownersKept_of_eq rfl
  | insertOrder r => exact ownersKept_insertOrder db r
  | insertItem r =>
      show OwnersKept db (db.insertItem r)
      unfold Database.insertItem
      split
      · exact ownersKept_of_eq rfl
      · exact ownersKept_of_eq rfl
  | update u now => exact ownersKept_update db u now

theorem ownersKept_writeAll (db : Database) (log : List Write) :
    OwnersKept db (db.writeAll log) := by
  induction log generalizing db with
  | nil => exact ownersKept_of_eq rfl
  | cons x rest ih => exact (ownersKept_write db x).trans (ih (db.write x))

end Store
end ExpressEcommerce
