import ExpressEcommerce.Caching.Steps
import ExpressEcommerce.Store.Frames

/-!
# One row and its key

The row of an order or of a product has a key of its own in the cache.  A
command that changes the row, or puts a change of it into the log of a
transaction, leaves the task with the duty to clear the key.  Increments and
decrements of the stock are the exception, and the commit of a transaction is
the moment at which a change becomes visible.
-/

namespace ExpressEcommerce
namespace Caching

open Foundation
open Store
open Service

def rowKey : TableName × Int -> Option String
  | (.orders, id) => some (orderKey id)
  | (.products, id) => some (productKey id)
  | _ => none

def logged (tx : Tx) : List (TableName × Int) :=
  (tx.getD []).filterMap Database.changes?

def Duty.Owes (key : String) : Duty -> Prop
  | owing _ keys => key ∈ keys
  | _ => False

/-- Whoever has this duty leaves the row alone or clears its key: the stock of
a product is the exception. -/
def Duty.Minds (row : TableName × Int) : Duty -> Prop
  | owing rights _ => row.1 = .products -> rights.stock = false
  | _ => True

theorem minds_order (id : Int) (duty : Duty) : duty.Minds (.orders, id) := by
  cases duty with
  | owing rights keys => exact fun h => by cases h
  | _ => trivial

theorem mem_clears {u : Change} {key : String} {rights : Rights}
    {keys : List String} (hkey : rowKey u.row = some key)
    (hstock : forall id amount, u = .productStock id amount ->
      rights.stock = true)
    (hminds : (Duty.owing rights keys).Minds u.row) : key ∈ clears u := by
  cases u with
  | productStock id amount =>
      have hyes := hstock id amount rfl
      rw [hminds rfl] at hyes
      cases hyes
  | itemFields | itemDeleted | customerFields | customerDeleted => cases hkey
  | orderStatus | orderTotal | orderDeleted | productFields | productDeleted =>
      cases hkey
      exact List.mem_singleton.mpr rfl

theorem mem_logged_append {tx : Tx} {x : Write} {row : TableName × Int}
    (h : row ∈ logged (tx.map (fun log => log ++ [x]))) :
    row ∈ logged tx ∨ Database.changes? x = some row := by
  cases tx with
  | none => cases h
  | some log =>
      have hmem : row ∈ (log ++ [x]).filterMap Database.changes? := h
      rw [List.filterMap_append, List.mem_append] at hmem
      rcases hmem with hold | hnew
      · exact Or.inl hold
      · rcases List.mem_filterMap.mp hnew with ⟨y, hy, hrow⟩
        rw [List.mem_singleton.mp hy] at hrow
        exact Or.inr hrow

section Record

variable {w w' : World} {tx tx' : Tx} {inTx : Bool} {x : Write}
variable {row : TableName × Int}

theorem record_cache (h : (w', tx') = w.record tx inTx x) :
    w'.cache = w.cache := by
  cases inTx <;> cases h <;> rfl

theorem record_row (h : (w', tx') = w.record tx inTx x) (hrow : row ≠ x.row) :
    SameRow w.db w'.db row := by
  cases inTx with
  | true =>
      cases h
      exact SameRow.refl _ _
  | false =>
      cases h
      exact Database.sameRow_write _ _ hrow

theorem record_logged (h : (w', tx') = w.record tx inTx x)
    (hrow : row ∈ logged tx') :
    row ∈ logged tx ∨ Database.changes? x = some row := by
  cases inTx with
  | true =>
      cases h
      exact mem_logged_append hrow
  | false =>
      cases h
      exact Or.inl hrow

end Record

section Row

variable {w w' : World} {tx tx' : Tx} {duty duty' : Duty} {c : Cmd}
variable {row : TableName × Int} {key : String}

/-- The row keeps its columns, or its key has to be cleared, or this is the
commit of an earlier change. -/
theorem turned_row (hkey : rowKey row = some key) (hfound : Found w.db row)
    (hminds : duty.Minds row) (h : Turned w tx duty c w' tx' duty') :
    SameRow w.db w'.db row ∨ duty'.Owes key ∨
      c = .commit ∧ row ∈ logged tx := by
  cases h with
  | still hdb _ _ _ =>
      rw [hdb]
      exact Or.inl (SameRow.refl _ _)
  | reserved name => exact Or.inl (sameRow_reserve _ _ _)
  | inserted inTx new now hrecord =>
      refine Or.inl ((sameRow_reserve w.db new.table row).trans
        (record_row hrecord ?_))
      rintro rfl
      exact not_found_new hfound
  | updated inTx u now hstock hrecord =>
      by_cases hrow : row = u.row
      · subst hrow
        exact Or.inr (Or.inl
          (List.mem_append_left _ (mem_clears hkey hstock hminds)))
      · exact Or.inl (record_row hrecord hrow)
  | committed log hlog =>
      subst hlog
      by_cases hrow : row ∈ log.filterMap Database.changes?
      · exact Or.inr (Or.inr ⟨rfl, hrow⟩)
      · exact Or.inl (Database.sameRow_writeAll_of_found _ _ hfound hrow)
  | cleared | hit | fetched | filled => exact Or.inl (SameRow.refl _ _)

theorem turned_logged (hkey : rowKey row = some key) (hminds : duty.Minds row)
    (h : Turned w tx duty c w' tx' duty') (hrow : row ∈ logged tx') :
    row ∈ logged tx ∨ duty'.Owes key := by
  cases h with
  | still _ _ _ htx =>
      rcases htx with rfl | rfl | rfl
      · exact Or.inl hrow
      · cases hrow
      · cases hrow
  | inserted inTx new now hrecord =>
      rcases record_logged hrecord hrow with hold | hno
      · exact Or.inl hold
      · cases new <;> cases hno
  | updated inTx u now hstock hrecord =>
      rcases record_logged hrecord hrow with hold | hu
      · exact Or.inl hold
      · cases hu
        exact Or.inr (List.mem_append_left _ (mem_clears hkey hstock hminds))
  | committed log _ => cases hrow
  | reserved | cleared | hit | fetched | filled => exact Or.inl hrow

theorem turned_owes (howes : duty.Owes key)
    (h : Turned w tx duty c w' tx' duty') :
    duty'.Owes key ∨ c = .redisDel key ∧ w'.cache.get key = none := by
  cases h with
  | updated inTx u now _ _ => exact Or.inl (List.mem_append_right _ howes)
  | cleared other =>
      by_cases hsame : key = other
      · refine Or.inr ⟨by rw [hsame], ?_⟩
        rw [show ({ w with cache := w.cache.del other } : World).cache =
          w.cache.del other from rfl, Cache.get_del, if_pos hsame]
      · exact Or.inl (List.mem_filter.mpr ⟨howes, decide_eq_true hsame⟩)
  | still | reserved | inserted | committed => exact Or.inl howes
  | hit | fetched | filled => cases howes

theorem turned_get {value : CacheValue} (h : Turned w tx duty c w' tx' duty')
    (hget : w'.cache.get key = some value) :
    w.cache.get key = some value ∨
      exists found text, duty = .holding found ∧
        c = .redisSet (found.key text) found.value ∧
        pgInteger? text = some found.id ∧ key = found.key text ∧
        value = found.value ∧ w'.db = w.db := by
  cases h with
  | still _ hcache _ _ =>
      rw [hcache] at hget
      exact Or.inl hget
  | inserted inTx new now hrecord =>
      rw [record_cache hrecord] at hget
      exact Or.inl hget
  | updated inTx u now _ hrecord =>
      rw [record_cache hrecord] at hget
      exact Or.inl hget
  | cleared other =>
      rw [show ({ w with cache := w.cache.del other } : World).cache =
        w.cache.del other from rfl, Cache.get_del] at hget
      split at hget
      · cases hget
      · exact Or.inl hget
  | filled found text hid =>
      rw [show ({ w with cache := w.cache.set (found.key text) found.value } :
        World).cache = w.cache.set (found.key text) found.value from rfl,
        Cache.get_set] at hget
      split at hget
      · rename_i hkey
        cases hget
        exact Or.inr ⟨found, text, rfl, rfl, hid, hkey, rfl, rfl⟩
      · exact Or.inl hget
  | reserved | committed | hit | fetched => exact Or.inl hget

end Row

/-!
# Canonical keys

A reader makes the key from the text of the route parameter.  The key of an
order is hit only by the decimal numeral of its id.
-/

theorem id_of_orderKey {found : Fetched} {text : String} {id : Int}
    (hkey : orderKey id = found.key text)
    (hid : pgInteger? text = some found.id) :
    pgInteger? (toString id) = some id ∧
      exists graph, found = .order id graph := by
  cases found with
  | product other row => exact absurd hkey (order_ne_product _ _)
  | order other graph =>
      have htext : toString id = text := (String.append_right_inj _).mp hkey
      rw [← htext] at hid
      have hread := hid
      rw [pgInteger?_toString, Option.filter_eq_some_iff] at hread
      cases hread.left
      exact ⟨hid, graph, rfl⟩

theorem id_of_productKey {found : Fetched} {text : String} {id : Int}
    (hkey : productKey id = found.key text)
    (hid : pgInteger? text = some found.id) :
    exists row, found = .product id row := by
  cases found with
  | order other graph => exact absurd hkey.symm (order_ne_product _ _)
  | product other row =>
      have htext : toString id = text := (String.append_right_inj _).mp hkey
      rw [← htext, pgInteger?_toString, Option.filter_eq_some_iff] at hid
      cases hid.left
      exact ⟨row, rfl⟩

end Caching
end ExpressEcommerce
