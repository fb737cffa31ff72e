import ExpressEcommerce.Access.Writes
import ExpressEcommerce.Caching.Upkeep

/-!
# Cached orders and their owners

`getOrderById` compares the customer with the owner it finds in the cached text,
whoever filled the cache.  What is kept under an order key always carries the
true owner of the order it describes, however requests, jobs and expiring keys
interleave, so the comparison is as good as one with the store.
-/

namespace ExpressEcommerce
namespace Access

open Foundation
open Store
open Service
open Runs
open Caching

/-- The store has the order and knows the same owner. -/
def Owned (db : Database) (o : Order) : Prop :=
  exists row, db.orders.find? o.id = some row ∧ row.customerId = o.customerId

theorem Owned.kept {db db' : Database} {o : Order} (h : Owned db o)
    (hkept : OwnersKept db db') : Owned db' o := by
  rcases h with ⟨row, hrow, howner⟩
  rcases hkept o.id row hrow with ⟨row', hrow', howner'⟩
  exact ⟨row', hrow', howner'.trans howner⟩

def ValueOwned (db : Database) : CacheValue -> Prop
  | .order value => Owned db value.order
  | .product _ => True

theorem ValueOwned.kept {db db' : Database} {value : CacheValue}
    (h : ValueOwned db value) (hkept : OwnersKept db db') :
    ValueOwned db' value := by
  cases value with
  | order value => exact Owned.kept h hkept
  | product value => trivial

def KeyFits (key : String) : CacheValue -> Prop
  | .order _ => exists text, key = "order:" ++ text
  | .product _ => exists text, key = "product:" ++ text

/-- Every cached order carries its true owner. -/
def CacheOwned (w : World) : Prop :=
  forall key value, w.cache.get key = some value ->
    KeyFits key value ∧ ValueOwned w.db value

/-- What a task has in its hands carries its true owner, too. -/
def HandsOwned (db : Database) : Duty -> Prop
  | .seen value => ValueOwned db value
  | .holding found => ValueOwned db found.value
  | .filled found => ValueOwned db found.value
  | _ => True

theorem HandsOwned.kept {db db' : Database} {duty : Duty}
    (h : HandsOwned db duty) (hkept : OwnersKept db db') :
    HandsOwned db' duty := by
  cases duty with
  | seen value => exact ValueOwned.kept h hkept
  | holding found => exact ValueOwned.kept h hkept
  | filled found => exact ValueOwned.kept h hkept
  | _ => trivial

theorem keyFits_fetched (found : Fetched) (text : String) :
    KeyFits (found.key text) found.value := by
  cases found with
  | order id graph => exact ⟨text, rfl⟩
  | product id row => exact ⟨text, rfl⟩

theorem valueOwned_of_from {db : Database} {found : Fetched}
    (h : found.From db) : ValueOwned db found.value := by
  cases found with
  | product id row => trivial
  | order id graph =>
      rcases Option.map_eq_some_iff.mp h with ⟨o, ho, rfl⟩
      have hrow := (Database.order?_true_eq_some_iff.mp ho).left
      have hid : o.id = id := (Table.find?_eq_some_iff.mp hrow).right
      refine ⟨o, ?_, rfl⟩
      show db.orders.find? o.id = some o
      rw [hid]
      exact hrow

/-!
# One command
-/

theorem ownersKept_record {w w' : World} {tx tx' : Tx} {inTx : Bool}
    {x : Write} (h : (w', tx') = w.record tx inTx x) :
    OwnersKept w.db w'.db := by
  cases inTx with
  | true =>
      cases h
      exact ownersKept_of_eq rfl
  | false =>
      cases h
      exact ownersKept_write w.db x

theorem ownersKept_turned {w w' : World} {tx tx' : Tx} {duty duty' : Duty}
    {c : Cmd} (h : Turned w tx duty c w' tx' duty') : OwnersKept w.db w'.db := by
  cases h with
  | still hdb _ _ _ =>
      rw [hdb]
      exact ownersKept_of_eq rfl
  | reserved name => exact ownersKept_reserve w.db name
  | inserted inTx row now hrecord =>
      exact (ownersKept_reserve w.db row.table).trans
        (ownersKept_record hrecord)
  | updated inTx u now _ hrecord => exact ownersKept_record hrecord
  | committed log _ => exact ownersKept_writeAll w.db log
  | cleared | hit | fetched | filled => exact ownersKept_of_eq rfl

theorem cacheOwned_of_same {w w' : World} (h : CacheOwned w)
    (hcache : w'.cache = w.cache) (hkept : OwnersKept w.db w'.db) :
    CacheOwned w' := by
  intro key value hget
  rw [hcache] at hget
  rcases h key value hget with ⟨hkey, howned⟩
  exact ⟨hkey, howned.kept hkept⟩

theorem cacheOwned_turned {w w' : World} {tx tx' : Tx} {duty duty' : Duty}
    {c : Cmd} (h : CacheOwned w) (hhands : HandsOwned w.db duty)
    (hturned : Turned w tx duty c w' tx' duty') : CacheOwned w' := by
  have hkept := ownersKept_turned hturned
  cases hturned with
  | still _ hcache _ _ => exact cacheOwned_of_same h hcache hkept
  | reserved name => exact cacheOwned_of_same h rfl hkept
  | inserted inTx row now hrecord =>
      have hcache := record_cache hrecord
      exact cacheOwned_of_same h hcache hkept
  | updated inTx u now _ hrecord =>
      exact cacheOwned_of_same h (record_cache hrecord) hkept
  | committed log _ => exact cacheOwned_of_same h rfl hkept
  | cleared key =>
      intro other value hget
      rw [show ({ w with cache := w.cache.del key } : World).cache =
        w.cache.del key from rfl, Cache.get_del] at hget
      split at hget
      · cases hget
      · exact h other value hget
  | hit | fetched => exact h
  | filled found text hid =>
      intro other value hget
      rw [show ({ w with cache := w.cache.set (found.key text) found.value } :
        World).cache = w.cache.set (found.key text) found.value from rfl,
        Cache.get_set] at hget
      split at hget
      · rename_i hother
        cases hget
        rw [hother]
        exact ⟨keyFits_fetched found text, hhands⟩
      · exact h other value hget

theorem handsOwned_turned {w w' : World} {tx tx' : Tx} {duty duty' : Duty}
    {c : Cmd} (h : CacheOwned w) (hhands : HandsOwned w.db duty)
    (hturned : Turned w tx duty c w' tx' duty') : HandsOwned w'.db duty' := by
  have hkept := ownersKept_turned hturned
  cases hturned with
  | still _ _ _ _ => exact hhands.kept hkept
  | hit key value hget => exact (h key value hget).right
  | fetched found hfrom => exact valueOwned_of_from hfrom
  | filled found text _ => exact hhands
  | reserved | inserted | updated | committed | cleared => trivial

/-!
# Interleavings
-/

theorem preserves_owned :
    Pool.Preserves (system AnyEnv) (duties False)
      (Pool.Jointly (fun w _ => CacheOwned w)
        (fun w duty _ => HandsOwned w.db duty) (fun _ _ => True)) := by
  refine Pool.preserves_jointly (fun _ => trivial) ?_
  intro w w' ghosts i duty here here' c r others hcache _ hhands hmay _ hnext
  rcases turned_step (fun hno => False.elim hno) hmay hnext with
    ⟨duty', hduty, hturned⟩
  refine ⟨duty', hduty, cacheOwned_turned hcache hhands hturned,
    handsOwned_turned hcache hhands hturned, fun other there _ hother _ => ?_⟩
  exact ⟨hother.kept (ownersKept_turned hturned), trivial⟩

/-- However requests, jobs and expiring keys interleave, and whatever fails:
every value under an order key is an order with its true owner, and
`getOrderById` answers with an order only to the customer that the store knows
as its owner. -/
theorem order_answers_go_to_the_owner {start : World}
    {activities : List Activity} {pool : Tasks} (hstart : CacheOwned start)
    (hreach : Pool.Reaches (system AnyEnv) (busyPool start activities) pool) :
    (forall text value,
      pool.shared.cache.get ("order:" ++ text) = some value ->
        exists json, value = .order json ∧
          Owned pool.shared.db json.order) ∧
    (forall (i : Nat) (tx : Tx) (token : Token) (id : String) (json : OrderJson),
      activities[i]? = some (.task (.request (.getOrderById token id))) ->
      pool.threads[i]? = some ⟨tx, .ret (.response ⟨200, .order json⟩)⟩ ->
        exists row, pool.shared.db.orders.find? json.order.id = some row ∧
          token = .valid row.customerId) := by
  have hinit : Pool.Jointly (fun w (_ : List (Duty × Tx)) => CacheOwned w)
      (fun w duty _ => HandsOwned w.db duty) (fun _ _ => True) start
      (activities.map (fun a => (a.duty, (none : Tx)))) := by
    refine ⟨hstart, fun {i duty here} hi => ?_, fun _ _ _ => trivial⟩
    rw [List.getElem?_map] at hi
    rcases Option.map_eq_some_iff.mp hi with ⟨a, _, heq⟩
    cases heq
    cases a with
    | expiry key => trivial
    | task t =>
        show HandsOwned start.db (dutyOf t)
        unfold dutyOf
        split <;> trivial
  rcases Pool.reaches_covered preserves_owned hinit
    (covered_busyPool False start activities) hreach with
    ⟨ghosts, hjoint, hcovered⟩
  constructor
  · intro text value hget
    rcases hjoint.all _ _ hget with ⟨hkey, howned⟩
    cases value with
    | order json => exact ⟨json, rfl, howned⟩
    | product json =>
        rcases hkey with ⟨other, heq⟩
        exact absurd heq (order_ne_product text other)
  · intro i tx token id json hactivity hthread
    rcases hcovered.follows hthread with ⟨duty, hduty, a, ha, hended⟩
    rw [hactivity] at ha
    cases ha
    rcases hended.answer token id json rfl rfl with ⟨htoken, hhands⟩
    have howned : ValueOwned pool.shared.db (.order json) := by
      have heach := hjoint.each hduty
      rcases hhands with rfl | ⟨found, rfl, hvalue⟩
      · exact heach
      · rw [← hvalue]
        exact heach
    rcases howned with ⟨row, hrow, howner⟩
    exact ⟨row, hrow, by rw [htoken, howner]⟩

def twoReaders : List Activity :=
  [.task (.request (.getOrderById (.valid 1) "1")),
    .task (.request (.getOrderById (.valid 2) "1"))]

/-- The pool in which the first customer has been answered and the second is
about to find the cached order. -/
def firstAnswered : Tasks :=
  (busyPool firstOrdered twoReaders).schedule (exec {}) free [0, 1, 0, 0, 0]

theorem first_reader_owns_the_order :
    exists row, firstAnswered.shared.db.orders.find? 1 = some row ∧
      Token.valid 1 = .valid row.customerId := by
  have hstart : CacheOwned firstOrdered := by
    intro key value hget
    have hempty : firstOrdered.cache = [] := rfl
    rw [hempty] at hget
    cases hget
  have hreach : Pool.Reaches (system AnyEnv)
      (busyPool firstOrdered twoReaders) firstAnswered :=
    Pool.reaches_schedule (S := system AnyEnv)
      (fun c s => ⟨{}, trivial, rfl⟩) (fun _ _ h => enabled_of_free h) _ _
  exact (order_answers_go_to_the_owner hstart hreach).right 0 none (.valid 1)
    "1" _ rfl rfl

end Access
end ExpressEcommerce
