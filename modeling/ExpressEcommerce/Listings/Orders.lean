import ExpressEcommerce.Foundation.Lists
import ExpressEcommerce.Listings.Pages
import ExpressEcommerce.Orders.Symbolic

/-!
# Listings of orders

The three listings of orders join the items.  The rows of a page are limited per
order, but the total counts the rows of the join: an order with several items
counts several times, and the pages at the end are empty.
-/

namespace ExpressEcommerce
namespace Listings

open Foundation
open Store
open Service
open Orders
open Runs
open Foundation.Action

inductive OrderListing where
  | all (token : Token)
  | byStatus (token : Token) (status : String)
  | byCustomer (token : Token) (id : String)
  deriving DecidableEq, Repr

namespace OrderListing

def ask : OrderListing -> PageQuery -> Request
  | all token => .getAllOrders token
  | byStatus token status => .getOrdersByStatus token status
  | byCustomer token id => .getOrdersByCustomer token id

/-- The orders that are listed, where the request gets as far as the query: the
token is that of a customer, the status is one, and the account is the
customer's own and live. -/
def filter? (db : Database) : OrderListing -> Option OrderFilter
  | all token => (tokenCustomer? db.customers token).map (fun _ => .all)
  | byStatus token status =>
      (tokenCustomer? db.customers token).bind (fun c =>
        (Status.ofText? status).map (.byStatus c.id))
  | byCustomer token id =>
      (tokenCustomer? db.customers token).bind (fun c =>
        if pgInteger? id = some c.id ∧ c.deletedAt = none then
          some (.byCustomer c.id)
        else none)

def included : OrderListing -> Include
  | all _ => everything
  | byStatus _ _ => everything
  | byCustomer _ _ => { items := some true, product := true }

def entry (db : Database) (l : OrderListing) (o : Order) : Entry :=
  .order (match l with
    | all _ => fullOrder (db.graph everything o)
    | byStatus _ _ => renderOrder (some Customer.idNameEmail)
        Product.idNamePrice (db.graph everything o)
    | byCustomer _ _ => renderOrder none Product.idNamePrice
        (db.graph { items := some true, product := true } o))

end OrderListing

def matching (db : Database) (filter : OrderFilter) : List Order :=
  db.liveOrders.filter filter.test

def orderListing (db : Database) (l : OrderListing) (filter : OrderFilter) :
    List Entry :=
  (latestFirst Order.createdAt (matching db filter)).map (l.entry db)

/-- The number of rows of the join. -/
def joinedTotal (db : Database) (l : OrderListing) (filter : OrderFilter) :
    Nat :=
  ((matching db filter).map (db.joinedRows l.included)).sum

/-!
# The totals
-/

theorem joinedRows_eq (db : Database) (l : OrderListing) (o : Order) :
    db.joinedRows l.included o = max 1 (db.itemsOf o.id true).length := by
  have hlength : (db.graph l.included o).items.length =
      (db.itemsOf o.id true).length := by
    rw [← List.length_map ItemGraph.item, db.map_item_graph]
    cases l <;> rfl
  unfold Database.joinedRows
  rw [hlength]

theorem joinedTotal_eq_iff (db : Database) (l : OrderListing)
    (filter : OrderFilter) :
    joinedTotal db l filter = (matching db filter).length <->
      forall o, o ∈ matching db filter ->
        (db.itemsOf o.id true).length <= 1 := by
  have hrows : forall o, 1 <= db.joinedRows l.included o := by
    intro o
    exact Nat.le_max_left _ _
  unfold joinedTotal
  rw [sum_eq_length_iff hrows]
  constructor
  · intro h o ho
    have hone := h o ho
    rw [joinedRows_eq] at hone
    omega
  · intro h o ho
    have hone := h o ho
    rw [joinedRows_eq]
    omega

/-!
# Executing the listings
-/

theorem walk_known {token : Token} {next : Customer -> Act Response}
    {Q : Response -> World × Tx -> Prop} {E : String -> World × Tx -> Prop}
    {w : World} {c : Customer}
    (hc : tokenCustomer? w.db.customers token = some c)
    (hnext : Action.wp (direct allHealthy) (next c) Q E (w, none)) :
    Action.wp (direct allHealthy) (authenticateCustomer token next) Q E
      (w, none) := by
  refine direct_authenticate ?_ ?_
  · rintro r _ (hnone | ⟨_, _, hmay⟩)
    · rw [hc] at hnone
      cases hnone
    · exact absurd hmay not_mayFail_healthy
  · intro c' hc'
    rw [hc] at hc'
    cases hc'
    exact hnext

theorem customer?_of_token {db : Database} {token : Token} {c : Customer}
    (hc : tokenCustomer? db.customers token = some c)
    (hlive : c.deletedAt = none) : db.customer? c.id true = some c := by
  unfold Database.customer?
  rw [find?_of_tokenCustomer? hc, Option.filter_some, hlive]
  rfl

theorem walk_getOrdersByCustomer {w : World} {token : Token}
    {id : String} {c : Customer} {q : PageQuery}
    (hid : pgInteger? id = some c.id)
    (hc : w.db.customer? c.id true = some c) :
    Action.wp (direct allHealthy) (getOrdersByCustomer c.id id q)
      (fun r _ => (Pageable q -> IsPage q
          (orderListing w.db (.byCustomer token id) (.byCustomer c.id))
          (joinedTotal w.db (.byCustomer token id) (.byCustomer c.id)) r) ∧
        (¬ Pageable q -> r.status = 500))
      (fun _ _ => False) (w, none) := by
  unfold getOrdersByCustomer integerParam
  rw [if_neg (not_not_intro (jsInteger?_of_pgInteger? hid)), hid]
  refine (wp_tryCatch _ _ _).mpr ((wp_bind _ _ _).mpr ((wp_pure _ _).mpr ?_))
  refine (wp_bind _ _ _).mpr (direct_query rfl ?_ ?_)
  · intro _
    have hanswer : Query.eval (w.view none false) (.customerByPk c.id true) =
        some c := hc
    rw [hanswer]
    refine (wp_tryCatch _ _ _).mp (walk_page (fitsWindow_iff q) (fun h => ?_))
    refine isPage_sent h.limit_pos "orders" rfl ?_
    exact List.map_map.trans List.map_map
  · intro hmay
    exact absurd hmay not_mayFail_healthy

theorem lists_orders {w : World} {l : OrderListing} {filter : OrderFilter}
    (hfilter : l.filter? w.db = some filter) :
    Lists w l.ask (orderListing w.db l filter)
      (joinedTotal w.db l filter) := by
  intro q out w' hexec
  refine response_of_wp ?_ hexec
  cases l with
  | all token =>
      rcases Option.map_eq_some_iff.mp hfilter with ⟨c, hc, rfl⟩
      refine walk_known hc (walk_page (fitsWindow_iff q) (fun h => ?_))
      refine isPage_sent h.limit_pos "data" rfl ?_
      exact List.map_map.trans List.map_map
  | byStatus token status =>
      rcases Option.bind_eq_some_iff.mp hfilter with ⟨c, hc, hstatus⟩
      rcases Option.map_eq_some_iff.mp hstatus with ⟨s, hs, rfl⟩
      refine walk_known hc ?_
      unfold getOrdersByStatus
      rw [hs]
      refine walk_page (fitsWindow_iff q) (fun h => ?_)
      refine isPage_sent h.limit_pos "orders" rfl ?_
      exact List.map_map.trans List.map_map
  | byCustomer token id =>
      rcases Option.bind_eq_some_iff.mp hfilter with ⟨c, hc, hown⟩
      split at hown
      · rename_i haccount
        cases hown
        refine walk_known hc ?_
        exact walk_getOrdersByCustomer haccount.left
          (customer?_of_token hc haccount.right)
      · cases hown

/-!
# Exact listings
-/

/-- The number of rows before the page is one that JavaScript computes
exactly. -/
def InReach (page limit : Option String) : Prop :=
  forall s n, page = some s -> parseInt? s = some n ->
    (n - 1) * parseIntOr limit 5 < 2 ^ 53

/-- The answers give the number of matching orders, and the pages up to the last
one show every matching order once, none of them empty. -/
def OrdersPaged (w : World) (l : OrderListing) (limit : Option String)
    (filter : OrderFilter) : Prop :=
  forall page, InReach page limit -> forall out w',
    Executes Healthy w (.request (l.ask ⟨page, limit⟩)) out w' ->
    exists key rows info, out = .response ⟨200, .page key rows info⟩ ∧
      info.totalItems = (matching w.db filter).length ∧
      forall pages, ShowsPages w l.ask limit info.totalPages.toNat pages ->
        pages.flatten.Perm ((matching w.db filter).map (l.entry w.db)) ∧
        (matching w.db filter ≠ [] -> forall p, p ∈ pages -> p ≠ [])

theorem perm_orderListing (db : Database) (l : OrderListing)
    (filter : OrderFilter) :
    (orderListing db l filter).Perm
      ((matching db filter).map (l.entry db)) :=
  (List.perm_insertionSort _ _).map _

theorem page_ne_nil_of_lt {listing : List Entry} {limit : Int} {k : Nat}
    (hlimit : 0 < limit)
    (hk : k < (ceilDiv listing.length limit).toNat) :
    pageOf limit.toNat k listing ≠ [] := by
  apply pageOf_ne_nil (by omega)
  by_contra hlength
  have hsize : (limit.toNat : Int) = limit := Int.toNat_of_nonneg (by omega)
  have hroom : (listing.length : Int) <= (k : Int) * limit := by
    rw [← hsize]
    exact_mod_cast Nat.le_of_not_lt hlength
  have hleast : ceilDiv listing.length limit <= k :=
    (isLeast_ceilDiv hlimit).right hroom
  omega

theorem pageable_of_inReach {page limit : Option String}
    (hlimit : 0 < parseIntOr limit 5)
    (hbound : parseIntOr limit 5 < windowBound) (hpage : InReach page limit) :
    Pageable ⟨page, limit⟩ := by
  refine ⟨(size_iff limit).mpr ⟨hlimit, hbound⟩, ?_⟩
  intro s n hs hn
  exact (hpage s n hs hn).trans (by decide)

theorem ordersPaged_of_total {w : World} {l : OrderListing}
    {limit : Option String} {filter : OrderFilter}
    (hlimit : 0 < parseIntOr limit 5)
    (hbound : parseIntOr limit 5 < windowBound)
    (hfilter : l.filter? w.db = some filter)
    (htotal : joinedTotal w.db l filter = (matching w.db filter).length) :
    OrdersPaged w l limit filter := by
  intro page hpage out w' hexec
  have hlists := lists_orders hfilter
  have hperm := perm_orderListing w.db l filter
  have hlength : (orderListing w.db l filter).length =
      (matching w.db filter).length := by
    rw [hperm.length_eq, List.length_map]
  rcases hlists ⟨page, limit⟩ out w' hexec with ⟨r, hout, hsent, _⟩
  rcases hsent (pageable_of_inReach hlimit hbound hpage) with
    ⟨key, rows, hr, _⟩
  subst hr
  refine ⟨key, rows, _, hout, htotal, ?_⟩
  intro pages hpages
  have hpages : ShowsPages w l.ask limit
      (ceilDiv (orderListing w.db l filter).length
        (parseIntOr limit 5)).toNat pages := by
    rw [hlength, ← htotal]
    exact hpages
  constructor
  · rw [flatten_of_lists hlists hlimit ?_ hpages]
    · exact hperm
    · rw [Int.toNat_of_nonneg (ceilDiv_nonneg hlimit)]
      exact (isLeast_ceilDiv hlimit).left
  · intro _ p hp
    rw [pages_of_lists hlists hpages] at hp
    rcases List.mem_map.mp hp with ⟨k, hk, rfl⟩
    exact page_ne_nil_of_lt hlimit (List.mem_range.mp hk)

/-- A listing of orders is exact for a size exactly if the database takes the
size and no order in the listing has two items. -/
theorem orders_paged_iff (w : World) (l : OrderListing)
    (limit : Option String) (filter : OrderFilter)
    (hlimit : 0 < parseIntOr limit 5)
    (hfilter : l.filter? w.db = some filter) :
    OrdersPaged w l limit filter <->
      parseIntOr limit 5 < windowBound ∧
      forall o, o ∈ matching w.db filter ->
        (w.db.itemsOf o.id true).length <= 1 := by
  rw [← joinedTotal_eq_iff w.db l filter]
  constructor
  · intro hpaged
    have hexec := executes_perform (.request (l.ask ⟨none, limit⟩)) w
    rcases hpaged none (fun s n hs => nomatch hs) _ _ hexec with
      ⟨key, rows, info, hout, htotal, _⟩
    rcases lists_orders hfilter ⟨none, limit⟩ _ _ hexec with
      ⟨r, hr, hsent, hrefused⟩
    rw [hout] at hr
    cases hr
    have hpage : Pageable ⟨none, limit⟩ := by
      by_contra hno
      cases hrefused hno
    rcases hsent hpage with ⟨key', rows', hsent, _⟩
    cases hsent
    exact ⟨((size_iff limit).mp hpage.size).right, htotal⟩
  · rintro ⟨hbound, htotal⟩
    exact ordersPaged_of_total hlimit hbound hfilter htotal

/-- An order of two pens and one of a pen and ink. -/
def twoOrders : World :=
  after shopWithOrder (.place (.valid 1) [⟨1, 1⟩, ⟨2, 1⟩])

/-- While there is only the first of them, the listing is exact. -/
theorem single_lines_are_paged :
    OrdersPaged shopWithOrder (.byCustomer (.valid 1) "1") (some "1")
      (.byCustomer 1) := by
  have hone : forall o, o ∈ matching shopWithOrder.db (.byCustomer 1) ->
      (shopWithOrder.db.itemsOf o.id true).length <= 1 := by
    decide +kernel
  exact (orders_paged_iff shopWithOrder (.byCustomer (.valid 1) "1") (some "1")
    (.byCustomer 1) (by decide +kernel) (by decide +kernel)).mpr
    ⟨by decide +kernel, hone⟩

/-- With both of them the total is three, and the third page is empty. -/
theorem joined_rows_are_counted :
    let ask := OrderListing.ask (.all (.valid 1))
    let task : Task := .request (ask (numbered (some "1") 3))
    (matching twoOrders.db .all).length = 2 ∧
      Executes Healthy twoOrders task (task.perform twoOrders).1
        (task.perform twoOrders).2 ∧
      (task.perform twoOrders).1 = .response ⟨200, .page "data" (.orders [])
        { totalItems := 3, currentPage := 3, totalPages := 3,
          perPage := 1 }⟩ := by
  refine ⟨?_, executes_perform _ _, ?_⟩
  · decide +kernel
  · decide +kernel

end Listings
end ExpressEcommerce
