import ExpressEcommerce.Foundation.Paging
import ExpressEcommerce.Runs.Sequential
import ExpressEcommerce.Service.Symbolic

/-!
# Listings in pages

A listing is answered page by page.  The number of the page and the size of the
pages come from the query string, which may hold any text; both have defaults,
and the number is raised to one.  The size is not, and the database refuses a
negative size as well as windows that start too far away.
-/

namespace ExpressEcommerce
namespace Listings

open Foundation
open Store
open Service
open Runs
open Foundation.Action

inductive Entry where
  | customer (row : CustomerJson)
  | product (row : ProductJson)
  | order (row : OrderJson)
  deriving DecidableEq, Repr

def entriesOf : Rows -> List Entry
  | .customers rows => rows.map .customer
  | .products rows => rows.map .product
  | .orders rows => rows.map .order

def Shows (w : World) (req : Request) (entries : List Entry)
    (info : Pagination) : Prop :=
  exists key rows w', Executes Healthy w (.request req)
    (.response ⟨200, .page key rows info⟩) w' ∧ entriesOf rows = entries

def ShowsPages (w : World) (ask : PageQuery -> Request)
    (limit : Option String) (n : Nat) (pages : List (List Entry)) : Prop :=
  List.Forall₂ (fun k entries => exists info,
    Shows w (ask (numbered limit (k + 1))) entries info) (List.range n) pages

/-- The page of a list that a query string asks for, with a total that need not
be the length of the list. -/
def IsPage (q : PageQuery) (listing : List Entry) (total : Nat)
    (r : Response) : Prop :=
  exists key rows,
    r = sendPaginatedResponse key rows total (paginate q).limit
      (paginate q).page ∧
    entriesOf rows = pageOf (paginate q).limit.toNat
      ((paginate q).page - 1).toNat listing

/-- The texts ask for a window that the database accepts: the size is not
negative, and neither it nor the number of rows before the page is too large. -/
structure Pageable (q : PageQuery) : Prop where
  size : forall s n, q.limit = some s -> parseInt? s = some n ->
    0 <= n ∧ n < windowBound
  start : forall s n, q.page = some s -> parseInt? s = some n ->
    (n - 1) * parseIntOr q.limit 5 < windowBound

/-- All answers to a listing are pages of one list, or errors where the database
refuses the window. -/
def Lists (w : World) (ask : PageQuery -> Request) (listing : List Entry)
    (total : Nat) : Prop :=
  forall q out w', Executes Healthy w (.request (ask q)) out w' ->
    exists r, out = .response r ∧
      (Pageable q -> IsPage q listing total r) ∧
      (¬ Pageable q -> r.status = 500)

/-!
# Windows
-/

theorem offset_eq (q : PageQuery) :
    (paginate q).offset = ((paginate q).page - 1) * (paginate q).limit := rfl

theorem slice_paginate {rho : Type} {q : PageQuery}
    (hlimit : 0 < (paginate q).limit) (rows : List rho) :
    slice (paginate q).limit (paginate q).offset rows =
      pageOf (paginate q).limit.toNat ((paginate q).page - 1).toNat rows := by
  have hpage := page_pos q
  unfold slice pageOf
  rw [offset_eq, Int.toNat_mul (by omega) (by omega)]

theorem parseIntOr_cases (text : Option String) (fallback : Int) :
    (parseIntOr text fallback = fallback ∧
        forall s n, text = some s -> parseInt? s = some n -> n = 0) ∨
      exists s, text = some s ∧
        parseInt? s = some (parseIntOr text fallback) ∧
        parseIntOr text fallback ≠ 0 := by
  unfold parseIntOr
  cases hread : text.bind parseInt? with
  | none =>
      refine Or.inl ⟨rfl, fun s n hs hn => ?_⟩
      rw [hs, Option.bind_some, hn] at hread
      cases hread
  | some n =>
      rcases Option.bind_eq_some_iff.mp hread with ⟨s, hs, hn⟩
      dsimp only
      split
      · rename_i hzero
        refine Or.inl ⟨rfl, fun s' n' hs' hn' => ?_⟩
        rw [hs'] at hs
        cases hs
        rw [hn'] at hn
        cases hn
        exact hzero
      · rename_i hne
        exact Or.inr ⟨s, hs, hn, hne⟩

theorem size_iff (limit : Option String) :
    (forall s n, limit = some s -> parseInt? s = some n ->
        0 <= n ∧ n < windowBound) <->
      0 < parseIntOr limit 5 ∧ parseIntOr limit 5 < windowBound := by
  rcases parseIntOr_cases limit 5 with ⟨hdefault, hzero⟩ | ⟨s, hs, hn, hne⟩
  · rw [hdefault]
    refine ⟨fun _ => by decide, fun _ s n hs hn => ?_⟩
    rw [hzero s n hs hn]
    decide
  · constructor
    · intro h
      have hbounds := h s _ hs hn
      omega
    · intro h s' n' hs' hn'
      rw [hs'] at hs
      cases hs
      rw [hn'] at hn
      cases hn
      omega

theorem start_iff {q : PageQuery} (hlimit : 0 < (paginate q).limit) :
    (forall s n, q.page = some s -> parseInt? s = some n ->
        (n - 1) * parseIntOr q.limit 5 < windowBound) <->
      (paginate q).offset < windowBound := by
  have hbound : 0 < windowBound := by decide
  have hlimit : 0 < parseIntOr q.limit 5 := hlimit
  have hlow : forall n : Int, n <= 1 ->
      (n - 1) * parseIntOr q.limit 5 < windowBound := by
    intro n hn
    have hneg : (n - 1) * parseIntOr q.limit 5 <= 0 :=
      Int.mul_nonpos_of_nonpos_of_nonneg (by omega) (by omega)
    omega
  rw [offset_eq]
  show _ <-> ((if parseIntOr q.page 1 < 1 then 1 else parseIntOr q.page 1) - 1) *
    parseIntOr q.limit 5 < windowBound
  rcases parseIntOr_cases q.page 1 with ⟨hdefault, hzero⟩ | ⟨s, hs, hn, _⟩
  · rw [hdefault]
    refine ⟨fun _ => hlow _ (by decide), fun _ s n hs hn => hlow n ?_⟩
    rw [hzero s n hs hn]
    decide
  · constructor
    · intro h
      split
      · exact hlow 1 (by decide)
      · exact h s _ hs hn
    · intro h s' n' hs' hn'
      rw [hs'] at hs
      cases hs
      rw [hn'] at hn
      cases hn
      split at h
      · exact hlow _ (by omega)
      · exact h

theorem fitsWindow_iff (q : PageQuery) :
    (fitsWindow (paginate q).limit && fitsWindow (paginate q).offset) = true <->
      Pageable q := by
  have hpage := page_pos q
  have hzero := limit_ne_zero q
  unfold fitsWindow
  rw [Bool.and_eq_true, decide_eq_true_iff, decide_eq_true_iff]
  constructor
  · rintro ⟨hlimit, hoffset⟩
    have hpos : 0 < (paginate q).limit := by omega
    exact ⟨(size_iff q.limit).mpr ⟨hpos, hlimit.right⟩,
      (start_iff hpos).mpr hoffset.right⟩
  · intro h
    rcases (size_iff q.limit).mp h.size with ⟨hpos, hlimit⟩
    have hpos : 0 < (paginate q).limit := hpos
    refine ⟨⟨by omega, hlimit⟩, ?_, (start_iff hpos).mp h.start⟩
    rw [offset_eq]
    exact Int.mul_nonneg (by omega) (by omega)

theorem Pageable.limit_pos {q : PageQuery} (h : Pageable q) :
    0 < (paginate q).limit :=
  ((size_iff q.limit).mp h.size).left

theorem isPage_sent {rho : Type} {q : PageQuery} {rows : List rho}
    {entry : rho -> Entry} {shown : Rows} {total sent : Nat}
    (hlimit : 0 < (paginate q).limit) (key : String) (hsent : sent = total)
    (hshown : entriesOf shown =
      (slice (paginate q).limit (paginate q).offset rows).map entry) :
    IsPage q (rows.map entry) total (sendPaginatedResponse key shown sent
      (paginate q).limit (paginate q).page) := by
  refine ⟨key, shown, by rw [hsent], ?_⟩
  rw [hshown, slice_paginate hlimit, pageOf_map]

/-!
# Executing a listing
-/

def pageHandler (q : Query) (send : q.Answer -> Response)
    (failed : String -> Body) : Act Response :=
  tryCatch
    (do
      let found ← query false q
      pure (send found))
    (fun e => respond 500 (failed e))

theorem walk_page {q : Query} {send : q.Answer -> Response}
    {failed : String -> Body} {w : World} {E : String -> World × Tx -> Prop}
    {P : Prop} {Q : Response -> Prop} (haccepted : q.accepted = true <-> P)
    (hQ : P -> Q (send (q.eval w.db))) :
    Action.wp (direct allHealthy) (pageHandler q send failed)
      (fun r _ => (P -> Q r) ∧ (¬ P -> r.status = 500)) E (w, none) := by
  refine (wp_tryCatch _ _ _).mpr ((wp_bind _ _ _).mpr ?_)
  cases hq : q.accepted with
  | true =>
      have hP := haccepted.mp hq
      refine direct_query hq ?_ ?_
      · intro _
        exact (wp_pure _ _).mpr ⟨hQ, fun hno => absurd hP hno⟩
      · intro hmay
        exact absurd hmay not_mayFail_healthy
  | false =>
      have hP : ¬ P := by
        intro hP
        rw [haccepted.mpr hP] at hq
        cases hq
      refine direct_query_refused hq ?_
      intro e
      exact (wp_pure _ _).mpr ⟨fun h => absurd h hP, fun _ => rfl⟩

theorem response_of_wp {w w' : World} {req : Request} {out : Outcome}
    {Q : Response -> Prop}
    (hwp : Action.wp (direct allHealthy) (handle req) (fun r _ => Q r)
      (fun _ _ => False) (w, none))
    (h : Executes Healthy w (.request req) out w') :
    exists r, out = .response r ∧ Q r := by
  have hcode : (Task.request req).code.wp (direct allHealthy)
      (fun out _ => exists r, out = .response r ∧ Q r) (w, none) := by
    refine wp_settle.mpr (wp_mono ?_ ?_ hwp)
    · intro r _ hr
      exact ⟨r, rfl, hr⟩
    · intro e _ hno
      cases hno
  rcases executes_of_wp hcode h with ⟨_, hend⟩
  exact hend

/-!
# Pages of a listing
-/

section Lists

variable {w : World} {ask : PageQuery -> Request} {listing : List Entry}
  {total : Nat}

theorem shows_of_lists (h : Lists w ask listing total) {q : PageQuery}
    {entries : List Entry} {info : Pagination}
    (hshows : Shows w (ask q) entries info) :
    entries = pageOf (paginate q).limit.toNat ((paginate q).page - 1).toNat
      listing := by
  rcases hshows with ⟨key, rows, w', hexec, hrows⟩
  rcases h q _ _ hexec with ⟨r, hout, hpage, hrefused⟩
  cases hout
  by_cases hq : Pageable q
  · rcases hpage hq with ⟨key', rows', hr, hentries⟩
    cases hr
    exact hrows.symm.trans hentries
  · cases hrefused hq

theorem pages_of_lists (h : Lists w ask listing total)
    {limit : Option String} {n : Nat} {pages : List (List Entry)}
    (hpages : ShowsPages w ask limit n pages) :
    pages = (List.range n).map (fun k =>
      pageOf (parseIntOr limit 5).toNat k listing) := by
  have heach : List.Forall₂ (fun k entries =>
      pageOf (parseIntOr limit 5).toNat k listing = entries)
      (List.range n) pages := by
    refine hpages.imp ?_
    rintro k entries ⟨info, hshows⟩
    have hpage := shows_of_lists h hshows
    rw [page_numbered limit (by omega)] at hpage
    rw [hpage, show ((k + 1 : Nat) - 1 : Int).toNat = k by omega]
    rfl
  rw [← List.forall₂_map_left_iff (f := fun k =>
    pageOf (parseIntOr limit 5).toNat k listing)] at heach
  exact (List.forall₂_eq_eq_eq ▸ heach : _ = pages).symm

theorem flatten_of_lists (h : Lists w ask listing total)
    {limit : Option String} (hlimit : 0 < parseIntOr limit 5) {n : Nat}
    (hroom : (listing.length : Int) <= n * parseIntOr limit 5)
    {pages : List (List Entry)} (hpages : ShowsPages w ask limit n pages) :
    pages.flatten = listing := by
  rw [pages_of_lists h hpages, flatten_pages]
  apply List.take_of_length_le
  have hsize : ((parseIntOr limit 5).toNat : Int) = parseIntOr limit 5 :=
    Int.toNat_of_nonneg (by omega)
  rw [← hsize] at hroom
  exact_mod_cast hroom

end Lists

/-!
# Products and customers
-/

inductive Catalogue where
  | products
  | customers
  deriving DecidableEq, Repr

namespace Catalogue

def ask : Catalogue -> PageQuery -> Request
  | products => .getAllProducts
  | customers => .getAllCustomers

def listing (db : Database) : Catalogue -> List Entry
  | products => (latestFirst Product.createdAt db.liveProducts).map
      (fun p => .product p.toJSON)
  | customers => (latestFirst Customer.createdAt db.liveCustomers).map
      (fun c => .customer c.toJSON)

end Catalogue

def Catalogue.query (q : PageQuery) : Catalogue -> Query
  | products => .productPage (paginate q).limit (paginate q).offset
  | customers => .customerPage (paginate q).limit (paginate q).offset

theorem isLeast_ceilDiv {total : Nat} {limit : Int} (hlimit : 0 < limit) :
    IsLeast { n : Int | (total : Int) <= n * limit } (ceilDiv total limit) :=
  isLeast_ceil hlimit

theorem ceilDiv_nonneg {total : Nat} {limit : Int} (hlimit : 0 < limit) :
    0 <= ceilDiv total limit := by
  have hroom : (total : Int) <= ceilDiv total limit * limit :=
    (isLeast_ceilDiv hlimit).left
  by_contra hneg
  have hless : ceilDiv total limit * limit < 0 :=
    Int.mul_neg_of_neg_of_pos (by omega) hlimit
  omega

end Listings
end ExpressEcommerce
