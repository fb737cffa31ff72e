import ExpressEcommerce.Concurrency.Success

/-!
# Overselling

When the demand exceeds the stock of some product, the requests can be
interleaved so that the committed stock becomes negative: all of them read the
product rows first and are then executed one after another.  Together with the
bound by the demand this decides when requests that run side by side are safe.
-/

namespace ExpressEcommerce
namespace Concurrency

open Foundation
open Store
open Service
open Orders
open Products
open Runs
open Stock

/-!
# All requests read first
-/

structure Reading (start : Database) (basket : Basket) (s : World × Tx)
    (stage : Stage) : Prop where
  here : stage.At basket (fun seen => seen = readRows start basket.items)
    s.1 s.2
  db : s.1.db = start
  early : stage.early = true

theorem reading_step {start : Database} {basket : Basket} {s s' : World × Tx}
    {stage : Stage} {c : Cmd} {r : service.Reply c}
    (hcustomers : start.customers = basket.customers)
    (h : Reading start basket s stage)
    (hnot : ¬ exists rows, stage = .read rows) (hmay : stage.may basket c)
    (hnext : Next Healthy s c r s') :
    exists stage', stage.next basket c r stage' ∧
      Reading start basket s' stage' := by
  rcases s with ⟨w, tx⟩
  rcases h with ⟨hat, rfl, hearly⟩
  unfold Stage.may at hmay
  split at hmay
  · rcases next_query hnext with ⟨rfl, rfl | ⟨_, hfail | hrefused⟩⟩
    · exact ⟨.idle, ⟨rfl, _, hcustomers, by rw [hmay]; rfl⟩, hat, rfl, rfl⟩
    · exact absurd hfail not_mayFail_healthy
    · cases hrefused
  · rcases next_begin hnext with ⟨rfl, rfl⟩ | ⟨_, _, hfail⟩
    · exact ⟨.opened, rfl, ⟨rfl, hmay⟩, rfl, rfl⟩
    · exact absurd hfail not_mayFail_healthy
  · rcases hmay with ⟨rfl, rfl⟩
    rcases next_query hnext with ⟨rfl, rfl | ⟨_, hfail | hrefused⟩⟩
    · exact ⟨.read _, rfl, ⟨hat.left, rfl, hat.right⟩, rfl, rfl⟩
    · exact absurd hfail not_mayFail_healthy
    · cases hrefused
  · exact absurd ⟨_, rfl⟩ hnot
  · exact absurd ⟨_, rfl⟩ hnot
  · cases hearly
  · cases hearly
  · cases hearly
  · cases hearly
  · cases hearly
  · cases hearly
  · cases hearly
  · cases hearly
  · rcases next_aside rfl hnext with ⟨hdb, _, htx⟩
    rcases s' with ⟨w', tx'⟩
    subst htx
    exact ⟨stage, rfl, hat.congr hdb, hdb, hearly⟩
  · cases hmay

/-- A thread that has read its rows from the store and written nothing. -/
structure Ready (start : Database) (r : OrderRequest)
    (t : Thread service Tx Outcome) : Prop where
  here : t.here = some []
  follows : t.prog.wp (place (r.basket start.customers))
    (fun _ stage => stage.Ended (r.basket start.customers))
    (.read (readRows start r.items))

/-- The requests before `k` have read their rows. -/
structure ReadBy (start : Database) (reqs : List OrderRequest) (k : Nat)
    (pool : Tasks) : Prop where
  db : pool.shared.db = start
  unlocked : forall t, t ∈ pool.threads -> Unlocked t
  thread : forall {i : Nat} {r : OrderRequest}, reqs[i]? = some r ->
    admitted start r.token r.items = true ->
    exists t, pool.threads[i]? = some t ∧ (i < k -> Ready start r t) ∧
      (k <= i -> t = ⟨none, r.task.code⟩)

section Pools

variable {start : Database} {reqs : List OrderRequest} {k : Nat}
  {pool : Tasks}

theorem token_of_admitted {db : Database} {token : Token}
    {items : List ItemRequest} (h : admitted db token items = true) :
    (tokenCustomer? db.customers token).isSome = true := by
  unfold admitted at h
  rw [Bool.and_eq_true, Bool.and_eq_true] at h
  exact h.left.left

theorem read_rows {r : OrderRequest} {i : Nat}
    (hadmitted : admitted start r.token r.items = true)
    (hdb : pool.shared.db = start)
    (hunlocked : forall t, t ∈ pool.threads -> Unlocked t)
    (hthread : pool.threads[i]? = some ⟨none, r.task.code⟩) :
    exists w t, Pool.Reaches (system Healthy) pool ⟨w, pool.threads.set i t⟩ ∧
      w.db = start ∧ Ready start r t := by
  have hJ : Reading start (r.basket start.customers) (pool.shared, none)
      .idle := ⟨rfl, hdb, rfl⟩
  rcases Pool.reaches_until
    (J := Reading start (r.basket start.customers))
    (fun stage => exists rows, stage = Stage.read rows) healthy_total
    (fun hJ hnot hmay hnext => reading_step rfl hJ hnot hmay hnext)
    (follows_place (r.basket start.customers)) hJ hthread
    (enabled_of_unlocked hunlocked i) with
    ⟨w, tx, prog, stage, hreach, hJ, hwp, hstop | ⟨out, rfl⟩⟩
  · rcases hstop with ⟨rows, rfl⟩
    rcases hJ.here with ⟨htx, hrows, _⟩
    subst hrows
    exact ⟨w, ⟨tx, prog⟩, hreach, hJ.db, htx, hwp⟩
  · -- a request that ends early has no customer
    have hearly := hJ.early
    have htoken := token_of_admitted hadmitted
    cases stage with
    | idle =>
        rw [show tokenCustomer? start.customers r.token = none from hwp]
          at htoken
        cases htoken
    | opened | read => exact absurd hwp id
    | created | building | inserted | totalled | committed | failed =>
        cases hearly

theorem readBy_succ (h : ReadBy start reqs k pool) :
    exists pool', Pool.Reaches (system Healthy) pool pool' ∧
      ReadBy start reqs (k + 1) pool' := by
  by_cases hk : exists r, reqs[k]? = some r ∧
      admitted start r.token r.items = true
  · rcases hk with ⟨r, hr, hadmitted⟩
    rcases h.thread hr hadmitted with ⟨t, ht, _, hcode⟩
    rw [hcode (le_refl k)] at ht
    rcases read_rows hadmitted h.db h.unlocked ht with
      ⟨w, t', hreach, hdb, hready⟩
    have hlt : k < pool.threads.length :=
      (List.getElem?_eq_some_iff.mp ht).1
    refine ⟨_, hreach, hdb, unlocked_set h.unlocked ?_, ?_⟩
    · unfold Unlocked
      rw [hready.here]
      rfl
    · intro i ri hi hadmitted'
      by_cases hik : k = i
      · subst hik
        rw [hr] at hi
        cases hi
        exact ⟨t', List.getElem?_set_self hlt, fun _ => hready,
          fun hle => absurd hle (by omega)⟩
      · rcases h.thread hi hadmitted' with ⟨t0, ht0, hafter, hbefore⟩
        refine ⟨t0, ?_, fun hi => hafter (by omega),
          fun hi => hbefore (by omega)⟩
        show (pool.threads.set k t')[i]? = some t0
        rw [List.getElem?_set_ne hik]
        exact ht0
  · refine ⟨pool, Relation.ReflTransGen.refl, h.db, h.unlocked, ?_⟩
    intro i r hi hadmitted
    have hik : i ≠ k := by
      rintro rfl
      exact hk ⟨r, hi, hadmitted⟩
    rcases h.thread hi hadmitted with ⟨t, ht, hafter, hbefore⟩
    exact ⟨t, ht, fun hi => hafter (by omega), fun hi => hbefore (by omega)⟩

theorem readBy_start (w : World) (reqs : List OrderRequest) :
    ReadBy w.db reqs 0 (startPool w (reqs.map OrderRequest.task)) := by
  refine ⟨rfl, ?_, ?_⟩
  · intro t ht
    rcases List.mem_map.mp ht with ⟨task, _, rfl⟩
    rfl
  · intro i r hi _
    refine ⟨⟨none, r.task.code⟩, ?_, fun hlt => absurd hlt (by omega),
      fun _ => rfl⟩
    show ((reqs.map OrderRequest.task).map _)[i]? = _
    rw [List.getElem?_map, List.getElem?_map, hi]
    rfl

/-!
# Then they are executed one after another
-/

/-- The requests before `k` are placed, the others have read their rows. -/
structure SoldBy (start : Database) (reqs : List OrderRequest) (k : Nat)
    (pool : Tasks) : Prop where
  customers : pool.shared.db.customers = start.customers
  offers : forall p, (pool.shared.db.products.find? p).map offer =
    (start.products.find? p).map offer
  stock : forall p, pool.shared.db.stock p =
    start.stock p - demand start (reqs.take k) p
  unlocked : forall t, t ∈ pool.threads -> Unlocked t
  ready : forall {i : Nat} {r : OrderRequest}, k <= i -> reqs[i]? = some r ->
    admitted start r.token r.items = true ->
    exists t, pool.threads[i]? = some t ∧ Ready start r t

theorem soldBy_of_readBy (h : ReadBy start reqs reqs.length pool) :
    SoldBy start reqs 0 pool := by
  refine ⟨by rw [h.db], fun p => by rw [h.db], fun p => ?_, h.unlocked, ?_⟩
  · rw [h.db]
    show _ = start.stock p - 0
    rw [Int.sub_zero]
  · intro i r _ hi hadmitted
    rcases h.thread hi hadmitted with ⟨t, ht, hafter, _⟩
    exact ⟨t, ht, hafter (List.getElem?_eq_some_iff.mp hi).1⟩

theorem stock_le_of_inRange (hrange : InRange start) (p : Int) :
    start.stock p <= 2147483647 := by
  cases hfind : start.products.find? p with
  | none =>
      unfold Database.stock
      rw [hfind]
      show (0 : Int) <= _
      omega
  | some r =>
      rw [stock_of_find? hfind]
      exact (of_decide_eq_true (hrange p r hfind).left).right

theorem demand_nonneg
    (hwell : forall r, r ∈ reqs -> WellFormed r.items) (p : Int) :
    0 <= demand start reqs p := by
  apply List.sum_nonneg
  intro x hx
  rcases List.mem_map.mp hx with ⟨r, hr, rfl⟩
  split
  · exact requested_nonneg (hwell r hr).positive p
  · exact le_refl _

theorem fits_of_soldBy (hwell : forall r, r ∈ reqs -> WellFormed r.items)
    (hrange : InRange start) (h : SoldBy start reqs k pool)
    (hnonneg : NonNegative pool.shared.db) {r : OrderRequest} (hr : r ∈ reqs)
    (hadmitted : admitted start r.token r.items = true) :
    Fits pool.shared.db (r.basket start.customers)
      (readRows start r.items) := by
  unfold admitted at hadmitted
  rw [Bool.and_eq_true, Bool.and_eq_true, List.all_eq_true] at hadmitted
  rcases hadmitted with ⟨⟨_, hpasses⟩, hvalue⟩
  refine ⟨h.customers, hwell r hr, ?_, ?_, hvalue, fun p => ⟨hnonneg p, ?_⟩⟩
  · intro line hline
    have hany := hpasses line hline
    cases hfound : findProduct (readRows start r.items) line.productId with
    | none =>
        rw [hfound] at hany
        cases hany
    | some product =>
        rw [hfound] at hany
        exact ⟨product, hfound, of_decide_eq_true hany⟩
  · intro id product hproduct
    rcases findProduct_readRows.mp hproduct with ⟨_, hfind, _⟩
    rcases hrange id product hfind with ⟨hstock, hprice⟩
    refine ⟨(of_decide_eq_true hstock).right, hprice, ?_⟩
    rw [isSome_of_offer (h.offers id), hfind]
    rfl
  · have hbound := stock_le_of_inRange hrange p
    have hdemand : 0 <= demand start (reqs.take k) p :=
      demand_nonneg (fun r hr => hwell r (List.mem_of_mem_take hr)) p
    rw [h.stock p]
    omega

theorem place_ready {base : Database} {r : OrderRequest} {i : Nat}
    {t : Thread service Tx Outcome} (hbase : pool.shared.db = base)
    (hfits : Fits base (r.basket start.customers) (readRows start r.items))
    (hadmitted : admitted start r.token r.items = true)
    (hunlocked : forall t, t ∈ pool.threads -> Unlocked t)
    (hthread : pool.threads[i]? = some t) (hready : Ready start r t) :
    exists w t', Pool.Reaches (system Healthy) pool
        ⟨w, pool.threads.set i t'⟩ ∧ Unlocked t' ∧
      w.db.customers = base.customers ∧
      (forall p, (w.db.products.find? p).map offer =
        (base.products.find? p).map offer) ∧
      forall p, w.db.stock p = base.stock p - requested r.items p := by
  rcases t with ⟨here, prog⟩
  have hhere : here = some [] := hready.here
  have hJ : Succeeding base (r.basket start.customers)
      (readRows start r.items) (pool.shared, here)
      (.read (readRows start r.items)) := by
    refine ⟨⟨hhere, rfl, token_of_admitted hadmitted⟩, ?_, rfl⟩
    rw [hbase]
    exact Grows.refl base
  rcases Pool.reaches_until
    (J := Succeeding base (r.basket start.customers) (readRows start r.items))
    (fun _ => False) healthy_total
    (fun hJ _ hmay hnext => succeeding_step hfits hJ hmay hnext)
    hready.follows hJ hthread (enabled_of_unlocked hunlocked i) with
    ⟨w, tx, prog', stage, hreach, hJ', hwp, hstop | ⟨out, rfl⟩⟩
  · exact absurd hstop id
  · have halive := hJ'.alive
    cases stage with
    | idle | opened | failed => cases halive
    | read | created | building | inserted | totalled => exact absurd hwp id
    | committed d now =>
        rcases hJ'.here with ⟨htx, hcomplete, hsound⟩
        rcases hJ'.stored with ⟨mid, hgrows, hplaced⟩
        have hlines := lines_of_complete hcomplete hsound
        refine ⟨w, ⟨tx, .ret out⟩, hreach, ?_,
          hplaced.customers.trans hgrows.customers, fun p => ?_, fun p => ?_⟩
        · show tx.getD [] = []
          rw [show tx = none from htx]
          rfl
        · rw [hplaced.product p, hgrows.products]
        · rw [hplaced.stock p, stock_congr hgrows.products,
            quantityOf_eq_requested hlines]
          rfl

theorem demand_take_succ (start : Database) {r : OrderRequest}
    (hr : reqs[k]? = some r) (p : Int) :
    demand start (reqs.take (k + 1)) p = demand start (reqs.take k) p +
      if admitted start r.token r.items then requested r.items p else 0 := by
  unfold demand
  rw [List.take_add_one, hr, List.map_append, List.sum_append]
  simp

theorem soldBy_succ (hwell : forall r, r ∈ reqs -> WellFormed r.items)
    (hrange : InRange start) (hk : k < reqs.length)
    (h : SoldBy start reqs k pool) (hnonneg : NonNegative pool.shared.db) :
    exists pool', Pool.Reaches (system Healthy) pool pool' ∧
      SoldBy start reqs (k + 1) pool' := by
  have hr : reqs[k]? = some reqs[k] := List.getElem?_eq_getElem hk
  by_cases hadmitted : admitted start reqs[k].token reqs[k].items = true
  · rcases h.ready (le_refl k) hr hadmitted with ⟨t, ht, hready⟩
    have hfits := fits_of_soldBy hwell hrange h hnonneg
      (List.getElem_mem hk) hadmitted
    rcases place_ready rfl hfits hadmitted h.unlocked ht hready with
      ⟨w, t', hreach, hunlocked, hcustomers, hoffers, hstock⟩
    refine ⟨_, hreach, hcustomers.trans h.customers,
      fun p => (hoffers p).trans (h.offers p), fun p => ?_,
      unlocked_set h.unlocked hunlocked, ?_⟩
    · rw [demand_take_succ start hr, if_pos hadmitted, hstock p, h.stock p]
      omega
    · intro i r hi hri hadmitted'
      rcases h.ready (by omega) hri hadmitted' with ⟨t0, ht0, hready0⟩
      refine ⟨t0, ?_, hready0⟩
      show (pool.threads.set k t')[i]? = some t0
      rw [List.getElem?_set_ne (by omega)]
      exact ht0
  · refine ⟨pool, Relation.ReflTransGen.refl, h.customers, h.offers,
      fun p => ?_, h.unlocked, fun hi => h.ready (by omega)⟩
    rw [demand_take_succ start hr, if_neg hadmitted, h.stock p]
    omega

end Pools

/-!
# When requests side by side are safe
-/

/-- If no reachable store oversells, all admitted requests can be placed
together. -/
theorem soldBy_all {w : World} {reqs : List OrderRequest}
    (hwell : forall r, r ∈ reqs -> WellFormed r.items)
    (hrange : InRange w.db)
    (hsafe : forall pool, Pool.Reaches (system AnyEnv)
      (startPool w (reqs.map OrderRequest.task)) pool ->
        NonNegative pool.shared.db) :
    exists pool, Pool.Reaches (system AnyEnv)
        (startPool w (reqs.map OrderRequest.task)) pool ∧
      SoldBy w.db reqs reqs.length pool := by
  let first := startPool w (reqs.map OrderRequest.task)
  rcases Pool.reaches_stages (S := system Healthy) reqs.length
    (fun _ _ _ h => readBy_succ h) (readBy_start w reqs) with
    ⟨mid, hmid, hread⟩
  have hstep : forall k pool, k < reqs.length ->
      (Pool.Reaches (system AnyEnv) first pool ∧ SoldBy w.db reqs k pool) ->
      exists pool', Pool.Reaches (system AnyEnv) pool pool' ∧
        (Pool.Reaches (system AnyEnv) first pool' ∧
          SoldBy w.db reqs (k + 1) pool') := by
    rintro k pool hk ⟨hpool, hsold⟩
    rcases soldBy_succ hwell hrange hk hsold (hsafe pool hpool) with
      ⟨pool', hreach, hsold'⟩
    have hreach := reaches_anyEnv hreach
    exact ⟨pool', hreach, hpool.trans hreach, hsold'⟩
  rcases Pool.reaches_stages reqs.length hstep
    ⟨reaches_anyEnv hmid, soldBy_of_readBy hread⟩ with ⟨last, _, hlast⟩
  exact ⟨last, hlast⟩

theorem no_oversell_iff_demand_le {w : World} {reqs : List OrderRequest}
    (hwell : forall r, r ∈ reqs -> WellFormed r.items)
    (hrange : InRange w.db) :
    (forall pool, Pool.Reaches (system AnyEnv)
      (startPool w (reqs.map OrderRequest.task)) pool ->
        NonNegative pool.shared.db) <->
      forall p, demand w.db reqs p <= w.db.stock p := by
  constructor
  · intro hsafe p
    rcases soldBy_all hwell hrange hsafe with ⟨pool, hreach, hsold⟩
    have hnonneg := hsafe pool hreach p
    rw [hsold.stock p, List.take_length] at hnonneg
    omega
  · intro hdemand pool hreach p
    have hbound := stock_ge_of_reaches
      (fun r hr => (hwell r hr).positive) hreach p
    have hp := hdemand p
    omega

/-- A request for all bottles of ink. -/
def allInk : OrderRequest :=
  ⟨.valid 1, [⟨2, 3⟩]⟩

/-- Both requests read the rows before either of them takes the ink. -/
def inkTwice : Tasks :=
  afterTurns shop [allInk.task, allInk.task]
    ([0, 0, 0, 1, 1, 1] ++ List.replicate 12 0 ++ List.replicate 12 1)

theorem same_ink_sold_twice :
    NonNegative shop.db ∧ WellFormed allInk.items ∧
      Pool.Reaches (system AnyEnv) (startPool shop [allInk.task, allInk.task])
        inkTwice ∧
      inkTwice.shared.db.stock 2 = -3 :=
  ⟨nonNegative_of_rows (by decide), ⟨by decide, by decide⟩,
    reaches_afterTurns trivial _ _ _, by decide⟩

theorem inRange_of_rows {db : Database}
    (h : db.products.rows.all (fun r => Database.fitsInteger r.stock &&
      Database.fitsDecimal r.price) = true) : InRange db := by
  intro p r hfind
  have hr := List.all_eq_true.mp h r (Table.find?_eq_some_iff.mp hfind).left
  exact Bool.and_eq_true_iff.mp hr

def penRequests : List OrderRequest :=
  [⟨.valid 1, [⟨1, 4⟩]⟩, ⟨.valid 1, [⟨1, 6⟩]⟩]

def pensTogether : Tasks :=
  afterTurns shop (penRequests.map OrderRequest.task)
    ([0, 0, 0, 1, 1, 1] ++ List.replicate 12 0 ++ List.replicate 12 1)

theorem all_pens_sold_once :
    NonNegative pensTogether.shared.db ∧
      pensTogether.shared.db.stock 1 = 0 := by
  have hwell : forall r, r ∈ penRequests -> WellFormed r.items := by
    intro r hr
    have hall : forall r, r ∈ penRequests ->
        (forall line, line ∈ r.items -> 0 < line.quantity) ∧
          (r.items.map ItemRequest.productId).Nodup := by decide
    exact ⟨(hall r hr).left, (hall r hr).right⟩
  have hstart : NonNegative shop.db := nonNegative_of_rows (by decide)
  have hdemand : forall p, demand shop.db penRequests p <=
      shop.db.stock p := by
    intro p
    by_cases hp : 1 = p
    · subst hp
      decide
    · have hzero : demand shop.db penRequests p = 0 := by
        simp [demand, penRequests, requested, hp]
      rw [hzero]
      exact hstart p
  exact ⟨(no_oversell_iff_demand_le hwell (inRange_of_rows (by decide))).mpr
    hdemand _ (reaches_afterTurns trivial _ _ _), by decide⟩

end Concurrency
end ExpressEcommerce
