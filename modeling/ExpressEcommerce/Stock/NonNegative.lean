import ExpressEcommerce.Stock.Conservation

/-!
# Stocks below zero

The check of `createOrder`, the validators and the `beforeUpdate` hook keep
stocks from becoming negative in sequential runs.  The restoration of an order
takes its quantities from the stock without a check, so what was given back may
have been sold in the meantime.
-/

namespace ExpressEcommerce
namespace Stock

open Foundation
open Store
open Service
open Orders
open Products
open Runs

def NonNegative (db : Database) : Prop :=
  forall p, 0 <= db.stock p

/-- Requests for orders with positive quantities and distinct products, the
deletion and restoration of orders, status jobs and product requests. -/
def shopSteps : RunTask -> Bool
  | .order (.softDelete _ _) => true
  | .order (.restore _ _) => true
  | .order (.statusJob _) => true
  | .order _ => false
  | .place _ items => items.all (fun line => decide (0 < line.quantity)) &&
      decide (items.map ItemRequest.productId).Nodup
  | .product _ => true

/-- The stock covers what the step takes. -/
def Covers (db : Database) : RunTask -> Prop
  | .order t => forall o m, t.effective db = some (o, m) ->
      forall p, 0 <= db.stock p + m.direction * db.itemTotal o.id p
  | _ => True

/-!
# Placing orders
-/

/-- The quantity of a product in the lines of a request. -/
def requested (lines : List ItemRequest) (p : Int) : Int :=
  (lines.map (fun line =>
    if line.productId = p then line.quantity else 0)).sum

theorem quantityOf_eq_requested {products : List Product}
    {lines : List ItemRequest} {items : List OrderItem}
    (h : List.Forall₂ (Matches products) lines items) (p : Int) :
    quantityOf items p = requested lines p := by
  induction h with
  | nil => rfl
  | cons hmatch _ ih =>
      unfold quantityOf requested at ih ⊢
      rw [List.map_cons, List.map_cons, List.sum_cons, List.sum_cons, ih,
        hmatch.left, hmatch.right.left]

theorem requested_of_absent {lines : List ItemRequest} {p : Int}
    (h : p ∉ lines.map ItemRequest.productId) : requested lines p = 0 := by
  induction lines with
  | nil => rfl
  | cons line rest ih =>
      rw [List.map_cons, List.mem_cons, not_or] at h
      have hrest := ih h.right
      unfold requested at hrest ⊢
      rw [List.map_cons, List.sum_cons, hrest, if_neg (fun heq => h.left heq.symm)]
      rfl

theorem requested_le {lines : List ItemRequest} {bound : Int -> Int}
    (hnodup : (lines.map ItemRequest.productId).Nodup)
    (hle : forall line, line ∈ lines -> line.quantity <= bound line.productId)
    {p : Int} (hp : 0 <= bound p) : requested lines p <= bound p := by
  induction lines with
  | nil => exact hp
  | cons line rest ih =>
      rw [List.map_cons, List.nodup_cons] at hnodup
      have hrest := ih hnodup.right
        (fun other hother => hle other (List.mem_cons_of_mem _ hother))
      by_cases hline : line.productId = p
      · have habsent := hnodup.left
        rw [hline] at habsent
        have hzero := requested_of_absent habsent
        have hhead := hle line List.mem_cons_self
        unfold requested at hzero ⊢
        rw [List.map_cons, List.sum_cons, hzero, if_pos hline, ← hline]
        omega
      · unfold requested at hrest ⊢
        rw [List.map_cons, List.sum_cons, if_neg hline]
        omega

theorem le_stock_of_passes {db : Database} {items : List ItemRequest}
    {line : ItemRequest} (h : Passes (readRows db items) line) :
    line.quantity <= db.stock line.productId := by
  rcases h with ⟨product, hfind, hle⟩
  have hmem : product ∈ db.products.rows :=
    List.mem_of_mem_filter (List.mem_of_mem_filter
      (List.mem_of_find?_eq_some hfind))
  have hrow : db.products.find? line.productId = some product :=
    Table.find?_eq_some_iff.mpr ⟨hmem, findProduct_id hfind⟩
  unfold Database.stock
  rw [hrow]
  exact hle

theorem nonNegative_createOrder {ok : Env -> Prop} {token : Token}
    {items : List ItemRequest} {w w' : World} {out : Outcome}
    (hstock : NonNegative w.db)
    (hnodup : (items.map ItemRequest.productId).Nodup)
    (h : Executes ok w (.request (.createOrder token items)) out w') :
    NonNegative w'.db := by
  rcases executes_createOrder h with ⟨stage, _, hstored, _, _, hsound⟩
  intro p
  cases stage with
  | committed d now =>
      rcases hstored with ⟨mid, hgrows, hplaced⟩
      rcases hsound d now rfl with ⟨⟨htodo, _⟩, hd⟩
      rcases hd.lines with ⟨before, hbefore, hmatches⟩
      rw [htodo, List.append_nil] at hbefore
      have hrequested : requested before p <= w.db.stock p := by
        refine requested_le (by rw [← hbefore]; exact hnodup) ?_ (hstock p)
        intro line hline
        rw [← hbefore] at hline
        have hpasses := hd.passes line hline
        rw [hd.seen] at hpasses
        exact le_stock_of_passes hpasses
      rw [hplaced.stock p, quantityOf_eq_requested hmatches,
        stock_congr hgrows.products]
      omega
  | _ =>
      rw [stock_congr hstored.products]
      exact hstock p

/-!
# Steps and runs
-/

theorem completes_of_shopSteps {t : OrderTask} {out : Outcome}
    (h : shopSteps (.order t) = true) : Completes t out := by
  cases t <;> cases h <;> trivial

theorem nonNegative_step {ok : Env -> Prop} {w w' : World} {t : RunTask}
    {out : Outcome} (hlive : w.db.NoDeletedItems) (hstock : NonNegative w.db)
    (hscope : shopSteps t = true) (hcovers : Covers w.db t)
    (h : Executes ok w t.task out w') : NonNegative w'.db := by
  cases t with
  | order t =>
      rcases executes_effective hlive (completes_of_shopSteps hscope) h with
        hsame | ⟨o, m, heffective, hmoved⟩
      · rw [hsame]
        exact hstock
      · intro p
        rw [hmoved.stock p]
        exact hcovers o m heffective p
  | place token items =>
      have hnodup := (Bool.and_eq_true_iff.mp hscope).right
      exact nonNegative_createOrder hstock (of_decide_eq_true hnodup) h
  | product t =>
      intro p
      rcases (executes_edit h).stock p with hsame | ⟨_, hnew⟩
      · rw [hsame]
        exact hstock p
      · exact hnew

theorem covers_of_nonNegative {w w' : World} {t : RunTask} {out : Outcome}
    (hlive : w.db.NoDeletedItems) (h : Executes Healthy w t.task out w')
    (hstock : NonNegative w'.db) : Covers w.db t := by
  cases t with
  | order t =>
      intro o m heffective p
      rw [← (moved_of_effective hlive heffective h).stock p]
      exact hstock p
  | place token items => trivial
  | product t => trivial

def coveredOnly (w : World) (t : RunTask) : Prop :=
  shopSteps t = true ∧ Covers w.db t

def shopStepsOnly (_ : World) (t : RunTask) : Prop :=
  shopSteps t = true

/-- From a store without negative stocks, a step leads to such a store in all
of its executions exactly when the stock covers what it takes, and a run of
such steps reaches no other store. -/
theorem stock_nonNegative_iff_covers {start : World}
    (hlive : start.db.NoDeletedItems) (hstock : NonNegative start.db) :
    (forall t, shopSteps t = true ->
      ((forall out w', Executes AnyEnv start t.task out w' ->
        NonNegative w'.db) <-> Covers start.db t)) ∧
    (forall w, Run AnyEnv coveredOnly start w -> NonNegative w.db) := by
  constructor
  · intro t hscope
    constructor
    · intro hkept
      have hexec := executes_after start t
      exact covers_of_nonNegative hlive hexec (hkept _ _ hexec.anyEnv)
    · intro hcovers out w' hexec
      exact nonNegative_step hlive hstock hscope hcovers hexec
  · intro w hrun
    have hboth := run_invariant
      (J := fun w => w.db.NoDeletedItems ∧ NonNegative w.db)
      (fun hinv hallowed hfin hexec => ⟨noDeleted_step hinv.left hfin hexec,
        nonNegative_step hinv.left hinv.right hallowed.left hallowed.right
          hexec⟩)
      ⟨hlive, hstock⟩ hrun
    exact hboth.right

/-!
# An order restored after its stock was sold
-/

def inkOrder : RunTask :=
  .place (.valid 1) [⟨2, 3⟩]

def inkDeleted : World :=
  after (after shop inkOrder) (.order (.softDelete (.valid 1) "1"))

def inkSold : World :=
  after inkDeleted inkOrder

def inkRestored : World :=
  after inkSold (.order (.restore (.valid 1) "1"))

theorem restored_order_oversells :
    Run AnyEnv shopStepsOnly shop inkRestored ∧
      (forall p, p ∈ [1, 2] -> 0 <= shop.db.stock p) ∧
      inkRestored.db.stock 2 = -3 := by
  have h1 : Step AnyEnv shopStepsOnly shop (after shop inkOrder) :=
    step_after (t := inkOrder) (by decide : shopSteps _ = true) trivial
  have h2 : Step AnyEnv shopStepsOnly (after shop inkOrder) inkDeleted :=
    step_after (t := .order (.softDelete (.valid 1) "1"))
      (by decide : shopSteps _ = true) trivial
  have h3 : Step AnyEnv shopStepsOnly inkDeleted inkSold :=
    step_after (t := inkOrder) (by decide : shopSteps _ = true) trivial
  have h4 : Step AnyEnv shopStepsOnly inkSold inkRestored :=
    step_after (t := .order (.restore (.valid 1) "1"))
      (by decide : shopSteps _ = true) trivial
  exact ⟨.tail (.tail (.tail (.single h1) h2) h3) h4, by decide, by decide⟩

theorem nonNegative_of_rows {db : Database}
    (h : db.products.rows.all (fun r => decide (0 <= r.stock)) = true) :
    NonNegative db := by
  intro p
  unfold Database.stock
  cases hfind : db.products.find? p with
  | none => exact Int.le_refl 0
  | some r =>
      have hr := List.all_eq_true.mp h r (Table.find?_eq_some_iff.mp hfind).left
      exact of_decide_eq_true hr

/-- The deletion itself is covered, so it leaves no negative stock. -/
theorem deletion_is_covered :
    Covers (after shop inkOrder).db (.order (.softDelete (.valid 1) "1")) ∧
      NonNegative inkDeleted.db := by
  have hlive : (after shop inkOrder).db.NoDeletedItems := by decide
  have hstock : NonNegative (after shop inkOrder).db :=
    nonNegative_of_rows (by decide)
  have hdeleted : NonNegative inkDeleted.db := nonNegative_of_rows (by decide)
  have hcovers := covers_of_nonNegative hlive
    (executes_after (after shop inkOrder)
      (.order (.softDelete (.valid 1) "1"))) hdeleted
  exact ⟨hcovers, ((stock_nonNegative_iff_covers hlive hstock).left _
    (by decide)).mpr hcovers _ _ (executes_after _ _).anyEnv⟩

end Stock
end ExpressEcommerce
