import ExpressEcommerce.Orders.Acceptance
import ExpressEcommerce.Orders.Placed
import ExpressEcommerce.Products.Edits
import Mathlib.Logic.Relation

/-!
# Sequential runs

A run executes tasks one after another, each to completion.  What a single step
does to orders, items and stocks is collected here; every property of whole
runs is an induction over these facts.
-/

namespace ExpressEcommerce
namespace Runs

open Foundation
open Store
open Service
open Orders
open Products

inductive RunTask where
  | order (t : OrderTask)
  | place (token : Token) (items : List ItemRequest)
  | product (t : ProductTask)
  deriving DecidableEq, Repr

def RunTask.task : RunTask -> Task
  | order t => t.task
  | place token items => .request (.createOrder token items)
  | product t => t.task

/-- The step ran to its end: a cancel job that throws in the middle did not. -/
def RunTask.Finishes : RunTask -> Outcome -> Prop
  | order t, out => Completes t out
  | _, _ => True

/-- One step of a run; `Allowed` restricts what may be executed in a world. -/
def Step (ok : Env -> Prop) (Allowed : World -> RunTask -> Prop)
    (w w' : World) : Prop :=
  exists t out, Allowed w t ∧ t.Finishes out ∧ Executes ok w t.task out w'

def Run (ok : Env -> Prop) (Allowed : World -> RunTask -> Prop) :
    World -> World -> Prop :=
  Relation.ReflTransGen (Step ok Allowed)

theorem run_invariant {ok : Env -> Prop} {Allowed : World -> RunTask -> Prop}
    {J : World -> Prop}
    (hstep : forall {w w' : World} {t : RunTask} {out : Outcome}, J w ->
      Allowed w t -> t.Finishes out -> Executes ok w t.task out w' -> J w')
    {start w : World} (hstart : J start) (hrun : Run ok Allowed start w) :
    J w := by
  refine invariant_of_steps ?_ hstart hrun
  rintro w w' hJ ⟨t, out, hallowed, hfinishes, hexec⟩
  exact hstep hJ hallowed hfinishes hexec

/-!
# Items and holdings after a step
-/

theorem held_of_rows {db db' : Database}
    (horders : db'.orders.rows = db.orders.rows)
    (hitems : db'.items.rows = db.items.rows) (keep : Order -> Bool)
    (p : Int) : db'.held keep p = db.held keep p := by
  unfold Database.held Table.sum Table.find?
  rw [horders, hitems]

theorem held_placed {db db' : Database} {d : Draft} {now : Nat}
    (h : Placed db db' d now) (keep : Order -> Bool) (p : Int) :
    db'.held keep p = db.held keep p +
      if keep (d.placed now) then quantityOf d.items p else 0 := by
  unfold Database.held Table.sum
  rw [h.items, List.map_append, List.sum_append]
  congr 1
  · -- the orders of the old items are other orders
    apply congrArg List.sum
    apply List.map_congr_left
    intro i hi
    have hne : i.orderId ≠ d.order.id := by
      intro heq
      have hsome := db.itemOrder i hi
      rw [heq, h.free] at hsome
      cases hsome
    rw [h.order, if_neg hne]
  · have hmap : d.items.map (fun i =>
        if i.productId = p ∧ (db'.orders.find? i.orderId).any keep = true
        then i.quantity else 0) =
        d.items.map (fun i => if keep (d.placed now) = true then
          (if i.productId = p then i.quantity else 0) else 0) := by
      apply List.map_congr_left
      intro i hi
      rw [h.order, if_pos (h.owner i hi), Option.any_some]
      by_cases hp : i.productId = p <;> cases keep (d.placed now) <;>
        simp [hp]
    rw [hmap]
    unfold quantityOf
    split <;> simp

theorem stock_held_createOrder {ok : Env -> Prop} {token : Token}
    {items : List ItemRequest} {w w' : World} {out : Outcome}
    {keep : Order -> Bool}
    (hkeep : forall o, o.status = .pending -> o.deletedAt = none ->
      keep o = true)
    (h : Executes ok w (.request (.createOrder token items)) out w')
    (p : Int) :
    w'.db.stock p + w'.db.held keep p = w.db.stock p + w.db.held keep p := by
  have hgrow : forall {db' : Database}, Grows w.db db' ->
      db'.stock p + db'.held keep p = w.db.stock p + w.db.held keep p := by
    intro db' hgrows
    rw [stock_congr hgrows.products, held_of_rows hgrows.orders hgrows.items]
  rcases executes_createOrder h with ⟨stage, _, hstored, _, _, hsound⟩
  cases stage with
  | committed d now =>
      rcases hstored with ⟨mid, hgrows, hplaced⟩
      have hnew := (hsound d now rfl).right.new
      have hheld := held_placed hplaced keep p
      rw [hkeep (d.placed now) hnew.right.left hnew.right.right, if_pos rfl]
        at hheld
      have hstock := hplaced.stock p
      have hmid := hgrow hgrows
      omega
  | _ => exact hgrow hstored

theorem items_live_of_sound {basket : Basket} {Seen : List Product -> Prop}
    {d : Draft} (h : d.Sound basket Seen) :
    forall i, i ∈ d.items -> i.deletedAt = none := by
  rcases h.lines with ⟨before, _, hmatches⟩
  intro i hi
  rcases exists_left_of_mem hmatches hi with ⟨line, _, hmatch⟩
  exact hmatch.right.right.left

theorem noDeleted_of_rows {db db' : Database}
    (h : db'.items.rows = db.items.rows) (hlive : db.NoDeletedItems) :
    db'.NoDeletedItems := by
  unfold Database.NoDeletedItems
  rw [h]
  exact hlive

theorem noDeleted_step {ok : Env -> Prop} {w w' : World} {t : RunTask}
    {out : Outcome} (hlive : w.db.NoDeletedItems) (hfinishes : t.Finishes out)
    (h : Executes ok w t.task out w') : w'.db.NoDeletedItems := by
  cases t with
  | order t =>
      rcases executes_move hlive hfinishes h with hsame | ⟨o, m, _, hmoved⟩
      · rw [hsame]
        exact hlive
      · rcases hmoved.replaced with ⟨_, _, _, hrep⟩
        exact noDeleted_of_rows (congrArg Table.rows hrep.items) hlive
  | place token items =>
      rcases executes_createOrder h with ⟨stage, _, hstored, _, _, hsound⟩
      cases stage with
      | committed d now =>
          rcases hstored with ⟨mid, hgrows, hplaced⟩
          intro i hi
          rw [hplaced.items, hgrows.items] at hi
          rcases List.mem_append.mp hi with hold | hnew
          · exact hlive i hold
          · exact items_live_of_sound (hsound d now rfl).right i hnew
      | _ => exact noDeleted_of_rows hstored.items hlive
  | product t => exact noDeleted_of_rows (executes_edit h).items hlive

/-!
# A small shop

One customer and two products, without orders, in which single steps can be
evaluated.
-/

def shopDatabase : Database :=
  { Database.empty with
    customers :=
      { rows := [⟨1, "buyer", "buyer@shop", "digest", 0, 0, none⟩]
        seq := 2
        nodup := by decide
        below := by decide }
    products :=
      { rows := [⟨1, "pen", none, 250, 10, 0, 0, none⟩,
          ⟨2, "ink", none, 900, 3, 0, 0, none⟩]
        seq := 3
        nodup := by decide
        below := by decide }
    orderCustomer := by decide
    itemProduct := by decide }

def shop : World where
  db := shopDatabase
  queue := []
  cache := []
  index := []

/-- The world after a task that nothing disturbs. -/
def after (w : World) (t : RunTask) : World :=
  (t.task.perform w).2

theorem executes_after (w : World) (t : RunTask) :
    Executes Healthy w t.task (t.task.perform w).1 (after w t) :=
  executes_perform t.task w

theorem step_after {Allowed : World -> RunTask -> Prop} {w : World}
    {t : RunTask} (hallowed : Allowed w t)
    (hfinishes : t.Finishes (t.task.perform w).1) :
    Step AnyEnv Allowed w (after w t) :=
  ⟨t, _, hallowed, hfinishes, (executes_after w t).anyEnv⟩

/-- The shop after an order of two pens. -/
def shopWithOrder : World :=
  after shop (.place (.valid 1) [⟨1, 2⟩])

theorem run_shopWithOrder {Allowed : World -> RunTask -> Prop}
    (h : Allowed shop (.place (.valid 1) [⟨1, 2⟩])) :
    Run AnyEnv Allowed shop shopWithOrder :=
  .single (step_after h trivial)

/-- The order is patched to shipped. -/
def shipFirst : OrderTask :=
  .patch (.valid 1) "1" (some "shipped")

end Runs
end ExpressEcommerce
