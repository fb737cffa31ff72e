import ExpressEcommerce.Orders.Moves

/-!
# When a plan goes through

Without failures a plan is performed exactly when the store accepts all of its
statements.  Only the stocks decide that, so it can be computed from the store
before the task.
-/

namespace ExpressEcommerce
namespace Orders

open Foundation
open Store
open Service

def acceptsAll : Database -> List Change -> Bool
  | _, [] => true
  | db, u :: us => db.acceptsChange u && acceptsAll (db.update u 0) us

def isPlanned : Change -> Bool
  | .orderStatus _ _ => true
  | .orderDeleted _ _ => true
  | .productStock _ _ => true
  | _ => false

def SameStocks (db db' : Database) : Prop :=
  forall p, (db'.products.find? p).map Product.stock =
    (db.products.find? p).map Product.stock

theorem acceptsChange_of_stock {db db' : Database} {u : Change}
    (hu : isPlanned u = true)
    (h : forall p, u.row = (.products, p) ->
      (db'.products.find? p).map Product.stock =
        (db.products.find? p).map Product.stock) :
    db'.acceptsChange u = db.acceptsChange u := by
  cases u with
  | productStock id amount =>
      have hid := h id rfl
      unfold Database.acceptsChange
      cases hfind : db.products.find? id <;>
        cases hfind' : db'.products.find? id <;> simp_all
  | orderStatus | orderDeleted => rfl
  | _ => cases hu

theorem sameStock_update {db db' : Database} {u : Change} {p : Int}
    (hu : isPlanned u = true)
    (h : (db'.products.find? p).map Product.stock =
      (db.products.find? p).map Product.stock) (now now' : Nat) :
    ((db'.update u now').products.find? p).map Product.stock =
      ((db.update u now).products.find? p).map Product.stock := by
  cases u with
  | productStock id amount =>
      rw [Database.find?_update_productStock,
        Database.find?_update_productStock]
      cases hfind : db.products.find? p <;>
        cases hfind' : db'.products.find? p <;> split <;> simp_all
  | orderStatus | orderDeleted => exact h
  | _ => cases hu

theorem acceptsChange_of_sameStocks {db db' : Database} {u : Change}
    (hu : isPlanned u = true) (h : SameStocks db db') :
    db'.acceptsChange u = db.acceptsChange u :=
  acceptsChange_of_stock hu (fun p _ => h p)

theorem sameStocks_update {db db' : Database} {u : Change}
    (hu : isPlanned u = true) (h : SameStocks db db') (now now' : Nat) :
    SameStocks (db.update u now) (db'.update u now') :=
  fun p => sameStock_update hu (h p) now now'

theorem sameStocks_of_products {db db' : Database}
    (h : db'.products = db.products) : SameStocks db db' := by
  intro p
  rw [h]

theorem acceptsAll_of_sameStocks {db db0 : Database} {us : List Change}
    (hus : forall u, u ∈ us -> isPlanned u = true) (h0 : SameStocks db db0) :
    acceptsAll db0 us = acceptsAll db us := by
  induction us generalizing db db0 with
  | nil => rfl
  | cons u rest ih =>
      have hplanned := hus _ List.mem_cons_self
      unfold acceptsAll
      rw [acceptsChange_of_sameStocks hplanned h0,
        ih (fun v hv => hus v (List.mem_cons_of_mem _ hv))
          (sameStocks_update hplanned h0 0 0)]

theorem acceptsAll_append {db : Database} {us more : List Change}
    (h : acceptsAll db (us ++ more) = true) : acceptsAll db us = true := by
  induction us generalizing db with
  | nil => rfl
  | cons u rest ih =>
      rw [List.cons_append] at h
      unfold acceptsAll at h ⊢
      rcases Bool.and_eq_true_iff.mp h with ⟨hu, hrest⟩
      rw [hu, ih hrest]
      rfl

theorem acceptsAll_of_performs {db db0 db' : Database} {us : List Change}
    (hus : forall u, u ∈ us -> isPlanned u = true) (h0 : SameStocks db db0)
    (h : Performs db us db') : acceptsAll db0 us = true := by
  induction h generalizing db0 with
  | nil => rfl
  | cons now hu _ ih =>
      have hplanned := hus _ List.mem_cons_self
      unfold acceptsAll
      rw [acceptsChange_of_sameStocks hplanned h0, hu, Bool.true_and]
      exact ih (fun u hin => hus u (List.mem_cons_of_mem _ hin))
        (sameStocks_update hplanned h0 now 0)

theorem not_acceptsAll_of_refused {db : Database} {us : List Change}
    (hus : forall u, u ∈ us -> isPlanned u = true) (h : Refused db us) :
    acceptsAll db us = false := by
  rcases h with ⟨before, u, rest, mid, rfl, hperforms, hrefused⟩
  have hgeneral : forall db0, SameStocks db db0 ->
      acceptsAll db0 (before ++ u :: rest) = false := by
    induction hperforms with
    | nil db =>
        intro db0 h0
        have hplanned := hus u (by simp)
        rw [List.nil_append]
        unfold acceptsAll
        rw [acceptsChange_of_sameStocks hplanned h0, hrefused]
        rfl
    | cons now hfirst _ ih =>
        intro db0 h0
        have hplanned := hus _ (List.mem_cons_self)
        rw [List.cons_append]
        unfold acceptsAll
        rw [ih (fun v hv => hus v (List.mem_cons_of_mem _ hv)) hrefused _
          (sameStocks_update hplanned h0 now 0), Bool.and_false]
  exact hgeneral db (fun _ => rfl)

theorem isPlanned_restock (items : List OrderItem) :
    forall u, u ∈ restockChanges items -> isPlanned u = true := by
  intro u hu
  rcases List.mem_map.mp hu with ⟨i, _, rfl⟩
  rfl

theorem isPlanned_plan (t : OrderTask) (db : Database) :
    forall u, u ∈ t.plan db -> isPlanned u = true := by
  have hdecided := decided_move t db
  have hstatus : forall (o : Order) (status : Status) (u : Change),
      u ∈ statusChange o status -> isPlanned u = true := by
    intro o status u hu
    unfold statusChange at hu
    split at hu
    · cases hu
    · rw [List.mem_singleton.mp hu]
      rfl
  cases hmove : t.move db with
  | none =>
      rw [hmove] at hdecided
      intro u hu
      rw [hdecided] at hu
      cases hu
  | some found =>
      rcases found with ⟨o, m⟩
      rw [hmove] at hdecided
      generalize t.plan db = us at hdecided
      intro u hu
      cases hdecided.right with
      | set _ _ _ =>
          rw [List.mem_singleton.mp hu]
          rfl
      | cancel _ _ | cancelJob _ _ | reopen _ =>
          simp only [List.mem_append, restockChanges, takeChanges,
            List.mem_map, List.mem_singleton] at hu
          rcases hu with (hu | hu) | hu
          all_goals first
            | exact hstatus _ _ _ hu
            | rcases hu with ⟨_, _, rfl⟩
              rfl

/-!
# Effective moves
-/

def OrderTask.effective (db : Database) (t : OrderTask) :
    Option (Order × Move) :=
  if acceptsAll db (t.plan db) then t.move db else none

theorem move_of_effective {t : OrderTask} {db : Database} {o : Order}
    {m : Move} (h : t.effective db = some (o, m)) :
    acceptsAll db (t.plan db) = true ∧ t.move db = some (o, m) := by
  unfold OrderTask.effective at h
  split at h
  · exact ⟨by assumption, h⟩
  · cases h

/-- A task that runs alone leaves the store as it is or performs its plan. -/
theorem executes_performs {ok : Env -> Prop} {t : OrderTask} {w w' : World}
    {out : Outcome} (hdone : Completes t out)
    (h : Executes ok w t.task out w') :
    w'.db = w.db ∨
      exists o m, t.effective w.db = some (o, m) ∧
        Performs w.db (t.plan w.db) w'.db := by
  rcases executes_effect h with ⟨performed, todo, heffect⟩
  have hperforms := heffect.performs
  rcases whole_of_completes hdone h heffect with rfl | rfl
  · have hplan := heffect.plan
    rw [List.append_nil] at hplan
    rw [← hplan] at hperforms
    have hdecided := decided_move t w.db
    have haccepts := acceptsAll_of_performs (isPlanned_plan t w.db)
      (fun _ => rfl) hperforms
    unfold OrderTask.effective
    rw [if_pos haccepts]
    cases hmove : t.move w.db with
    | none =>
        rw [hmove] at hdecided
        rw [hdecided] at hperforms
        exact Or.inl (performs_nil hperforms)
    | some found => exact Or.inr ⟨found.1, found.2, rfl, hperforms⟩
  · exact Or.inl (performs_nil hperforms)

theorem performs_of_effective {t : OrderTask} {w w' : World} {out : Outcome}
    {o : Order} {m : Move} (heffective : t.effective w.db = some (o, m))
    (h : Executes Healthy w t.task out w') :
    Performs w.db (t.plan w.db) w'.db := by
  have haccepts := (move_of_effective heffective).left
  rcases executes_effect h with ⟨performed, todo, heffect⟩
  have hwhole : todo = [] := by
    rcases heffect.blocked with hnil | hfail | hrefused
    · exact hnil
    · exact absurd hfail not_mayFail_healthy
    · rw [not_acceptsAll_of_refused (isPlanned_plan t w.db) hrefused]
        at haccepts
      cases haccepts
  have hplan := heffect.plan
  rw [hwhole, List.append_nil] at hplan
  rw [hplan]
  exact heffect.performs

theorem makes_of_effective {t : OrderTask} {db : Database} {o : Order}
    {m : Move} (h : t.effective db = some (o, m)) :
    db.orders.find? o.id = some o ∧ Makes db o m (t.plan db) := by
  have hdecided := decided_move t db
  rw [(move_of_effective h).right] at hdecided
  exact hdecided

theorem applied_of_effective {t : OrderTask} {db db' : Database} {o : Order}
    {m : Move} (h : t.effective db = some (o, m))
    (hperforms : Performs db (t.plan db) db') :
    exists paranoid,
      Applied db db' o o.status m (db.itemsOf o.id paranoid) := by
  rcases makes_of_effective h with ⟨hfound, hmakes⟩
  exact applied_of_makes hmakes hfound db.itemProduct hperforms

/-- A task that runs alone leaves the store as it is or makes its move. -/
theorem executes_effective {ok : Env -> Prop} {t : OrderTask} {w w' : World}
    {out : Outcome} (hitems : w.db.NoDeletedItems)
    (hdone : Completes t out) (h : Executes ok w t.task out w') :
    w'.db = w.db ∨
      exists o m, t.effective w.db = some (o, m) ∧ Moved w.db w'.db o m := by
  rcases executes_performs hdone h with hsame | ⟨o, m, he, hperforms⟩
  · exact Or.inl hsame
  · rcases makes_of_effective he with ⟨hfound, hmakes⟩
    exact Or.inr ⟨o, m, he, moved_of_makes hitems hfound hmakes hperforms⟩

theorem executes_move {ok : Env -> Prop} {t : OrderTask} {w w' : World}
    {out : Outcome} (hitems : w.db.NoDeletedItems)
    (hdone : Completes t out) (h : Executes ok w t.task out w') :
    w'.db = w.db ∨
      exists o m, t.move w.db = some (o, m) ∧ Moved w.db w'.db o m := by
  rcases executes_effective hitems hdone h with hsame | ⟨o, m, he, hmoved⟩
  · exact Or.inl hsame
  · exact Or.inr ⟨o, m, (move_of_effective he).right, hmoved⟩

theorem moved_of_effective {t : OrderTask} {w w' : World} {out : Outcome}
    {o : Order} {m : Move} (hitems : w.db.NoDeletedItems)
    (heffective : t.effective w.db = some (o, m))
    (h : Executes Healthy w t.task out w') : Moved w.db w'.db o m := by
  rcases makes_of_effective heffective with ⟨hfound, hmakes⟩
  exact moved_of_makes hitems hfound hmakes
    (performs_of_effective heffective h)

end Orders
end ExpressEcommerce
