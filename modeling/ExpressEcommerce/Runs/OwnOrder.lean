import ExpressEcommerce.Runs.Footprint

/-!
# The order that a task is about

The tasks that move the stock of an order also delete it or find it deleted, so
that order is not in the cache afterwards.
-/

namespace ExpressEcommerce
namespace Runs

open Foundation
open Store
open Service
open Orders

def Dead (db : Database) (id : Int) : Prop :=
  forall o, db.orders.find? id = some o -> o.deletedAt ≠ none

theorem dead_update {db : Database} {id : Int} {u : Change} (now : Nat)
    (h : Dead db id) (hu : u ≠ .orderDeleted id false) :
    Dead (db.update u now) id := by
  intro o ho
  cases u with
  | orderStatus other status =>
      rw [Database.find?_update_orderStatus] at ho
      split at ho
      · rcases Option.map_eq_some_iff.mp ho with ⟨r, hr, rfl⟩
        exact h r hr
      · exact h o ho
  | orderTotal other total =>
      rw [Database.find?_update_orderTotal] at ho
      split at ho
      · rcases Option.map_eq_some_iff.mp ho with ⟨r, hr, rfl⟩
        exact h r hr
      · exact h o ho
  | orderDeleted other deleted =>
      rw [Database.find?_update_orderDeleted] at ho
      split at ho
      · rename_i hid
        rcases Option.map_eq_some_iff.mp ho with ⟨r, hr, rfl⟩
        cases deleted with
        | true => exact Option.some_ne_none now
        | false =>
            rw [hid] at hu
            exact absurd rfl hu
      · exact h o ho
  | itemFields other patch =>
      dsimp only [Database.update] at ho
      split at ho <;> exact h o ho
  | _ => exact h o ho

theorem dead_marked (db : Database) (id : Int) (now : Nat) :
    Dead (db.update (.orderDeleted id true) now) id := by
  intro o ho
  rw [Database.find?_update_orderDeleted, if_pos rfl] at ho
  rcases Option.map_eq_some_iff.mp ho with ⟨r, _, rfl⟩
  exact Option.some_ne_none now

theorem dead_performs {db db' : Database} {us : List Change} {id : Int}
    (h : Performs db us db')
    (hmark : Dead db id ∨ Change.orderDeleted id true ∈ us)
    (hno : forall u, u ∈ us -> u ≠ .orderDeleted id false) :
    Dead db' id := by
  induction h with
  | nil db =>
      rcases hmark with hdead | hmem
      · exact hdead
      · cases hmem
  | @cons db _ u us now _ _ ih =>
      have hrest : forall v, v ∈ us -> v ≠ .orderDeleted id false :=
        fun v hv => hno v (List.mem_cons_of_mem _ hv)
      rcases hmark with hdead | hmem
      · exact ih (Or.inl (dead_update now hdead (hno u List.mem_cons_self)))
          hrest
      · rcases List.mem_cons.mp hmem with rfl | hmem
        · exact ih (Or.inl (dead_marked db id now)) hrest
        · exact ih (Or.inr hmem) hrest

structure Cancels (id : Int) (us : List Change) : Prop where
  marks : Change.orderDeleted id true ∈ us
  keeps : forall u, u ∈ us -> u ≠ .orderDeleted id false

theorem cancels_of_makes {db : Database} {o : Order} {us : List Change}
    (h : Makes db o .cancel us) : Cancels o.id us := by
  have hstatus : forall u, u ∈ statusChange o .cancelled ->
      u ≠ .orderDeleted o.id false := by
    rintro u hu rfl
    unfold statusChange at hu
    split at hu
    · cases hu
    · cases List.mem_singleton.mp hu
  have hstock : forall items u, u ∈ restockChanges items ->
      u ≠ .orderDeleted o.id false := by
    rintro items u hu rfl
    rcases List.mem_map.mp hu with ⟨i, _, hi⟩
    cases hi
  have hdeleted : forall u, u ∈ [Change.orderDeleted o.id true] ->
      u ≠ .orderDeleted o.id false := by
    rintro u hu rfl
    cases List.mem_singleton.mp hu
  cases h with
  | cancel _ _ =>
      refine ⟨List.mem_append_right _ (List.mem_singleton.mpr rfl), ?_⟩
      intro u hu
      rcases List.mem_append.mp hu with hu | hu
      · rcases List.mem_append.mp hu with hu | hu
        · exact hstock _ u hu
        · exact hstatus u hu
      · exact hdeleted u hu
  | cancelJob _ _ =>
      refine ⟨List.mem_append_left _
        (List.mem_append_right _ (List.mem_singleton.mpr rfl)), ?_⟩
      intro u hu
      rcases List.mem_append.mp hu with hu | hu
      · rcases List.mem_append.mp hu with hu | hu
        · exact hstatus u hu
        · exact hdeleted u hu
      · exact hstock _ u hu

theorem sameRow_performs {db db' : Database} {us : List Change}
    {row : TableName × Int} (h : Performs db us db')
    (hrow : row ∉ us.map Change.row) : SameRow db db' row := by
  induction h with
  | nil db => exact SameRow.refl _ _
  | cons now _ _ ih =>
      rw [List.map_cons, List.mem_cons, not_or] at hrow
      exact (Database.sameRow_update _ _ now hrow.left).trans (ih hrow.right)

theorem row_of_statusChange {o : Order} {status : Status}
    {row : TableName × Int} (h : row ∈ (statusChange o status).map Change.row) :
    row = (.orders, o.id) := by
  unfold statusChange at h
  split at h
  · cases h
  · exact List.mem_singleton.mp h

theorem not_order_of_stock {items : List OrderItem}
    {amount : OrderItem -> Int} {id : Int} :
    (TableName.orders, id) ∉ (items.map (fun i =>
      Change.productStock i.productId (amount i))).map Change.row := by
  intro h
  rcases List.mem_map.mp h with ⟨u, hu, hrow⟩
  rcases List.mem_map.mp hu with ⟨i, _, rfl⟩
  cases hrow

theorem order_of_makes {db : Database} {o : Order} {m : Move}
    {us : List Change} {id : Int} (h : Makes db o m us)
    (hrow : (TableName.orders, id) ∈ us.map Change.row) : id = o.id := by
  cases h with
  | set _ _ _ =>
      cases List.mem_singleton.mp hrow
      rfl
  | cancel _ _ | cancelJob _ _ | reopen _ =>
      simp only [List.map_append, List.mem_append] at hrow
      rcases hrow with (hrow | hrow) | hrow
      all_goals first
        | exact absurd hrow not_order_of_stock
        | cases row_of_statusChange hrow
          rfl
        | cases List.mem_singleton.mp hrow
          rfl

theorem plan_cancelJob (db : Database) (orderId : Int) :
    (OrderTask.cancelJob orderId).plan db = [] ∨
      exists o, Makes db o .cancel ((OrderTask.cancelJob orderId).plan db) ∧
        (OrderTask.cancelJob orderId).plan db =
          statusChange o .cancelled ++ [.orderDeleted o.id true] ++
            restockChanges (db.itemsOf o.id false) := by
  dsimp only [OrderTask.plan, planOn]
  cases ho : db.order? orderId true with
  | none => exact Or.inl rfl
  | some o =>
      dsimp only [cancelPlan]
      split
      · exact Or.inl rfl
      · rename_i hopen
        have hlive := (Database.order?_true_eq_some_iff.mp ho).right
        exact Or.inr ⟨o, .cancelJob hlive hopen, rfl⟩

theorem products_same_or_dead {ok : Env -> Prop} {t : OrderTask}
    {w w' : World} {out : Outcome} {id : Int}
    (h : Executes ok w t.task out w')
    (hown : (TableName.orders, id) ∈ planRows w.db t)
    (hlive : ¬ Dead w.db id) :
    (forall p, SameRow w.db w'.db (.products, p)) ∨ Dead w'.db id := by
  rcases executes_effect h with ⟨performed, todo, heffect⟩
  by_cases hjob : exists orderId, t = .cancelJob orderId
  · rcases hjob with ⟨orderId, rfl⟩
    rcases plan_cancelJob w.db orderId with hnil | ⟨o, hmakes, hplan⟩
    · unfold planRows at hown
      rw [hnil] at hown
      cases hown
    · have hcancels := cancels_of_makes hmakes
      cases order_of_makes hmakes hown
      have hsplit := heffect.plan.symm.trans hplan
      rcases List.append_eq_append_iff.mp hsplit with
        ⟨rest, hfirst, _⟩ | ⟨more, hperformed, _⟩
      · -- the processor stopped before the first stock
        left
        refine fun p => sameRow_performs heffect.performs (fun hrow => ?_)
        have hmem : (TableName.products, p) ∈ (statusChange o .cancelled ++
            [Change.orderDeleted o.id true]).map Change.row := by
          rw [hfirst, List.map_append]
          exact List.mem_append_left _ hrow
        rw [List.map_append, List.mem_append] at hmem
        rcases hmem with hmem | hmem
        · cases row_of_statusChange hmem
        · cases List.mem_singleton.mp hmem
      · right
        refine dead_performs heffect.performs (Or.inr ?_) (fun u hu => ?_)
        · rw [hperformed]
          exact List.mem_append_left _
            (List.mem_append_right _ (List.mem_singleton.mpr rfl))
        · refine hcancels.keeps u ?_
          rw [heffect.plan]
          exact List.mem_append_left _ hu
  · have hcompletes : Completes t out := by
      cases t with
      | cancelJob orderId => exact absurd ⟨orderId, rfl⟩ hjob
      | _ => trivial
    rcases whole_of_completes hcompletes h heffect with rfl | rfl
    · have hplan := heffect.plan
      rw [List.append_nil] at hplan
      unfold planRows at hown
      rw [hplan] at hown
      have hdecided := decided_move t w.db
      rw [hplan] at hdecided
      cases hmove : t.move w.db with
      | none =>
          rw [hmove] at hdecided
          rw [show performed = [] from hdecided] at hown
          cases hown
      | some found =>
          rcases found with ⟨o, m⟩
          rw [hmove] at hdecided
          rcases hdecided with ⟨hfound, hmakes⟩
          cases m with
          | cancel =>
              have hcancels := cancels_of_makes hmakes
              cases order_of_makes hmakes hown
              exact Or.inr (dead_performs heffect.performs
                (Or.inr hcancels.marks) hcancels.keeps)
          | set status =>
              left
              refine fun p => sameRow_performs heffect.performs (fun hrow => ?_)
              cases hmakes
              cases List.mem_singleton.mp hrow
          | reopen =>
              cases order_of_makes hmakes hown
              refine absurd (fun r hr => ?_) hlive
              rw [hfound] at hr
              cases hr
              intro hnone
              have hdeleted : o.deletedAt.isSome = true :=
                guard_of_makes hmakes
              rw [hnone] at hdeleted
              cases hdeleted
    · left
      rw [performs_nil heffect.performs]
      exact fun p => SameRow.refl _ _

end Runs
end ExpressEcommerce
