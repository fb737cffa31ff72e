import ExpressEcommerce.Jobs.CancelRetry
import ExpressEcommerce.Runs.Sequential

/-!
# Two ways to cancel an order

The handler `softDeleteOrder` works in a transaction, gives the stock back
first and loads the items that are not deleted; `cancelProcessor` works without
a transaction, gives the stock back last and loads all items.  Where no item is
deleted and nothing fails, the two lead to the same store and cache.
-/

namespace ExpressEcommerce
namespace Jobs

open Foundation
open Store
open Service
open Orders
open Runs
open Foundation.Action

/-!
# The handler
-/

inductive SoftEnds (id : Int) (w w' : World) : Prop where
  | declined (hdb : w'.db = w.db) (hcache : w'.cache = w.cache)
      (hwhy : (forall o, ¬ Cancellable w.db id o) ∨
        acceptsAll w.db (restockChanges (w.db.itemsOf id true)) = false)
  | deleted {o : Order} (ho : Cancellable w.db id o)
      (hperforms : Performs w.db
        (restockChanges (w.db.itemsOf id true) ++ closing o) w'.db)
      (hcache : w'.cache.get (orderKey id) = none)

theorem get_of_dropped {key : String} {cache cache' : Cache}
    (h : Dropped allHealthy key cache cache') : cache'.get key = none := by
  rcases h with rfl | ⟨hmay, _⟩
  · rw [Cache.get_del, if_pos rfl]
  · exact absurd hmay not_mayFail_healthy

theorem walk_decline {id : Int} {w v : World} {log : List Write}
    {r : Response} {E : String -> World × Tx -> Prop} (hdb : v.db = w.db)
    (hcache : v.cache = w.cache)
    (hwhy : (forall o, ¬ Cancellable w.db id o) ∨
      acceptsAll w.db (restockChanges (w.db.itemsOf id true)) = false) :
    Action.wp (direct allHealthy) (do rollback; respond r.status r.body)
      (fun _ s => SoftEnds id w s.1) E (v, some log) := by
  refine (wp_bind _ _ _).mpr (direct_rollback ?_ ?_)
  · exact .declined hdb hcache hwhy
  · intro hmay
    exact absurd hmay not_mayFail_healthy

theorem walk_softDeleteOrder {id : Int} {w : World} {text : String}
    {E : String -> World × Tx -> Prop} (htext : pgInteger? text = some id) :
    Action.wp (direct allHealthy) (softDeleteOrder text)
      (fun _ s => SoftEnds id w s.1) E (w, none) := by
  unfold softDeleteOrder integerParam
  rw [htext]
  refine (wp_bind _ _ _).mpr (direct_begin (fun _ => ?_)
    (fun hmay => absurd hmay not_mayFail_healthy))
  refine (wp_tryCatch _ _ _).mpr ((wp_bind _ _ _).mpr ((wp_pure _ _).mpr
    ((wp_bind _ _ _).mpr (direct_query rfl (fun _ => ?_)
      (fun hmay => absurd hmay not_mayFail_healthy)))))
  have hanswer : Query.eval (w.view (some []) true)
      (.orderByPk id true itemsIncluded) =
        (w.db.order? id true).map (w.db.graph itemsIncluded) := rfl
  rw [hanswer]
  cases hfound : w.db.order? id true with
  | none =>
      refine walk_decline (r := ⟨404, _⟩) rfl rfl (Or.inl ?_)
      intro o ho
      rw [ho.left] at hfound
      cases hfound
  | some o =>
      rcases Database.order?_true_eq_some_iff.mp hfound with ⟨hrow, hlive⟩
      dsimp only [Option.map_some]
      rw [Database.graph_order]
      split
      · rename_i hdelivered
        refine walk_decline (r := ⟨400, _⟩) rfl rfl (Or.inl ?_)
        intro r hr
        rw [hr.left] at hfound
        cases hfound
        exact hr.right hdelivered
      · rename_i hopen
        have ho : Cancellable w.db id o := ⟨hfound, hopen⟩
        have hid := ho.id_eq
        unfold restock
        rw [Database.map_item_graph w.db rfl, hid]
        refine (wp_bind _ _ _).mpr (direct_restock rfl ?_ ?_)
        · intro s1 hwrote1 _
          rcases s1 with ⟨w1, tx1⟩
          refine (wp_bind _ _ _).mpr (direct_saveStatus hwrote1.isSome ?_
            (fun hmay => absurd hmay not_mayFail_healthy))
          intro o1 s2 hid1 hdel1 hwrote2
          rcases s2 with ⟨w2, tx2⟩
          refine (wp_bind _ _ _).mpr (direct_destroy hwrote2.isSome
            (hdel1.trans hlive) ?_
            (fun hmay => absurd hmay not_mayFail_healthy))
          intro _ s3 hwrote3 hdropped
          rcases s3 with ⟨w3, tx3⟩
          rw [hid1] at hwrote3
          rw [hid1, hid] at hdropped
          have hall := hwrote1.trans (hwrote2.trans hwrote3)
          rcases Option.isSome_iff_exists.mp hall.isSome with ⟨log, rfl⟩
          refine (wp_bind _ _ _).mpr (direct_commit ?_
            (fun hmay => absurd hmay not_mayFail_healthy))
          intro _
          exact .deleted ho hall.performs (get_of_dropped hdropped)
        · intro before item after s1 e hitems hwrote1 hcache hstop
          rcases s1 with ⟨w1, tx1⟩
          rcases Option.isSome_iff_exists.mp hwrote1.isSome with ⟨log, rfl⟩
          refine walk_decline (r := ⟨500, _⟩) (hwrote1.apart rfl) hcache
            (Or.inr ?_)
          rcases hstop with hmay | hrefused
          · exact absurd hmay not_mayFail_healthy
          · refine not_acceptsAll_of_refused (isPlanned_restock _) ?_
            refine ⟨restockChanges before, _, restockChanges after, _, ?_,
              hwrote1.performs, hrefused⟩
            rw [hitems]
            exact List.map_append

theorem executes_softDelete {w w' : World} {token : Token} {text : String}
    {id : Int} {c : Customer} {out : Outcome}
    (htoken : tokenCustomer? w.db.customers token = some c)
    (htext : pgInteger? text = some id)
    (h : Executes Healthy w (.request (.softDeleteOrder token text)) out w') :
    SoftEnds id w w' := by
  have hin : ExecutesIn allHealthy w (.request (.softDeleteOrder token text))
      out w' := h
  have hwp : (Task.request (.softDeleteOrder token text)).code.wp
      (direct allHealthy) (fun _ s => SoftEnds id w s.1) (w, none) := by
    refine wp_settle.mpr (direct_authenticate ?_ ?_)
    · intro r _ hwhy
      rcases hwhy with hnone | ⟨_, _, hmay⟩
      · rw [htoken] at hnone
        cases hnone
      · exact absurd hmay not_mayFail_healthy
    · intro _ _
      exact walk_softDeleteOrder htext
  rcases executes_of_wp hwp hin with ⟨_, hend⟩
  exact hend

/-!
# Items are never deleted
-/

def Follows (w w' : World) : Prop :=
  exists (t : RunTask) (out : Outcome), Executes AnyEnv w t.task out w'

def Reached : World -> World -> Prop :=
  Relation.ReflTransGen Follows

theorem items_of_performs {db db' : Database} {us : List Change}
    (hus : forall u, u ∈ us -> isPlanned u = true)
    (h : Performs db us db') : db'.items = db.items := by
  induction h with
  | nil => rfl
  | @cons db _ u _ now _ _ ih =>
      have hfirst : (db.update u now).items = db.items := by
        have hplanned := hus u List.mem_cons_self
        cases u with
        | orderStatus | orderDeleted | productStock => rfl
        | _ => cases hplanned
      exact (ih (fun v hv => hus v (List.mem_cons_of_mem _ hv))).trans hfirst

theorem noDeleted_follows {w w' : World} (hlive : w.db.NoDeletedItems)
    (h : Follows w w') : w'.db.NoDeletedItems := by
  rcases h with ⟨t, out, hexec⟩
  cases t with
  | order t =>
      -- also when a cancel job stops in the middle
      rcases executes_effect hexec with ⟨performed, todo, heffect⟩
      have hus : forall u, u ∈ performed -> isPlanned u = true := by
        intro u hu
        refine isPlanned_plan t w.db u ?_
        rw [heffect.plan]
        exact List.mem_append_left _ hu
      refine noDeleted_of_rows ?_ hlive
      rw [items_of_performs hus heffect.performs]
  | place token items =>
      exact noDeleted_step (t := .place token items) hlive trivial hexec
  | product t => exact noDeleted_step (t := .product t) hlive trivial hexec

theorem noDeleted_reached {start w : World} (hlive : start.db.NoDeletedItems)
    (h : Reached start w) : w.db.NoDeletedItems :=
  invariant_of_steps (J := fun w => w.db.NoDeletedItems) noDeleted_follows
    hlive h

theorem itemsOf_of_noDeleted {db : Database} (h : db.NoDeletedItems)
    (id : Int) : db.itemsOf id true = db.itemsOf id false := by
  unfold Database.itemsOf
  apply List.filter_congr
  intro i hi
  have hi := h i hi
  simp [hi]

/-!
# The two ways
-/

def stripped (o : Order) : Order :=
  { o with updatedAt := 0, deletedAt := o.deletedAt.map (fun _ => 0) }

/-- The same orders but for stamps, the same items and the same stocks, and the
same cache entry of one order. -/
structure SameCancellation (id : Int) (w1 w2 : World) : Prop where
  orders : forall other, (w1.db.orders.find? other).map stripped =
    (w2.db.orders.find? other).map stripped
  items : w1.db.items = w2.db.items
  stock : forall p, w1.db.stock p = w2.db.stock p
  cache : w1.cache.get (orderKey id) = w2.cache.get (orderKey id)

theorem stripped_eq {o : Order} {status : Status} {a b : Option Nat}
    {s t : Nat} (h : a.isSome = b.isSome) :
    stripped { o with status := status, deletedAt := a, updatedAt := s } =
      stripped { o with status := status, deletedAt := b, updatedAt := t } := by
  unfold stripped
  cases a <;> cases b <;> first | rfl | cases h

theorem sameCancellation_of_moved {id : Int} {w w1 w2 : World} {o : Order}
    {m : Move} (h1 : Moved w.db w1.db o m) (h2 : Moved w.db w2.db o m)
    (hcache : w1.cache.get (orderKey id) = w2.cache.get (orderKey id)) :
    SameCancellation id w1 w2 := by
  rcases h1.replaced with ⟨now1, deleted1, hdeleted1, hrep1⟩
  rcases h2.replaced with ⟨now2, deleted2, hdeleted2, hrep2⟩
  refine ⟨?_, hrep1.items.trans hrep2.items.symm, ?_, hcache⟩
  · intro other
    rw [hrep1.find?, hrep2.find?]
    split
    · rw [Option.map_some, Option.map_some,
        stripped_eq (hdeleted1.trans hdeleted2.symm)]
    · rfl
  · intro p
    rw [h1.stock p, h2.stock p]

theorem makes_cancel {db : Database} {id : Int} {o : Order}
    (ho : Cancellable db id o) :
    db.orders.find? o.id = some o ∧
      Makes db o .cancel (restockChanges (db.itemsOf id true) ++ closing o) ∧
      Makes db o .cancel
        (closing o ++ restockChanges (db.itemsOf id false)) := by
  rcases Database.order?_true_eq_some_iff.mp ho.left with ⟨hrow, hlive⟩
  have hid := ho.id_eq
  rw [← hid] at hrow ⊢
  refine ⟨hrow, ?_, .cancelJob hlive ho.right⟩
  unfold closing
  rw [← List.append_assoc]
  exact .cancel hlive ho.right

/-- The two ways of cancelling an order agree in every state that requests and
jobs can lead to. -/
theorem cancellation_paths_agree {start w w1 w2 : World} {id : Int}
    {token : Token} {text : String} {c : Customer} {out : Outcome}
    (hstart : start.db.NoDeletedItems) (hreached : Reached start w)
    (htoken : tokenCustomer? w.db.customers token = some c)
    (htext : pgInteger? text = some id)
    (hjob : Executes Healthy w (.cancelJob id) .returned w1)
    (hrequest : Executes Healthy w (.request (.softDeleteOrder token text))
      out w2) : SameCancellation id w1 w2 := by
  have hlive := noDeleted_reached hstart hreached
  have hitems := itemsOf_of_noDeleted hlive id
  have hjob' : ExecutesIn allHealthy w (.cancelJob id) .returned w1 := hjob
  have hsoft := executes_softDelete htoken htext hrequest
  cases cancelEnds_of_executes hjob' with
  | idle hnone =>
      cases hsoft with
      | declined hdb hcache _ =>
          refine ⟨?_, ?_, ?_, ?_⟩
          · intro other
            rw [hdb]
          · rw [hdb]
          · intro p
            rw [hdb]
          · rw [hcache]
      | deleted ho _ _ => exact absurd ho (hnone _)
  | finished ho hperforms hdropped =>
      have haccepts := (performs_rounds ho (List.append_nil _).symm
        hperforms).right.right.left
      cases hsoft with
      | declined _ _ hwhy =>
          rcases hwhy with hnone | hrefused
          · exact absurd ho (hnone _)
          · rw [hitems, haccepts] at hrefused
            cases hrefused
      | @deleted r hr hperforms' hcache =>
          have hsame := hr.left
          rw [ho.left] at hsame
          cases hsame
          rcases makes_cancel ho with ⟨hrow, hmakes, hmakesJob⟩
          refine sameCancellation_of_moved
            (moved_of_makes hlive hrow hmakesJob hperforms)
            (moved_of_makes hlive hrow hmakes hperforms') ?_
          rw [get_of_dropped hdropped, hcache]

/-- Two pens come back either way. -/
theorem pens_come_back_either_way :
    let job := (Task.perform (.cancelJob 1) shopWithOrder)
    let request := (Task.perform (.request (.softDeleteOrder (.valid 1) "1"))
      shopWithOrder)
    SameCancellation 1 job.2 request.2 ∧ job.2.db.stock 1 = 10 ∧
      (job.2.db.orders.find? 1).map Order.status = some .cancelled := by
  intro job request
  have hjob : Executes Healthy shopWithOrder (.cancelJob 1) job.1 job.2 :=
    executes_perform _ _
  have hreturned : job.1 = .returned := by decide +kernel
  rw [hreturned] at hjob
  have hlive : shopWithOrder.db.NoDeletedItems := by
    unfold Database.NoDeletedItems
    decide +kernel
  have hcustomer : (tokenCustomer? shopWithOrder.db.customers
      (.valid 1)).isSome = true := by decide +kernel
  rcases Option.isSome_iff_exists.mp hcustomer with ⟨c, hc⟩
  have htext : pgInteger? "1" = some 1 := by decide +kernel
  refine ⟨cancellation_paths_agree hlive .refl hc htext hjob
    (executes_perform _ _), ?_, ?_⟩
  · decide +kernel
  · decide +kernel

end Jobs
end ExpressEcommerce
