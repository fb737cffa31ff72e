import ExpressEcommerce.Search.Listing
import ExpressEcommerce.Service.Symbolic

/-!
# The index after a start

When the server starts it sends every live product to the search index.  The
documents of these products are then right, whatever they were before.  The
other documents stay: nothing is removed.
-/

namespace ExpressEcommerce
namespace Search

open Foundation
open Store
open Service
open Runs
open Foundation.Action

/-- The start, executed alone. -/
def Starts (ok : Env -> Prop) (w w' : World) : Prop :=
  exists result tx, Prog.Runs (Next ok) syncProductsToElasticsearch (w, none)
    result (w', tx)

/-- One document for each live product, and no other. -/
structure Repaired (w : World) : Prop where
  one : forall p, p ∈ w.db.liveProducts ->
    w.index.filter (fun e => decide (e.1 = p.id)) = [(p.id, p.doc)]
  noOther : forall e, e ∈ w.index ->
    exists p, p ∈ w.db.liveProducts ∧ e.1 = p.id

/-!
# Bulk requests
-/

def documents (products : List Product) : List (Int × ProductDoc) :=
  products.map (fun p => (p.id, p.doc))

theorem readBulk_bulkLines (products : List Product) :
    readBulk (bulkLines products) = documents products := by
  induction products with
  | nil => rfl
  | cons p rest ih =>
      show (p.id, p.doc) :: readBulk (bulkLines rest) = _
      rw [ih]
      rfl

def putAll (index : SearchIndex) (docs : List (Int × ProductDoc)) :
    SearchIndex :=
  docs.foldl (fun ix d => SearchIndex.put ix d.1 d.2) index

theorem filter_put (index : SearchIndex) (id other : Int)
    (doc : ProductDoc) :
    (SearchIndex.put index id doc).filter (fun e => decide (e.1 = other)) =
      if id = other then [(id, doc)]
      else index.filter (fun e => decide (e.1 = other)) := by
  unfold SearchIndex.put SearchIndex.del
  rw [List.filter_cons, List.filter_filter]
  by_cases hid : id = other
  · subst hid
    rw [if_pos (decide_eq_true rfl), if_pos rfl, List.cons_inj_right,
      List.filter_eq_nil_iff]
    intro e _
    simp
  · rw [if_neg (by simpa using hid), if_neg hid]
    apply List.filter_congr
    intro e _
    by_cases he : e.1 = other
    · simp [he, Ne.symm hid]
    · simp [he]

theorem filter_putAll_of_not_mem {docs : List (Int × ProductDoc)}
    {other : Int} (h : other ∉ docs.map Prod.fst) (index : SearchIndex) :
    (putAll index docs).filter (fun e => decide (e.1 = other)) =
      index.filter (fun e => decide (e.1 = other)) := by
  induction docs generalizing index with
  | nil => rfl
  | cons d rest ih =>
      rw [List.map_cons, List.mem_cons, not_or] at h
      show (putAll (SearchIndex.put index d.1 d.2) rest).filter _ = _
      rw [ih h.right, filter_put, if_neg (Ne.symm h.left)]

theorem filter_putAll_of_mem {docs : List (Int × ProductDoc)} {id : Int}
    {doc : ProductDoc} (hnodup : (docs.map Prod.fst).Nodup)
    (h : (id, doc) ∈ docs) (index : SearchIndex) :
    (putAll index docs).filter (fun e => decide (e.1 = id)) =
      [(id, doc)] := by
  induction docs generalizing index with
  | nil => cases h
  | cons d rest ih =>
      rw [List.map_cons, List.nodup_cons] at hnodup
      show (putAll (SearchIndex.put index d.1 d.2) rest).filter _ = _
      rcases List.mem_cons.mp h with rfl | hrest
      · rw [filter_putAll_of_not_mem hnodup.left, filter_put, if_pos rfl]
      · exact ih hnodup.right hrest _

/-!
# Executing the start
-/

theorem walk_ensureIndex {Q : Unit -> World × Tx -> Prop} {w : World}
    {rest : Act Unit} {E : String -> World × Tx -> Prop}
    (h : Action.wp (direct allHealthy) rest Q E (w, none)) :
    Action.wp (direct allHealthy)
      (do
        let indexExists : Bool ←
          Action.perform (I := service) Cmd.indexExists
        if !indexExists then
          Action.perform (I := service) Cmd.createIndex
        rest) Q E (w, none) := by
  refine (wp_bind _ _ _).mpr (direct_healthy (fun env hfault => ?_))
  refine ⟨env.indexed || !w.index.isEmpty, (w, none), ?_, ?_⟩
  · dsimp only [exec]
    rw [hfault]
    rfl
  · dsimp only
    split
    · rename_i hnone
      have hempty : w.index.isEmpty = true := by
        simp at hnone
        simp [hnone.right]
      refine (wp_bind _ _ _).mpr (direct_healthy (fun env' hfault' => ?_))
      refine ⟨(), (w, none), ?_, h⟩
      dsimp only [exec]
      rw [hfault', hempty]
      rfl
    · exact h

theorem walk_start (w : World) :
    Action.wp (direct allHealthy) syncProductsToElasticsearch
      (fun _ s => s.1 = { w with
        index := putAll w.index (documents w.db.liveProducts) })
      (fun _ _ => False) (w, none) := by
  refine (wp_tryCatch _ _ _).mpr (walk_ensureIndex ?_)
  refine (wp_bind _ _ _).mpr (direct_query rfl ?_ ?_)
  · intro _
    show Action.wp _ (if (bulkLines w.db.liveProducts).length > 0 then _
      else _) _ _ _
    split
    · refine direct_healthy (fun env hfault => ?_)
      refine ⟨(), ({ w with
        index := putAll w.index (documents w.db.liveProducts) }, none), ?_,
        rfl⟩
      dsimp only [exec]
      rw [hfault, readBulk_bulkLines]
      rfl
    · rename_i hnone
      -- nothing is sent, and there is nothing to send
      have hempty : w.db.liveProducts = [] := by
        cases hrows : w.db.liveProducts with
        | nil => rfl
        | cons p rest =>
            rw [hrows] at hnone
            exact absurd (Nat.succ_pos _) hnone
      rw [hempty]
      rfl
  · intro hmay
    exact absurd hmay not_mayFail_healthy

theorem world_of_starts {w w' : World} (h : Starts Healthy w w') :
    w' = { w with
      index := putAll w.index (documents w.db.liveProducts) } := by
  rcases h with ⟨result, tx, hrun⟩
  have hend := holds_of_wp (walk_start w) hrun
  cases result with
  | ok _ => exact hend
  | error e => cases hend

/-!
# The repaired index
-/

theorem nodup_documents (db : Database) :
    ((documents db.liveProducts).map Prod.fst).Nodup := by
  have hids : (documents db.liveProducts).map Prod.fst =
      db.liveProducts.map Product.id := List.map_map
  rw [hids]
  exact (List.Sublist.map _ List.filter_sublist).nodup db.products.nodup

theorem mem_ids_documents {products : List Product} {id : Int} :
    id ∈ (documents products).map Prod.fst <->
      exists p, p ∈ products ∧ id = p.id := by
  unfold documents
  rw [List.map_map, List.mem_map]
  constructor
  · rintro ⟨p, hp, rfl⟩
    exact ⟨p, hp, rfl⟩
  · rintro ⟨p, hp, rfl⟩
    exact ⟨p, hp, rfl⟩

theorem mem_iff_mem_filter (index : SearchIndex) (e : Int × ProductDoc) :
    e ∈ index <-> e ∈ index.filter (fun x => decide (x.1 = e.1)) := by
  rw [List.mem_filter]
  simp

/-- After a start without errors the index holds the documents of the live
products and no others exactly if it held no documents of other products. -/
theorem start_repairs_iff (w w' : World) (h : Starts Healthy w w') :
    Repaired w' <-> forall e, e ∈ w.index ->
      exists p, p ∈ w.db.liveProducts ∧ e.1 = p.id := by
  have hw' := world_of_starts h
  subst hw'
  constructor
  · intro hrepaired e he
    by_contra hno
    have hnot : e.1 ∉ (documents w.db.liveProducts).map Prod.fst :=
      fun hmem => hno (mem_ids_documents.mp hmem)
    refine hno (hrepaired.noOther e ?_)
    rw [mem_iff_mem_filter] at he ⊢
    rw [filter_putAll_of_not_mem hnot]
    exact he
  · intro hnone
    constructor
    · intro p hp
      exact filter_putAll_of_mem (nodup_documents w.db)
        (List.mem_map_of_mem hp) w.index
    · intro e he
      by_cases hmem : e.1 ∈ (documents w.db.liveProducts).map Prod.fst
      · exact mem_ids_documents.mp hmem
      · rw [mem_iff_mem_filter, filter_putAll_of_not_mem hmem,
          ← mem_iff_mem_filter] at he
        exact hnone e he

/-- The world after a start that nothing disturbs. -/
def started (w : World) : World :=
  (Prog.eval (exec {}) syncProductsToElasticsearch (w, none)).2.1

theorem starts_started (w : World) : Starts Healthy w (started w) := by
  have hexec : forall c s, Next Healthy s c (exec {} c s).1 (exec {} c s).2 :=
    fun c s => ⟨{}, rfl, rfl⟩
  exact ⟨_, _, Prog.runs_eval hexec syncProductsToElasticsearch (w, none)⟩

/-- An outdated document and a missing one are put right. -/
theorem outdated_document_repaired :
    let w : World := { shop with index := [(1, ⟨"pencil", none, 90, 4⟩)] }
    Repaired (started w) := by
  intro w
  have hnone : forall e, e ∈ w.index ->
      exists p, p ∈ w.db.liveProducts ∧ e.1 = p.id := by
    decide +kernel
  exact (start_repairs_iff w (started w) (starts_started w)).mpr hnone

def removesInk : Cmd -> Bool
  | .deleteDoc id => decide (id = 2)
  | _ => false

/-- The ink is deleted while Elasticsearch is down. -/
def inkDeleted : World :=
  (attempt removesInk (.request (.softDeleteProduct "2")) (started shop)).2

/-- The document of the deleted product is still there after the next start. -/
theorem deleted_document_survives :
    Starts Healthy inkDeleted (started inkDeleted) ∧
      inkDeleted.db.liveProducts.map Product.id = [1] ∧
      (started inkDeleted).index.map Prod.fst = [1, 2] := by
  refine ⟨starts_started _, ?_, ?_⟩
  · decide +kernel
  · decide +kernel

/-- The index then mirrors the catalogue. -/
theorem Repaired.mirrors {w : World} (h : Repaired w) : Mirrors w := by
  intro id doc
  constructor
  · intro hmem
    rcases h.noOther (id, doc) hmem with ⟨p, hp, hid⟩
    have hone := (mem_iff_mem_filter w.index (id, doc)).mp hmem
    rw [show ((id, doc) : Int × ProductDoc).1 = p.id from hid, h.one p hp,
      List.mem_singleton] at hone
    cases hone
    rcases List.mem_filter.mp hp with ⟨hrow, hlive⟩
    exact ⟨p, Table.find?_eq_some_iff.mpr ⟨hrow, rfl⟩,
      Option.isNone_iff_eq_none.mp hlive, rfl⟩
  · rintro ⟨p, hfind, hlive, rfl⟩
    rcases Table.find?_eq_some_iff.mp hfind with ⟨hrow, hid⟩
    have hp : p ∈ w.db.liveProducts := by
      refine List.mem_filter.mpr ⟨hrow, ?_⟩
      rw [hlive]
      rfl
    have hkey : p.id = id := hid
    subst hkey
    rw [mem_iff_mem_filter]
    show (p.id, p.doc) ∈ w.index.filter (fun x => decide (x.1 = p.id))
    rw [h.one p hp]
    exact List.mem_cons_self

end Search
end ExpressEcommerce
