import ExpressEcommerce.Orders.Draft

/-!
# The effect of placing an order

What a request for an order that runs alone leaves behind in the store and in
the queue.
-/

namespace ExpressEcommerce
namespace Orders

open Foundation
open Store
open Service

def readRows (db : Database) (items : List ItemRequest) : List Product :=
  Query.eval db (.productsById (items.map ItemRequest.productId))

/-- The store while a request runs alone: only sequences move until the commit
applies the log. -/
def Stored (start : Database) (db : Database) : Stage -> Prop
  | .committed d now => exists mid, Grows start mid ∧ Placed mid db d now
  | _ => Grows start db

/-- The queue while a request runs alone.  The job of an order that is rolled
back stays. -/
def Queued (ok : Env -> Prop) (start w : World) (stage : Stage) : Prop :=
  match stage.order?, stage.scheduled with
  | some o, true => w.queue = start.queue.add ⟨o.id, .processing⟩ ∨
      w.queue = start.queue ∧ MayFail ok
  | some _, false => w.queue = start.queue
  | none, _ => w.queue = start.queue ∨ stage.early = false ∧
      exists id, start.db.orders.seq <= id ∧ id < w.db.orders.seq ∧
        w.queue = start.queue.add ⟨id, .processing⟩

structure Alone (ok : Env -> Prop) (basket : Basket) (start : World)
    (s : World × Tx) (stage : Stage) : Prop where
  here : stage.At basket (fun rows => rows = readRows start.db basket.items)
    s.1 s.2
  stored : Stored start.db s.1.db stage
  queued : Queued ok start s.1 stage
  key : forall o, stage.order? = some o ->
    start.db.orders.seq <= o.id ∧ o.id < s.1.db.orders.seq

theorem queue_add_idem (q : Queue) (job : Job) :
    (q.add job).add job = q.add job := by
  have hmem : (q.add job).any (fun e => decide (e.job = job)) = true := by
    unfold Queue.add
    split
    · assumption
    · simp
  exact if_pos hmem

section Passages

variable {ok : Env -> Prop} {start w w' : World} {stage stage' : Stage}

theorem stored_passage {base : Database} (h : Stored base w.db stage)
    (hpassage : Passage ok w w' stage stage') :
    Stored base w'.db stage' := by
  cases hpassage with
  | stay hdb _ =>
      rw [hdb]
      exact h
  | quiet hdb _ hstage =>
      cases hstage with
      | fail hopen isOpen =>
          cases stage with
          | committed d now => cases hopen
          | _ => exact h.trans hdb
      | start hearly hearly' =>
          cases stage <;> cases hearly <;> cases stage' <;> cases hearly' <;>
            exact h.trans hdb
      | take d item now => exact h.trans hdb
      | total d now => exact h.trans hdb
  | newOrder hdb _ _ _ =>
      show Grows base w'.db
      rw [hdb]
      exact h.trans (grows_reserve_orders _)
  | newItem _ hdb _ _ =>
      show Grows base w'.db
      rw [hdb]
      exact h.trans (grows_reserve_items _)
  | first hdb _ =>
      rw [hdb]
      exact h
  | again hdb _ =>
      rw [hdb]
      exact h
  | commit hfresh hdb _ =>
      refine ⟨w.db, h, ?_⟩
      rw [hdb]
      exact placed_of_fresh hfresh

theorem orderSeq_passage (hpassage : Passage ok w w' stage stage') :
    w.db.orders.seq <= w'.db.orders.seq := by
  cases hpassage with
  | quiet hdb _ _ => exact hdb.orderSeq
  | newOrder hdb _ _ _ =>
      rw [hdb]
      exact (grows_reserve_orders _).orderSeq
  | newItem _ hdb _ _ =>
      rw [hdb]
      exact (grows_reserve_items _).orderSeq
  | commit hfresh hdb _ =>
      rw [hdb]
      exact (placed_of_fresh hfresh).seq.left.ge
  | stay hdb _ | first hdb _ | again hdb _ => rw [hdb]

theorem key_passage {lower : Int} (hlower : lower <= w.db.orders.seq)
    (h : forall o, stage.order? = some o ->
      lower <= o.id ∧ o.id < w.db.orders.seq)
    (hpassage : Passage ok w w' stage stage') :
    forall o, stage'.order? = some o ->
      lower <= o.id ∧ o.id < w'.db.orders.seq := by
  have hseq := orderSeq_passage hpassage
  have hkeep : stage'.order? = stage.order? ->
      forall o, stage'.order? = some o ->
        lower <= o.id ∧ o.id < w'.db.orders.seq := by
    intro hsame o ho
    rcases h o (hsame.symm.trans ho) with ⟨hle, hlt⟩
    exact ⟨hle, lt_of_lt_of_le hlt hseq⟩
  cases hpassage with
  | stay _ _ => exact hkeep rfl
  | quiet _ _ hstage =>
      cases hstage with
      | fail _ _ =>
          intro o ho
          cases ho
      | start _ hearly' =>
          intro o ho
          cases stage' <;> cases hearly' <;> cases ho
      | take _ _ _ => exact hkeep rfl
      | total _ _ => exact hkeep rfl
  | newOrder hdb _ hid _ =>
      intro o ho
      cases ho
      rw [hid, hdb]
      refine ⟨hlower, ?_⟩
      show w.db.orders.seq < w.db.orders.seq + 1
      omega
  | newItem _ _ _ _ => exact hkeep rfl
  | first _ _ => exact hkeep rfl
  | again _ _ => exact hkeep rfl
  | commit _ _ _ => exact hkeep rfl

theorem queued_passage (h : Queued ok start w stage)
    (hkey : forall o, stage.order? = some o ->
      start.db.orders.seq <= o.id ∧ o.id < w.db.orders.seq)
    (hpassage : Passage ok w w' stage stage') :
    Queued ok start w' stage' := by
  have hseq := orderSeq_passage hpassage
  unfold Queued at h ⊢
  cases hpassage with
  | stay hdb hqueue =>
      rw [hqueue, hdb]
      exact h
  | quiet _ hqueue hstage =>
      rw [hqueue]
      cases hstage with
      | fail hopen isOpen =>
          -- whatever was scheduled before the failure stays in the queue
          show _ ∨ _
          split at h
          · rename_i o ho _
            rcases h with h | h
            · exact Or.inr ⟨rfl, o.id, (hkey o ho).left,
                lt_of_lt_of_le (hkey o ho).right hseq, h⟩
            · exact Or.inl h.left
          · exact Or.inl h
          · rcases h with h | ⟨_, id, hle, hlt, h⟩
            · exact Or.inl h
            · exact Or.inr ⟨rfl, id, hle, lt_of_lt_of_le hlt hseq, h⟩
      | start hearly hearly' =>
          have hsame : w.queue = start.queue := by
            cases stage <;> cases hearly
            all_goals
              rcases h with h | ⟨hlate, _⟩
              · exact h
              · cases hlate
          cases stage' <;> cases hearly' <;> exact Or.inl hsame
      | take _ _ _ => exact h
      | total _ _ => exact h
  | newOrder _ hqueue _ _ =>
      rw [hqueue]
      rcases h with h | ⟨hlate, _⟩
      · exact h
      · cases hlate
  | newItem _ _ hqueue _ =>
      rw [hqueue]
      exact h
  | first _ hqueue =>
      have hsame : w.queue = start.queue := h
      rw [hsame] at hqueue
      exact hqueue
  | again _ hqueue =>
      rcases hqueue with hqueue | hqueue
      · rcases h with h | h
        · rw [h, queue_add_idem] at hqueue
          exact Or.inl hqueue
        · rw [h.left] at hqueue
          exact Or.inl hqueue
      · rw [hqueue]
        exact h
  | commit _ _ hqueue =>
      rw [hqueue]
      exact h

end Passages

theorem customers_of_stored {start db : Database} {stage : Stage}
    (h : Stored start db stage) : db.customers = start.customers := by
  cases stage with
  | committed d now =>
      rcases h with ⟨mid, hgrows, hplaced⟩
      exact hplaced.customers.trans hgrows.customers
  | _ => exact h.customers

theorem orderSeq_of_stored {start db : Database} {stage : Stage}
    (h : Stored start db stage) : start.orders.seq <= db.orders.seq := by
  cases stage with
  | committed d now =>
      rcases h with ⟨mid, hgrows, hplaced⟩
      exact hgrows.orderSeq.trans hplaced.seq.left.ge
  | _ => exact h.orderSeq

theorem alone_step {ok : Env -> Prop} {basket : Basket} {start : World}
    (hcustomers : start.db.customers = basket.customers)
    {s s' : World × Tx} {stage : Stage} {c : Cmd} {r : service.Reply c}
    (h : Alone ok basket start s stage) (hmay : stage.may basket c)
    (hnext : Next ok s c r s') :
    exists stage', stage.next basket c r stage' ∧
      Alone ok basket start s' stage' := by
  have hseen : stage = .opened ->
      readRows s.1.db basket.items = readRows start.db basket.items := by
    intro hopened
    have hgrows := h.stored
    rw [hopened] at hgrows
    unfold readRows Query.eval Database.liveProducts
    rw [hgrows.products]
  rcases reached_step ((customers_of_stored h.stored).trans hcustomers) hseen
    h.here hmay hnext with ⟨stage', hnext', hat, hpassage⟩
  exact ⟨stage', hnext', hat, stored_passage h.stored hpassage,
    queued_passage h.queued h.key hpassage,
    key_passage (orderSeq_of_stored h.stored) h.key hpassage⟩

/-- A request for an order that ran alone has placed it, or has moved nothing
but sequences. -/
theorem executes_createOrder {ok : Env -> Prop} {w w' : World}
    {out : Outcome} {token : Token} {items : List ItemRequest}
    (h : Executes ok w (.request (.createOrder token items)) out w') :
    exists stage, stage.Ended ⟨w.db.customers, token, items⟩ ∧
      Stored w.db w'.db stage ∧ Queued ok w w' stage ∧
      (forall o, stage.order? = some o ->
        w.db.orders.seq <= o.id ∧ o.id < w'.db.orders.seq) ∧
      forall d now, stage = .committed d now ->
        d.Complete ∧ d.Sound ⟨w.db.customers, token, items⟩
          (fun rows => rows = readRows w.db items) := by
  rcases h with ⟨tx, hrun⟩
  let basket : Basket := ⟨w.db.customers, token, items⟩
  have hstart : Alone ok basket w (w, none) .idle :=
    ⟨rfl, Grows.refl _, Or.inl rfl, fun o ho => by cases ho⟩
  rcases Prog.wp_sound (J := Alone ok basket w)
    (fun hJ hmay hnext => alone_step rfl hJ hmay hnext)
    (follows_place basket) hstart hrun with ⟨stage, halone, hended⟩
  refine ⟨stage, hended, halone.stored, halone.queued, halone.key, ?_⟩
  rintro d now rfl
  exact halone.here.right

end Orders
end ExpressEcommerce
