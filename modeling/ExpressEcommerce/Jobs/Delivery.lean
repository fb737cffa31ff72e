import ExpressEcommerce.Jobs.Progress

/-!
# Placed orders are delivered

The hook of `Order.create` schedules the first job of an order before the order
is committed, and a job whose id is known is never added again.  What saves the
order is the delay of two minutes: as long as no job starts while its order is in
an open transaction, requests and jobs may interleave in any way, and when
everything has come to rest all orders are delivered.
-/

namespace ExpressEcommerce
namespace Jobs

open Foundation
open Store
open Service

/-- The delay of the jobs is longer than every transaction: a job starts when no
open transaction has written its order. -/
def delayed (D : Door World Tx Task Outcome Bull) :
    Door World Tx Task Outcome Bull where
  enters := fun w txs b task b' => D.enters w txs b task b' ∧
    forall job, task = .statusJob job -> forall tx, tx ∈ txs ->
      ¬ locked tx (.orders, job.orderId)
  leaves := D.leaves

/-- The requests that write no existing order. -/
def quiet (req : Request) : Prop :=
  kindOf (.request req) ≠ .ordering

/-!
# The door
-/

section Door

variable {b b' : Bull} {w : World} {ghosts : List (Errand × Tx)}

theorem Afoot.enter {g : Errand} {tx : Tx} (h : Afoot b w ghosts)
    (hthrown : b'.thrown = b.thrown) (hcompleted : b'.completed = b.completed)
    (hstarted : forall job, job ∈ b'.started <->
      job ∈ b.started ∨ g.job? = some job) :
    Afoot b' w (ghosts ++ [(g, tx)]) where
  keys := h.keys
  thrown := hthrown.trans h.thrown
  settled := by
    intro job hjob
    rw [hcompleted] at hjob
    exact (hstarted job).mpr (Or.inl (h.settled job hjob))
  running := by
    intro job hjob
    rcases (hstarted job).mp hjob with hold | hnew
    · rcases h.running job hold with ⟨e, he, hrun⟩
      exact ⟨e, List.mem_append_left _ he, hrun⟩
    · exact ⟨(g, tx), List.mem_append_right _ List.mem_cons_self, hnew⟩
  begun := by
    intro e he job hjob
    refine (hstarted job).mpr ?_
    rcases List.mem_append.mp he with hold | hnew
    · exact Or.inl (h.begun e hold job hjob)
    · rw [List.mem_singleton.mp hnew] at hjob
      exact Or.inr hjob
  ways := by
    intro id status deleted htrack
    rcases h.ways htrack with ⟨hlive, hway⟩
    refine ⟨hlive, hway.opened, hway.ahead, ?_, ?_⟩
    · intro t hwaiting hnot
      refine hway.unbegun t hwaiting (fun hold => hnot ?_)
      exact (hstarted _).mpr (Or.inl hold)
    · intro t ht
      refine (hway.next t ht).imp_right ?_
      rintro ⟨e, he, hmoved⟩
      exact ⟨e, List.mem_append_left _ he, hmoved⟩

theorem errandOf_quiet {req : Request} (h : quiet req) :
    errandOf (.request req) = .placing ∨ errandOf (.request req) = .aside := by
  unfold errandOf
  dsimp only
  split
  · exact Or.inl rfl
  · rename_i hordering
    exact absurd hordering h
  · exact Or.inr rfl

theorem Apart.of_none {g h : Errand} (hjob : h.job? = none)
    (hopen : h.open? = none) : Apart g h := by
  refine ⟨?_, ?_, ?_, ?_⟩
  · intro job _
    rw [hjob]
    rintro ⟨⟩
  · intro id _
    rw [hopen]
    rintro ⟨⟩
  · intro id job _ hh
    rw [hjob] at hh
    cases hh
  · intro id job hh
    rw [hopen] at hh
    cases hh

theorem afoot_start {job : Job}
    (h : Pool.Jointly (Afoot b) Stands Apart w ghosts)
    (hwaiting : isWaiting w.queue job) (hfree : b.Free job)
    (hdelayed : forall tx, tx ∈ ghosts.map Prod.snd ->
      ¬ locked tx (.orders, job.orderId)) :
    Pool.Jointly (Afoot { b with started := job :: b.started }) Stands Apart w
      (ghosts ++ [(.begun job, none)]) := by
  have hnot : job ∉ b.started := by
    have hcount := hfree.right.left
    rw [h.all.thrown] at hcount
    exact List.count_eq_zero.mp hcount
  have hknown := known_of_waiting hwaiting
  refine Server.jointly_enter Apart.symm h ?_
    ⟨rfl, ⟨h.all.keys job hknown, hknown⟩, ?_⟩ ?_
  · refine h.all.enter rfl rfl (fun other => ?_)
    rw [List.mem_cons, or_comm]
    exact or_congr_right
      ⟨fun heq => congrArg some heq.symm, fun heq => (Option.some.inj heq).symm⟩
  · intro status deleted htrack
    exact (h.all.ways htrack).right.unbegun _ hwaiting hnot
  · intro e he
    rcases List.getElem?_of_mem he with ⟨j, hj⟩
    refine ⟨?_, by rintro id _ ⟨⟩, ?_, by rintro id _ ⟨⟩⟩
    · rintro other hother ⟨⟩
      exact hnot (h.all.begun e he job hother)
    · rintro id _ hopen ⟨⟩ rfl
      -- the order is in the log of the open transaction
      rcases ((h.each hj).key.right _ hopen).log with
        ⟨log, hlog, _, row, hrow, hid⟩
      refine hdelayed e.2 (List.mem_map_of_mem he) ⟨log, hlog, ?_⟩
      rw [← hid]
      exact List.mem_map_of_mem hrow

theorem afoot_enter {txs : List Tx} {task : Task}
    (h : Pool.Jointly (Afoot b) Stands Apart w ghosts)
    (htxs : txs = ghosts.map Prod.snd)
    (hdoor : (delayed (workers quiet)).enters w txs b task b') :
    Pool.Jointly (Afoot b') Stands Apart w
      (ghosts ++ [(errandOf task, none)]) := by
  rcases hdoor with ⟨⟨rfl, hadmits⟩, hdelayed⟩
  cases task with
  | cancelJob orderId => exact hadmits.elim
  | statusJob job =>
      subst htxs
      exact afoot_start h hadmits.left hadmits.right (hdelayed job rfl)
  | request req =>
      have hnone := errandOf_job? req
      refine Server.jointly_enter Apart.symm h ?_ ?_ ?_
      · refine h.all.enter rfl rfl (fun job => ?_)
        rw [hnone]
        exact ⟨Or.inl, fun hor => hor.elim id (by rintro ⟨⟩)⟩
      · rcases errandOf_quiet hadmits with heq | heq <;> rw [heq] <;> rfl
      · intro e _
        rcases errandOf_quiet hadmits with heq | heq <;> rw [heq] <;>
          exact .of_none rfl rfl

theorem afoot_leave {task : Task} {out : Outcome} {e : Errand × Tx}
    (h : Pool.Jointly (Afoot b) Stands Apart w ghosts) (he : e ∈ ghosts)
    (hended : Ended False task out e.1)
    (hdoor : (delayed (workers quiet)).leaves b task out b') :
    Pool.Jointly (Afoot b') Stands Apart w ghosts := by
  cases hdoor
  cases task with
  | request | cancelJob => exact h
  | statusJob job =>
      rcases hended with ⟨⟨⟩⟩ | ⟨rfl, hfinished⟩
      have hbegun : job ∈ b.started := by
        refine h.all.begun e he job ?_
        rw [hfinished]
        rfl
      refine ⟨⟨h.all.keys, h.all.thrown, ?_, h.all.running, h.all.begun, ?_⟩,
        h.each, h.two⟩
      · intro other hother
        rcases List.mem_cons.mp hother with rfl | hold
        · exact hbegun
        · exact h.all.settled other hold
      · intro id status deleted htrack
        rcases h.all.ways htrack with ⟨hlive, hway⟩
        exact ⟨hlive, hway.opened, hway.ahead, hway.unbegun, hway.next⟩

end Door

/-!
# Everything at rest
-/

/-- Every order waits for the job that follows its status, and for no other. -/
structure Ready (w : World) : Prop where
  keys : forall job, known w.queue job = true ->
    job.orderId < w.db.orders.seq
  live : forall o, o ∈ w.db.orders.rows ->
    o.deletedAt = none ∧ o.status ≠ .cancelled
  ahead : forall o, o ∈ w.db.orders.rows ->
    forall t, known w.queue ⟨o.id, t⟩ = true ->
      stage t ≤ stage o.status + 1 ∧ t ≠ .cancelled
  waits : forall o, o ∈ w.db.orders.rows -> forall t,
    isWaiting w.queue ⟨o.id, t⟩ <-> nextStatusMap o.status = some t

theorem afoot_ready {w : World} (h : Ready w) :
    Pool.Jointly (Afoot ⟨[], [], []⟩) Stands Apart w [] := by
  refine ⟨⟨h.keys, rfl, by rintro job ⟨⟩, by rintro job ⟨⟩, by rintro e ⟨⟩, ?_⟩,
    by rintro i g tx ⟨⟩, by rintro i j g g' tx tx' _ ⟨⟩⟩
  intro id status deleted htrack
  rcases Option.map_eq_some_iff.mp htrack with ⟨o, ho, heq⟩
  cases heq
  rcases Table.find?_eq_some_iff.mp ho with ⟨hmem, rfl⟩
  refine ⟨(h.live o hmem).left, (h.live o hmem).right, h.ahead o hmem,
    fun t hwaiting _ => ?_, fun t ht => Or.inl ((h.waits o hmem t).mpr ht)⟩
  rw [(stage_next ((h.waits o hmem t).mp hwaiting)).left]
  exact Nat.lt_succ_self _

/-- No task is being executed, and no job can be started. -/
structure AtRest (site : Workshop) : Prop where
  ended : forall t, t ∈ site.pool.threads -> exists out, t.prog = .ret out
  idle : forall job, isWaiting site.pool.shared.queue job ->
    ¬ site.front.Free job

section Rest

variable {w : World} {site : Workshop}

theorem wp_finished (task : Task) :
    task.code.wp (errands False)
      (fun out g => Ended False task out g ∧ g.job? = (errandOf task).job?)
      (errandOf task) := by
  refine Prog.wp_invariant ?_ _ rfl (wp_errands False task)
  rintro g c r _ hg _ ⟨_, rfl⟩
  exact Errand.job?_after.trans hg

theorem finished_of_ended {task : Task} {out : Outcome} {g : Errand} {job : Job}
    (h : Ended False task out g ∧ g.job? = (errandOf task).job?)
    (hjob : g.job? = some job) : g = .finished job := by
  rcases h with ⟨hended, hsame⟩
  rw [hsame] at hjob
  cases task with
  | request req =>
      rw [errandOf_job?] at hjob
      cases hjob
  | cancelJob orderId => cases hjob
  | statusJob job =>
      cases hjob
      rcases hended with ⟨⟨⟩⟩ | ⟨_, rfl⟩
      rfl

/-- Where no task has anything left to do and no job can start, no order waits for
one. -/
theorem delivered_of_afoot {b : Bull} {ghosts : List (Errand × Tx)}
    (hinv : Pool.Jointly (Afoot b) Stands Apart w ghosts)
    (hfinished : forall e, e ∈ ghosts -> forall job, e.1.job? = some job ->
      e.1 = .finished job)
    (hidle : forall job, isWaiting w.queue job -> ¬ b.Free job) {id : Int}
    {status : Status} {deleted : Option Nat}
    (htrack : track w.db id = some (status, deleted)) :
    status = .delivered := by
  have hway := (hinv.all.ways htrack).right
  by_contra hopen
  have hnext : exists t, nextStatusMap status = some t := by
    cases status with
    | delivered => exact absurd rfl hopen
    | cancelled => exact absurd rfl hway.opened
    | _ => exact ⟨_, rfl⟩
  rcases hnext with ⟨t, ht⟩
  rcases hway.next t ht with hwaiting | ⟨e, he, hmoved⟩
  · -- a job that cannot start has been executed, so that its status is there
    have hstarted : (⟨id, t⟩ : Job) ∈ b.started := by
      by_contra hnot
      refine hidle _ hwaiting ⟨fun hover => hnot (hinv.all.settled _ hover), ?_⟩
      rw [List.count_eq_zero.mpr hnot, hinv.all.thrown]
      exact ⟨rfl, by decide⟩
    rcases hinv.all.running _ hstarted with ⟨e, he, hjob⟩
    rcases List.getElem?_of_mem he with ⟨j, hj⟩
    have hstands : Stands w e.1 e.2 := hinv.each hj
    rw [hfinished e he _ hjob] at hstands
    have hpast := hstands.right.right _ _ htrack
    rw [(stage_next ht).left] at hpast
    exact absurd hpast (Nat.not_succ_le_self _)
  · have hdone := hfinished e he ⟨id, status⟩ (by rw [hmoved]; rfl)
    rw [hmoved] at hdone
    cases hdone

/-- However requests that write no existing order and the jobs of the queue
interleave: if nothing fails and jobs start when the transactions that placed
their orders are over, then all orders are delivered when everything has come to
rest. -/
theorem placed_orders_are_delivered (hready : Ready w)
    (h : Operates Healthy (delayed (workers quiet)) w site)
    (hrest : AtRest site) {o : Order}
    (ho : o ∈ site.pool.shared.db.orders.rows) :
    o.status = .delivered ∧ o.deletedAt = none := by
  rcases Server.reaches_attended
    (J := fun b s _ => Pool.Jointly (Afoot b) Stands Apart s)
    preserves_afoot
    (fun hinv hdoor => ⟨wp_finished _, afoot_enter hinv rfl hdoor⟩)
    (fun hinv he hended hdoor => afoot_leave hinv he hended.left hdoor)
    (afoot_ready hready) h with ⟨ghosts, hinv, _, hcovered⟩
  have htrack : track site.pool.shared.db o.id =
      some (o.status, o.deletedAt) := by
    have hfind : site.pool.shared.db.orders.find? o.id = some o :=
      Table.find?_of_mem ho
    unfold track
    rw [hfind]
    rfl
  have hfinished : forall e, e ∈ ghosts -> forall job,
      e.1.job? = some job -> e.1 = .finished job := by
    intro e he job hjob
    rcases List.getElem?_of_mem he with ⟨j, hj⟩
    rcases hcovered.ended hrest.ended hj with ⟨out, task, _, hended⟩
    exact finished_of_ended hended hjob
  exact ⟨delivered_of_afoot hinv hfinished hrest.idle htrack,
    (hinv.all.ways htrack).left⟩

theorem ready_shop : Ready Runs.shop :=
  ⟨by rintro job ⟨⟩, fun _ h => absurd h List.not_mem_nil,
    fun _ h => absurd h List.not_mem_nil, fun _ h => absurd h List.not_mem_nil⟩

theorem atRest_pensDay (h : OneByOne pensDay) : AtRest pensDay := by
  have hidle : forall e, e ∈ pensDay.pool.shared.queue ->
      ¬ pensDay.front.Free e.job := by decide +kernel
  exact ⟨fun t ht => (h.ended t ht).right, fun job hwaiting => hidle _ hwaiting⟩

theorem pens_are_delivered :
    pensDay.pool.shared.db.orders.rows.length = 1 ∧
      forall o, o ∈ pensDay.pool.shared.db.orders.rows ->
        o.status = .delivered ∧ o.deletedAt = none := by
  have hunlocked : forall {txs : List Tx} {row : TableName × Int},
      (forall tx, tx ∈ txs -> tx = none) ->
      forall tx, tx ∈ txs -> ¬ locked tx row := by
    intro txs row hnone tx htx hlocked
    rcases hlocked with ⟨log, hlog, _⟩
    rw [hnone tx htx] at hlog
    cases hlog
  have hday : Operates Healthy (delayed (workers quiet)) Runs.shop pensDay ∧
      OneByOne pensDay := by
    have hquiet : quiet (.createOrder (.valid 1) [⟨1, 2⟩]) := by rintro ⟨⟩
    refine operates_pensDay (fun _ _ _ => rfl) ⟨⟨rfl, hquiet⟩, ?_⟩ ?_
    · intro job hjob
      cases hjob
    · intro w txs b job hnone hwaiting hfree
      exact ⟨⟨rfl, hwaiting, hfree⟩, fun _ _ => hunlocked hnone⟩
  exact ⟨by decide +kernel, fun o ho => placed_orders_are_delivered ready_shop
    hday.left (atRest_pensDay hday.right) ho⟩

/-!
Without the delay the first job can start between the hook and the commit.  It
finds no order and is over, and its id cannot be used again.
-/

def orderPens : Task :=
  .request (.createOrder (.valid 1) [⟨1, 2⟩])

/-- The job of the order waits, and the order is in the open transaction. -/
def hookDone : Tasks :=
  afterTurns Runs.shop [orderPens] (List.replicate 6 0)

def hastyStart : Tasks :=
  ⟨hookDone.shared, hookDone.threads ++
    [⟨none, (Task.statusJob ⟨1, .processing⟩).code⟩]⟩

def hastyPool : Tasks :=
  hastyStart.schedule (exec {}) free (1 :: List.replicate 7 0)

def hastyDay : Workshop :=
  ⟨⟨[⟨1, .processing⟩], [], []⟩, hastyPool,
    [orderPens, .statusJob ⟨1, .processing⟩], []⟩

theorem operates_hastyDay :
    Operates Healthy (workers quiet) Runs.shop hastyDay := by
  have hhealthy : Healthy {} := rfl
  have hquiet : quiet (.createOrder (.valid 1) [⟨1, 2⟩]) := by rintro ⟨⟩
  have hcome : Server.Step (system Healthy) (workers quiet) none Task.code
      (Server.opened ⟨[], [], []⟩ Runs.shop)
      ⟨⟨[], [], []⟩, startPool Runs.shop [orderPens], [orderPens], []⟩ :=
    .enter ⟨rfl, hquiet⟩
  have hhook : Operates Healthy (workers quiet) Runs.shop
      ⟨⟨[], [], []⟩, hookDone, [orderPens], []⟩ :=
    (Relation.ReflTransGen.single hcome).trans (Server.reaches_work
      (reaches_afterTurns hhealthy Runs.shop [orderPens] (List.replicate 6 0)))
  have hwaiting : isWaiting hookDone.shared.queue ⟨1, .processing⟩ := by
    decide +kernel
  have hfree : Bull.Free ⟨[], [], []⟩ ⟨1, .processing⟩ := by decide
  have hstart : Server.Step (system Healthy) (workers quiet) none Task.code
      ⟨⟨[], [], []⟩, hookDone, [orderPens], []⟩
      ⟨⟨[⟨1, .processing⟩], [], []⟩, hastyStart,
        [orderPens, .statusJob ⟨1, .processing⟩], []⟩ :=
    .enter ⟨rfl, hwaiting, hfree⟩
  have hlast : Pool.Reaches (system Healthy) hastyStart hastyPool :=
    Pool.reaches_schedule (S := system Healthy)
      (fun _ _ => ⟨{}, hhealthy, rfl⟩) (fun _ _ h => enabled_of_free h) _ _
  exact (hhook.tail hstart).trans (Server.reaches_work hlast)

/-- So jobs that start at any time can leave an order pending for good. -/
theorem delay_is_needed : exists site,
    Operates Healthy (workers quiet) Runs.shop site ∧ AtRest site ∧
      exists o, o ∈ site.pool.shared.db.orders.rows ∧ o.status = .pending := by
  have hended : forall t, t ∈ hastyPool.threads ->
      t.prog.result?.isSome = true := by
    have hall : hastyPool.threads.all
        (fun t => t.prog.result?.isSome) = true := by decide +kernel
    exact List.all_eq_true.mp hall
  have hidle : forall e, e ∈ hastyPool.shared.queue ->
      ¬ hastyDay.front.Free e.job := by decide +kernel
  have hpending : exists o, o ∈ hastyPool.shared.db.orders.rows ∧
      o.status = .pending := by decide +kernel
  exact ⟨hastyDay, operates_hastyDay,
    ⟨fun t ht => Prog.eq_ret (hended t ht), fun _ hwaiting => hidle _ hwaiting⟩,
    hpending⟩

end Rest

end Jobs
end ExpressEcommerce
