import ExpressEcommerce.Foundation.Arrivals
import ExpressEcommerce.Foundation.Lists
import ExpressEcommerce.Jobs.Errands
import ExpressEcommerce.Jobs.Retry
import ExpressEcommerce.Runs.Sequential

/-!
# Workers

Bull starts waiting jobs while requests are served.  A job that throws is started
again, three times at most; one that returns is over.  The queue for cancellations
has no processor, so that no job of that kind is ever executed.
-/

namespace ExpressEcommerce
namespace Jobs

open Foundation
open Store
open Service

/-- The executions that have begun, those that threw, and the jobs that are
over. -/
structure Bull where
  started : List Job
  thrown : List Job
  completed : List Job

namespace Bull

def Free (b : Bull) (job : Job) : Prop :=
  job ∉ b.completed ∧ b.started.count job = b.thrown.count job ∧
    b.started.count job < attempts

instance (b : Bull) (job : Job) : Decidable (b.Free job) :=
  inferInstanceAs (Decidable (_ ∧ _ ∧ _))

def begins (b : Bull) : Task -> Bull
  | .statusJob job => { b with started := job :: b.started }
  | _ => b

def ends (b : Bull) : Task -> Outcome -> Bull
  | .statusJob job, .threw _ => { b with thrown := job :: b.thrown }
  | .statusJob job, _ => { b with completed := job :: b.completed }
  | _, _ => b

end Bull

/-- Requests of some kind come in at any time, and waiting jobs are started. -/
def workers (admits : Request -> Prop) : Door World Tx Task Outcome Bull where
  enters := fun w _ b task b' => b' = b.begins task ∧
    match task with
    | .request req => admits req
    | .statusJob job => isWaiting w.queue job ∧ b.Free job
    | .cancelJob _ => False
  leaves := fun b task out b' => b' = b.ends task out

abbrev Workshop : Type := Server service World Tx Outcome Task Bull

/-- What the service and its workers can come to. -/
def Operates (ok : Env -> Prop) (D : Door World Tx Task Outcome Bull) (w : World)
    (site : Workshop) : Prop :=
  Server.Reaches (system ok) D none Task.code (Server.opened ⟨[], [], []⟩ w) site

/-!
# One task after the other

Tasks that are executed alone, each to its end.
-/

section Alone

variable {D : Door World Tx Task Outcome Bull} {w : World} {site : Workshop}

def carried (site : Workshop) (task : Task) : Outcome × World × Tx :=
  task.code.eval (exec {}) (site.pool.shared, none)

def carryOut (site : Workshop) (task : Task) : Workshop :=
  ⟨(site.front.begins task).ends task (carried site task).1,
    ⟨(carried site task).2.1, site.pool.threads ++
      [⟨(carried site task).2.2, .ret (carried site task).1⟩]⟩,
    site.visits ++ [task], site.visits.length :: site.answered⟩

structure OneByOne (site : Workshop) : Prop where
  length : site.pool.threads.length = site.visits.length
  answered : forall i, i ∈ site.answered -> i < site.visits.length
  ended : forall t, t ∈ site.pool.threads -> t.here = none ∧
    exists out, t.prog = .ret out

theorem oneByOne_opened (w : World) : OneByOne (Server.opened ⟨[], [], []⟩ w) :=
  ⟨rfl, fun _ h => absurd h List.not_mem_nil,
    fun _ h => absurd h List.not_mem_nil⟩

theorem oneByOne_carryOut {task : Task} (h : OneByOne site)
    (htx : (carried site task).2.2 = none) : OneByOne (carryOut site task) := by
  refine ⟨?_, ?_, ?_⟩
  · simp [carryOut, h.length]
  · intro i hi
    have hlength : (carryOut site task).visits.length =
        site.visits.length + 1 := List.length_append
    rw [hlength]
    rcases List.mem_cons.mp hi with hnew | hold
    · rw [hnew]
      exact Nat.lt_succ_self _
    · exact Nat.lt_succ_of_lt (h.answered i hold)
  · intro t ht
    rcases List.mem_append.mp ht with hold | hnew
    · exact h.ended t hold
    · rw [List.mem_singleton.mp hnew]
      exact ⟨htx, _, rfl⟩

theorem OneByOne.enabled (h : OneByOne site) (c : Cmd) :
    (system Healthy).enabled (site.pool.threads.map Thread.here) c := by
  have hfree : forall tx, tx ∈ site.pool.threads.map Thread.here ->
      forall row, ¬ locked tx row := by
    intro tx htx row hlocked
    rcases List.mem_map.mp htx with ⟨t, ht, heq⟩
    rcases hlocked with ⟨log, hlog, _⟩
    rw [← heq, (h.ended t ht).left] at hlog
    cases hlog
  cases c with
  | update inTx change => exact fun tx htx => hfree tx htx change.row
  | _ => trivial

theorem operates_carryOut {task : Task} (h : Operates Healthy D w site)
    (hserial : OneByOne site)
    (henter : D.enters site.pool.shared (site.pool.threads.map Thread.here)
      site.front task (site.front.begins task))
    (hleave : forall out, D.leaves (site.front.begins task) task out
      ((site.front.begins task).ends task out)) :
    Operates Healthy D w (carryOut site task) := by
  have hhealthy : Healthy {} := rfl
  have hrun := Server.reaches_alone (S := system Healthy)
    (fun c s => ⟨{}, hhealthy, rfl⟩) hserial.enabled task.code
    site.pool.shared none
  have hcome : Server.Step (system Healthy) D none Task.code site
      ⟨site.front.begins task,
        ⟨site.pool.shared, site.pool.threads ++ [⟨none, task.code⟩]⟩,
        site.visits ++ [task], site.answered⟩ := .enter henter
  have hwork : Server.Reaches (system Healthy) D none Task.code
      ⟨site.front.begins task,
        ⟨site.pool.shared, site.pool.threads ++ [⟨none, task.code⟩]⟩,
        site.visits ++ [task], site.answered⟩
      ⟨site.front.begins task, (carryOut site task).pool,
        site.visits ++ [task], site.answered⟩ := Server.reaches_work hrun
  have hnew : site.visits.length ∉ site.answered :=
    fun hmem => absurd (hserial.answered _ hmem) (lt_irrefl _)
  have hend : (carryOut site task).pool.threads[site.visits.length]? =
      some ⟨(carried site task).2.2, .ret (carried site task).1⟩ := by
    rw [← hserial.length]
    exact List.getElem?_concat_length
  have hgo : Server.Step (system Healthy) D none Task.code
      ⟨site.front.begins task, (carryOut site task).pool,
        site.visits ++ [task], site.answered⟩ (carryOut site task) :=
    .leave site.visits.length hnew List.getElem?_concat_length hend (hleave _)
  exact ((h.tail hcome).trans hwork).tail hgo

/-- The door is open to each of the tasks when its turn comes, and none leaves a
transaction behind. -/
def LetIn (D : Door World Tx Task Outcome Bull) :
    Workshop -> List Task -> Prop
  | _, [] => True
  | site, task :: rest =>
      D.enters site.pool.shared (site.pool.threads.map Thread.here) site.front
        task (site.front.begins task) ∧
        (carried site task).2.2 = none ∧ LetIn D (carryOut site task) rest

theorem operates_carryOutAll
    (hleave : forall b task out, D.leaves b task out (b.ends task out))
    {tasks : List Task} (h : Operates Healthy D w site)
    (hserial : OneByOne site) (hletIn : LetIn D site tasks) :
    Operates Healthy D w (tasks.foldl carryOut site) ∧
      OneByOne (tasks.foldl carryOut site) := by
  induction tasks generalizing site with
  | nil => exact ⟨h, hserial⟩
  | cons task rest ih =>
      rcases hletIn with ⟨henter, htx, hrest⟩
      exact ih (operates_carryOut h hserial henter (hleave _ task))
        (oneByOne_carryOut hserial htx) hrest

def pensTasks : List Task :=
  [.request (.createOrder (.valid 1) [⟨1, 2⟩]), .statusJob ⟨1, .processing⟩,
    .statusJob ⟨1, .shipped⟩, .statusJob ⟨1, .delivered⟩]

def pensDay : Workshop :=
  pensTasks.foldl carryOut (Server.opened ⟨[], [], []⟩ Runs.shop)

theorem operates_pensDay
    (hleave : forall b task out, D.leaves b task out (b.ends task out))
    (hrequest : D.enters Runs.shop [] ⟨[], [], []⟩
      (.request (.createOrder (.valid 1) [⟨1, 2⟩])) ⟨[], [], []⟩)
    (hjob : forall {w txs b job}, (forall tx, tx ∈ txs -> tx = none) ->
      isWaiting w.queue job -> b.Free job ->
      D.enters w txs b (.statusJob job) (b.begins (.statusJob job))) :
    Operates Healthy D Runs.shop pensDay ∧ OneByOne pensDay := by
  refine operates_carryOutAll hleave Relation.ReflTransGen.refl
    (oneByOne_opened Runs.shop) ?_
  refine ⟨hrequest, by decide +kernel, ?_⟩
  refine ⟨hjob (by decide +kernel) (by decide +kernel) (by decide +kernel),
    by decide +kernel, ?_⟩
  refine ⟨hjob (by decide +kernel) (by decide +kernel) (by decide +kernel),
    by decide +kernel, ?_⟩
  refine ⟨hjob (by decide +kernel) (by decide +kernel) (by decide +kernel),
    by decide +kernel, ?_⟩
  trivial

end Alone

/-!
# One command
-/

section Command

variable {ok : Env -> Prop} {w w' : World} {tx tx' : Tx} {c : Cmd}
variable {r : service.Reply c}

theorem next_queue {s' : World × Tx} (hc : schedules c = false)
    (h : Next ok (w, tx) c r s') : s'.1.queue = w.queue := by
  rcases h with ⟨env, hok, hexec⟩
  cases c <;> cases hc <;> dsimp only [exec] at hexec <;>
    repeat' split at hexec
  all_goals
    cases hexec
    first | rfl | (unfold World.record; split <;> rfl)

theorem queue_of_next (h : Next ok (w, tx) c r (w', tx')) :
    w'.queue = w.queue ∨
      exists job, c = .addJob job ∧ w'.queue = w.queue.add job := by
  cases c with
  | addJob job =>
      rcases next_addJob h with ⟨_, heq⟩ | ⟨_, heq, _⟩ <;> cases heq
      · exact Or.inr ⟨job, rfl, rfl⟩
      · exact Or.inl rfl
  | _ => exact Or.inl (next_queue rfl h)

theorem known_of_next {job : Job} (h : Next ok (w, tx) c r (w', tx'))
    (hjob : known w'.queue job = true) :
    known w.queue job = true ∨ c = .addJob job := by
  rcases queue_of_next h with hsame | ⟨new, hc, hadd⟩
  · rw [hsame] at hjob
    exact Or.inl hjob
  · rw [hadd] at hjob
    rcases known_add.mp hjob with hold | heq
    · exact Or.inl hold
    · rw [heq]
      exact Or.inr hc

theorem known_next {job : Job} (h : Next ok (w, tx) c r (w', tx'))
    (hjob : known w.queue job = true) : known w'.queue job = true := by
  rcases queue_of_next h with hsame | ⟨new, _, hadd⟩
  · rw [hsame]
    exact hjob
  · rw [hadd]
    exact known_add.mpr (Or.inl hjob)

theorem foreseen_of_next {s' : World × Tx} (h : Next ok (w, tx) c r s') :
    Errand.foreseen (MayFail ok) c r := by
  cases c with
  | query inTx q =>
      cases inTx with
      | true => trivial
      | false =>
          cases q with
          | orderByPk id paranoid incl =>
              rcases (next_query h).right with rfl | ⟨⟨e, rfl⟩, hfail⟩
              · intro graph hgraph
                rcases Option.map_eq_some_iff.mp hgraph with ⟨o, ho, rfl⟩
                rw [Database.graph_order]
                exact Database.order?_key ho
              · rcases hfail with hfail | hrefused
                · exact hfail
                · cases hrefused
          | _ => trivial
  | update inTx u =>
      cases u with
      | orderStatus id status =>
          rcases next_update h with ⟨now, rfl, _⟩ | ⟨⟨e, rfl⟩, _, hfail⟩
          · trivial
          · rcases hfail with hfail | hrefused
            · exact hfail
            · cases hrefused
      | _ => trivial
  | addJob job =>
      rcases next_addJob h with ⟨rfl, _⟩ | ⟨⟨e, rfl⟩, _, hfail⟩
      · trivial
      · exact hfail
  | _ => trivial

end Command

/-!
# How often jobs are executed

However often calls fail, an order causes three jobs at most and each of them is
executed three times at most.
-/

def isPlacing (task : Task) : Bool :=
  decide (kindOf task = .placing)

def targets : List Status :=
  [.processing, .shipped, .delivered]

theorem mem_targets {status next : Status}
    (h : nextStatusMap status = some next) : next ∈ targets := by
  cases status <;> cases h <;> decide

section Bound

variable (start : Queue)

def owners (ghosts : List (Errand × Tx)) : List Int :=
  start.map (fun e => e.job.orderId) ++
    ghosts.filterMap (fun e => e.1.order?)

/-- The jobs that can be in the queue. -/
def Due (ghosts : List (Errand × Tx)) (job : Job) : Prop :=
  known start job = true ∨
    job.orderId ∈ owners start ghosts ∧ job.targetStatus ∈ targets

structure Bounded (b : Bull) (w : World) (visits : List Task)
    (ghosts : List (Errand × Tx)) : Prop where
  due : forall job, known w.queue job = true -> Due start ghosts job
  begun : forall job, job ∈ b.started -> known w.queue job = true
  tries : forall job, b.started.count job ≤ attempts
  jobs : forall e, e ∈ ghosts -> forall job, e.1.job? = some job ->
    job ∈ b.started
  makers : ghosts.countP (fun e => e.1.places) ≤ visits.countP isPlacing

variable {start} {ok : Env -> Prop} {b : Bull} {w w' : World}
variable {visits : List Task} {ghosts : List (Errand × Tx)}

theorem Due.owner {job : Job} (h : Due start ghosts job) :
    job.orderId ∈ owners start ghosts := by
  rcases h with hstart | ⟨howner, _⟩
  · rcases known_iff.mp hstart with ⟨e, he, rfl⟩
    exact List.mem_append_left _ (List.mem_map_of_mem he)
  · exact howner

theorem owners_set {i : Nat} {g g' : Errand} {tx tx' : Tx} {id : Int}
    (hi : ghosts[i]? = some (g, tx))
    (hkeeps : g.order? = some id -> g'.order? = some id)
    (h : id ∈ owners start ghosts) :
    id ∈ owners start (ghosts.set i (g', tx')) := by
  rcases List.mem_append.mp h with hstart | hmade
  · exact List.mem_append_left _ hstart
  · refine List.mem_append_right _ (List.mem_filterMap.mpr ?_)
    rcases List.mem_filterMap.mp hmade with ⟨e, he, hid⟩
    rcases Pool.mem_set_or_eq hi he (g', tx') with hold | rfl
    · exact ⟨e, hold, hid⟩
    · exact ⟨_, Pool.mem_set_self hi _, hkeeps hid⟩

theorem due_added {i : Nat} {g : Errand} {tx : Tx} {faults : Prop} {job : Job}
    (h : Bounded start b w visits ghosts) (hi : ghosts[i]? = some (g, tx))
    (hmay : g.may faults (.addJob job)) : Due start ghosts job := by
  have hmem : (g, tx) ∈ ghosts := List.mem_of_getElem? hi
  rcases Errand.may_addJob hmay with ⟨id, hid, rfl⟩ | ⟨old, hold, hsame, hnext⟩
  · refine Or.inr ⟨List.mem_append_right _ ?_, List.mem_cons_self⟩
    exact List.mem_filterMap.mpr ⟨_, hmem, hid⟩
  · refine Or.inr ⟨?_, mem_targets hnext⟩
    rw [hsame]
    exact (h.due old (h.begun old (h.jobs _ hmem old hold))).owner

theorem bounded_step {i : Nat} {g : Errand} {tx tx' : Tx} {c : Cmd}
    {r : service.Reply c} (h : Bounded start b w visits ghosts)
    (hi : ghosts[i]? = some (g, tx)) (hmay : g.may (MayFail ok) c)
    (hnext : Next ok (w, tx) c r (w', tx')) :
    Bounded start b w' visits (ghosts.set i (g.after c r, tx')) := by
  have hdue : forall job, Due start ghosts job ->
      Due start (ghosts.set i (g.after c r, tx')) job := by
    rintro job (hstart | ⟨howner, htarget⟩)
    · exact Or.inl hstart
    · exact Or.inr ⟨owners_set hi Errand.order?_after howner, htarget⟩
  refine ⟨?_, fun job hjob => known_next hnext (h.begun job hjob), h.tries, ?_,
    ?_⟩
  · intro job hjob
    rcases known_of_next hnext hjob with hold | rfl
    · exact hdue job (h.due job hold)
    · exact hdue job (due_added h hi hmay)
  · intro e he job hjob
    rcases List.mem_or_eq_of_mem_set he with hold | rfl
    · exact h.jobs e hold job hjob
    · rw [Errand.job?_after] at hjob
      exact h.jobs _ (List.mem_of_getElem? hi) job hjob
  · have hplaces : forall entries : List (Errand × Tx),
        entries.countP (fun e => e.1.places) =
          (entries.map (fun e => e.1.places)).countP id := by
      intro entries
      rw [List.countP_map]
      rfl
    rw [hplaces, Pool.map_set_same _ hi Errand.places_after, ← hplaces]
    exact h.makers

theorem errandOf_places (task : Task) :
    (errandOf task).places = isPlacing task := by
  cases task with
  | statusJob | cancelJob => rfl
  | request req =>
      unfold errandOf isPlacing
      dsimp only
      split
      · rename_i hkind
        rw [hkind]
        rfl
      · rename_i hkind
        rw [hkind]
        rfl
      · rename_i hkind _
        exact (decide_eq_false hkind).symm

theorem errandOf_job? (req : Request) :
    (errandOf (.request req)).job? = none := by
  unfold errandOf
  dsimp only
  split <;> rfl

theorem bounded_enter {admits : Request -> Prop} {b' : Bull} {txs : List Tx}
    {task : Task} (h : Bounded start b w visits ghosts)
    (hdoor : (workers admits).enters w txs b task b') :
    Bounded start b' w (visits ++ [task])
      (ghosts ++ [(errandOf task, none)]) := by
  have hdue : forall job, known w.queue job = true ->
      Due start (ghosts ++ [(errandOf task, none)]) job := by
    intro job hjob
    refine (h.due job hjob).imp_right (fun hdue => ⟨?_, hdue.right⟩)
    unfold owners
    rw [List.filterMap_append, ← List.append_assoc]
    exact List.mem_append_left _ hdue.left
  have hmakers : (ghosts ++ [(errandOf task, none)]).countP
      (fun e : Errand × Tx => e.1.places) ≤ (visits ++ [task]).countP isPlacing := by
    rw [List.countP_append, List.countP_append, List.countP_singleton,
      List.countP_singleton, errandOf_places]
    exact Nat.add_le_add_right h.makers _
  cases task with
  | cancelJob orderId => exact hdoor.right.elim
  | request req =>
      rcases hdoor with ⟨rfl, _⟩
      refine ⟨hdue, h.begun, h.tries, ?_, hmakers⟩
      intro e he job hjob
      rcases List.mem_append.mp he with hold | hnew
      · exact h.jobs e hold job hjob
      · rw [List.mem_singleton.mp hnew, errandOf_job?] at hjob
        cases hjob
  | statusJob job =>
      rcases hdoor with ⟨rfl, hwaiting, _, _, hleft⟩
      refine ⟨hdue, ?_, ?_, ?_, hmakers⟩
      · intro other hother
        rcases List.mem_cons.mp hother with rfl | hold
        · exact known_of_waiting hwaiting
        · exact h.begun other hold
      · intro other
        dsimp only [Bull.begins]
        rw [List.count_cons]
        split
        · rename_i heq
          rw [← beq_iff_eq.mp heq]
          exact hleft
        · exact h.tries other
      · intro e he other hother
        rcases List.mem_append.mp he with hold | hnew
        · exact List.mem_cons_of_mem _ (h.jobs e hold other hother)
        · rw [List.mem_singleton.mp hnew] at hother
          cases hother
          exact List.mem_cons_self

theorem bounded_leave {admits : Request -> Prop} {b' : Bull} {task : Task}
    {out : Outcome} (h : Bounded start b w visits ghosts)
    (hdoor : (workers admits).leaves b task out b') :
    Bounded start b' w visits ghosts := by
  have hsame : b'.started = b.started -> Bounded start b' w visits ghosts := by
    intro hstarted
    exact ⟨h.due, fun job hjob => h.begun job (hstarted ▸ hjob),
      fun job => hstarted ▸ h.tries job,
      fun e he job hjob => hstarted ▸ h.jobs e he job hjob, h.makers⟩
  cases task with
  | statusJob job => cases out <;> cases hdoor <;> exact hsame rfl
  | request | cancelJob =>
      cases hdoor
      exact h

theorem bounded_length (h : Bounded start b w visits ghosts) :
    b.started.length ≤
      attempts * (start.length + 3 * (start.length + visits.countP isPlacing)) := by
  let jobs : List Job := start.map QueuedJob.job ++
    (owners start ghosts).flatMap (fun id => targets.map (Job.mk id))
  have hjobs : forall job, job ∈ b.started -> job ∈ jobs := by
    intro job hjob
    rcases h.due job (h.begun job hjob) with hstart | ⟨howner, htarget⟩
    · rcases known_iff.mp hstart with ⟨e, he, rfl⟩
      exact List.mem_append_left _ (List.mem_map_of_mem he)
    · exact List.mem_append_right _ (List.mem_flatMap.mpr
        ⟨_, howner, List.mem_map.mpr ⟨_, htarget, rfl⟩⟩)
  have howners : (owners start ghosts).length ≤
      start.length + visits.countP isPlacing := by
    unfold owners
    rw [List.length_append, List.length_map]
    refine Nat.add_le_add_left (le_trans ?_ h.makers) _
    rw [List.length_filterMap_eq_countP]
    refine List.countP_mono_left (fun e _ he => ?_)
    rcases Option.isSome_iff_exists.mp he with ⟨id, hid⟩
    exact Errand.places_of_order? hid
  have hlength : jobs.length ≤
      start.length + 3 * (start.length + visits.countP isPlacing) := by
    have htargets : jobs.length =
        start.length + 3 * (owners start ghosts).length := by
      simp [jobs, targets, Nat.mul_comm]
    rw [htargets]
    exact Nat.add_le_add_left (Nat.mul_le_mul_left 3 howners) _
  exact (length_le_of_count h.tries hjobs).trans
    (Nat.mul_le_mul_left attempts hlength)

end Bound

section Results

variable {ok : Env -> Prop} {admits : Request -> Prop} {w : World}
variable {site : Workshop}

/-- However requests and jobs interleave and whatever fails: jobs are executed
nine times at most for each order that a request can have placed, and twelve
times at most for each job that was in the queue at the start. -/
theorem job_executions_are_bounded (h : Operates ok (workers admits) w site) :
    site.front.started.length ≤
      attempts * (w.queue.length +
        3 * (w.queue.length + site.visits.countP isPlacing)) := by
  have hstart : Bounded w.queue ⟨[], [], []⟩ w [] [] :=
    ⟨fun _ hjob => Or.inl hjob, by rintro job ⟨⟩, fun _ => Nat.zero_le _,
      by rintro e ⟨⟩, le_refl 0⟩
  have hwork : forall {b : Bull} {visits : List Task},
      Pool.Preserves (system ok) (errands (MayFail ok))
        (fun s => Bounded w.queue b s visits) := by
    intro b visits s s' ghosts i g here here' c r hinv hi hmay _ hnext
    exact ⟨_, ⟨foreseen_of_next hnext, rfl⟩, bounded_step hinv hi hmay hnext⟩
  rcases Server.reaches_attended (J := Bounded w.queue) hwork
    (fun hinv hdoor => ⟨wp_errands _ _, bounded_enter hinv hdoor⟩)
    (fun hinv _ _ hdoor => bounded_leave hinv hdoor) hstart h with
    ⟨ghosts, hbounded, _⟩
  exact bounded_length hbounded

theorem pen_jobs_are_bounded :
    pensDay.front.started.length = 3 ∧ pensDay.front.started.length ≤
      attempts * (Runs.shop.queue.length +
        3 * (Runs.shop.queue.length + pensDay.visits.countP isPlacing)) := by
  have hoperates : Operates Healthy (workers (fun _ => True)) Runs.shop
      pensDay :=
    (operates_pensDay (D := workers (fun _ => True)) (fun _ _ _ => rfl)
      ⟨rfl, trivial⟩ (fun _ hwaiting hfree => ⟨rfl, hwaiting, hfree⟩)).left
  exact ⟨by decide +kernel, job_executions_are_bounded hoperates⟩

end Results

end Jobs
end ExpressEcommerce
