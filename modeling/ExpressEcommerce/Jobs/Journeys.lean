import ExpressEcommerce.Jobs.Workers

/-!
# Orders on their way

An order that nobody touches goes from status to status, one job after the other.
While it is on its way there is always one job to wait for: it waits in the
queue, or a task is about to add it.  The tasks that are running know where
their own order stands.
-/

namespace ExpressEcommerce
namespace Jobs

open Foundation
open Store
open Service

/-!
# Stages
-/

def stage : Status -> Nat
  | .pending => 0
  | .processing => 1
  | .shipped => 2
  | .delivered => 3
  | .cancelled => 4

theorem stage_injective {s t : Status} (h : stage s = stage t) : s = t := by
  cases s <;> cases t <;> first | rfl | cases h

theorem stage_next {s t : Status} (h : nextStatusMap s = some t) :
    stage t = stage s + 1 ∧ t ≠ .cancelled := by
  cases s <;> cases h <;> decide

theorem next_of_stage {s t : Status} (hcancelled : s ≠ .cancelled)
    (hdelivered : s ≠ .delivered) (h : stage t = stage s + 1) :
    nextStatusMap s = some t := by
  cases s <;> cases t <;> first | rfl | contradiction

def track (db : Database) (id : Int) : Option (Status × Option Nat) :=
  (db.orders.find? id).map (fun o => (o.status, o.deletedAt))

/-!
# The invariant

Each order has one job to wait for: it waits in the queue, or a task is about to
add it.
-/

/-- An order with a status on its way. -/
structure OnWay (b : Bull) (q : Queue) (ghosts : List (Errand × Tx)) (id : Int)
    (status : Status) : Prop where
  opened : status ≠ .cancelled
  ahead : forall t, known q ⟨id, t⟩ = true ->
    stage t ≤ stage status + 1 ∧ t ≠ .cancelled
  unbegun : forall t, isWaiting q ⟨id, t⟩ -> ⟨id, t⟩ ∉ b.started ->
    stage status < stage t
  next : forall t, nextStatusMap status = some t -> isWaiting q ⟨id, t⟩ ∨
    exists e, e ∈ ghosts ∧ e.1 = .moved ⟨id, status⟩

structure Afoot (b : Bull) (w : World) (ghosts : List (Errand × Tx)) :
    Prop where
  keys : forall job, known w.queue job = true ->
    job.orderId < w.db.orders.seq
  thrown : b.thrown = []
  settled : forall job, job ∈ b.completed -> job ∈ b.started
  running : forall job, job ∈ b.started ->
    exists e, e ∈ ghosts ∧ e.1.job? = some job
  begun : forall e, e ∈ ghosts -> forall job, e.1.job? = some job ->
    job ∈ b.started
  ways : forall {id status deleted}, track w.db id = some (status, deleted) ->
    deleted = none ∧ OnWay b w.queue ghosts id status

def Errand.open? : Errand -> Option Int
  | .entered id => some id
  | .queued id => some id
  | _ => none

theorem Errand.open?_read (job : Job) (found : Option OrderGraph) :
    (Errand.read job found).open? = none := by
  rcases Errand.read_eq job found with heq | heq <;> rw [heq] <;> rfl

def placesOnly (id : Int) : Write -> Prop
  | .insertOrder r => r.id = id ∧ r.status = .pending ∧ r.deletedAt = none
  | .update (.orderStatus _ _) _ => False
  | .update (.orderDeleted _ _) _ => False
  | _ => True

structure Pending (w : World) (id : Int) (tx : Tx) : Prop where
  key : id < w.db.orders.seq
  absent : track w.db id = none
  log : exists log, tx = some log ∧ (forall x, x ∈ log -> placesOnly id x) ∧
    exists r, Write.insertOrder r ∈ log ∧ r.id = id

structure Given (w : World) (job : Job) : Prop where
  key : job.orderId < w.db.orders.seq
  known : known w.queue job = true

/-- What a task can rely on. -/
def Stands (w : World) : Errand -> Tx -> Prop
  | .aside, tx => tx = none
  | .ordering, _ => False
  | .placing, tx => tx = none
  | .opened, tx => tx = some []
  | .entered id, tx => Pending w id tx ∧
      forall t, known w.queue ⟨id, t⟩ = false
  | .queued id, tx => Pending w id tx ∧ isWaiting w.queue ⟨id, .processing⟩ ∧
      forall t, known w.queue ⟨id, t⟩ = true -> t = .processing
  | .placed id, tx => tx = none ∧ known w.queue ⟨id, .processing⟩ = true
  | .begun job, tx => tx = none ∧ Given w job ∧
      forall s d, track w.db job.orderId = some (s, d) ->
        stage s < stage job.targetStatus
  | .bound job, tx => tx = none ∧ Given w job ∧
      exists s d, track w.db job.orderId = some (s, d) ∧
        nextStatusMap s = some job.targetStatus
  | .moved job, tx => tx = none ∧ Given w job ∧
      (forall s d, track w.db job.orderId = some (s, d) ->
        s = job.targetStatus) ∧
      forall t, nextStatusMap job.targetStatus = some t ->
        known w.queue ⟨job.orderId, t⟩ = false
  | .finished job, tx => tx = none ∧ Given w job ∧
      forall s d, track w.db job.orderId = some (s, d) ->
        stage job.targetStatus ≤ stage s

/-- An order in an open transaction has no running jobs. -/
def Clear (g h : Errand) : Prop :=
  forall id job, g.open? = some id -> h.job? = some job -> job.orderId ≠ id

structure Apart (g h : Errand) : Prop where
  jobs : forall job, g.job? = some job -> h.job? ≠ some job
  orders : forall id, g.open? = some id -> h.open? ≠ some id
  left : Clear g h
  right : Clear h g

theorem Apart.symm {g h : Errand} (hapart : Apart g h) : Apart h g :=
  ⟨fun job hh hg => hapart.jobs job hg hh,
    fun id hh hg => hapart.orders id hg hh, hapart.right, hapart.left⟩

/-!
# What commands do to the orders
-/

structure Still (w w' : World) : Prop where
  tracks : forall id, track w'.db id = track w.db id
  queue : w'.queue = w.queue
  seq : w.db.orders.seq ≤ w'.db.orders.seq

structure Gains (id : Int) (db db' : Database) : Prop where
  tracks : forall j, track db' j = track db j ∨
    j = id ∧ track db' j = some (.pending, none)
  seq : db'.orders.seq = db.orders.seq

theorem Gains.refl (id : Int) (db : Database) : Gains id db db :=
  ⟨fun _ => Or.inl rfl, rfl⟩

theorem Gains.trans {id : Int} {db mid db' : Database} (h : Gains id db mid)
    (h' : Gains id mid db') : Gains id db db' := by
  refine ⟨fun j => ?_, h'.seq.trans h.seq⟩
  rcases h'.tracks j with hsame | hnew
  · rw [hsame]
    exact h.tracks j
  · exact Or.inr hnew

theorem gains_update {id : Int} {db : Database} {u : Change} {now : Nat}
    (hu : placesOnly id (.update u now)) : Gains id db (db.update u now) := by
  cases u with
  | orderStatus | orderDeleted => exact hu.elim
  | orderTotal orderId total =>
      refine ⟨fun j => Or.inl ?_, rfl⟩
      unfold track
      rw [Database.find?_update_orderTotal]
      split
      · rw [Option.map_map]
        rfl
      · rfl
  | itemFields itemId patch =>
      show Gains id db (if _ : _ then _ else _)
      split
      · exact ⟨fun _ => Or.inl rfl, rfl⟩
      · exact Gains.refl id db
  | _ => exact ⟨fun _ => Or.inl rfl, rfl⟩

theorem gains_write {id : Int} {db : Database} {x : Write}
    (hx : placesOnly id x) : Gains id db (db.write x) := by
  cases x with
  | insertCustomer r => exact ⟨fun _ => Or.inl rfl, rfl⟩
  | insertProduct r => exact ⟨fun _ => Or.inl rfl, rfl⟩
  | insertOrder r =>
      rcases hx with ⟨rfl, hstatus, hdeleted⟩
      show Gains r.id db (db.insertOrder r)
      unfold Database.insertOrder
      split
      · refine ⟨fun j => ?_, Table.insert_seq _ _⟩
        rcases Table.find?_insert db.orders r j with hsame | ⟨hj, hnew⟩
        · exact Or.inl (congrArg _ hsame)
        · refine Or.inr ⟨hj, (congrArg _ hnew).trans ?_⟩
          rw [Option.map_some, hstatus, hdeleted]
      · exact Gains.refl _ db
  | insertItem r =>
      show Gains id db (db.insertItem r)
      unfold Database.insertItem
      split
      · exact ⟨fun _ => Or.inl rfl, rfl⟩
      · exact Gains.refl id db
  | update u now => exact gains_update hx

theorem gains_writeAll {id : Int} {log : List Write} {db : Database}
    (hlog : forall x, x ∈ log -> placesOnly id x) :
    Gains id db (db.writeAll log) := by
  induction log generalizing db with
  | nil => exact Gains.refl id db
  | cons x rest ih =>
      rw [Database.writeAll_cons]
      exact (gains_write (hlog x List.mem_cons_self)).trans
        (ih (fun y hy => hlog y (List.mem_cons_of_mem _ hy)))

def mild : Cmd -> Bool
  | .addJob _ => false
  | .commit => false
  | .insert false (.order _ _ _) => false
  | .update false (.orderStatus _ _) => false
  | .update false (.orderDeleted _ _) => false
  | _ => true

section Command

variable {ok : Env -> Prop} {w w' : World} {tx tx' : Tx} {c : Cmd}
variable {r : service.Reply c}

theorem still_of_next (hc : mild c = true)
    (h : Next ok (w, tx) c r (w', tx')) : Still w w' := by
  have hqueue : w'.queue = w.queue := by
    rcases queue_of_next h with hsame | ⟨job, rfl, _⟩
    · exact hsame
    · cases hc
  have hreserve : forall name, (forall id, track (w.db.reserve name) id =
      track w.db id) ∧ w.db.orders.seq ≤ (w.db.reserve name).orders.seq := by
    intro name
    cases name with
    | orders => exact ⟨fun _ => rfl, Int.le_add_one (le_refl _)⟩
    | _ => exact ⟨fun _ => rfl, le_refl _⟩
  -- a write that could belong to any order belongs to none
  have hnone : forall {db db' : Database}, (forall id, Gains id db db') ->
      forall id, track db' id = track db id := by
    intro db db' hgains id
    rcases (hgains (id + 1)).tracks id with hsame | ⟨heq, _⟩
    · exact hsame
    · omega
  suffices hdb : (forall id, track w'.db id = track w.db id) ∧
      w.db.orders.seq ≤ w'.db.orders.seq from ⟨hdb.left, hqueue, hdb.right⟩
  have hstore := storeStep_of_next h
  generalize w'.db = db' at hstore
  cases hstore with
  | same => exact ⟨fun _ => rfl, le_refl _⟩
  | reserved inTx row => exact hreserve _
  | inserted row now =>
      have hgains : forall id, Gains id (w.db.reserve row.table)
          ((w.db.reserve row.table).write
            (row.write (w.db.nextId row.table) now)) := by
        intro id
        refine gains_write ?_
        cases row with
        | order => cases hc
        | _ => trivial
      refine ⟨fun id => (hnone hgains id).trans ((hreserve _).left id), ?_⟩
      rw [(hgains 0).seq]
      exact (hreserve _).right
  | updated u now =>
      have hgains : forall id, Gains id w.db (w.db.update u now) := by
        intro id
        refine gains_update ?_
        cases u with
        | orderStatus | orderDeleted => cases hc
        | _ => trivial
      exact ⟨hnone hgains, (hgains 0).seq.ge⟩
  | committed => cases hc

end Command

/-!
# What stays when orders stay

A task that moves no order leaves the invariant as it is, up to its own errand.
-/

section Still

variable {b : Bull} {w w' : World} {ghosts : List (Errand × Tx)} {g g' : Errand}
variable {tx tx' : Tx}

theorem Given.later {job : Job} (h : Given w job)
    (hknown : forall job, Jobs.known w.queue job = true ->
      Jobs.known w'.queue job = true)
    (hseq : w.db.orders.seq ≤ w'.db.orders.seq) : Given w' job :=
  ⟨lt_of_lt_of_le h.key hseq, hknown job h.known⟩

theorem Stands.elsewhere (hqueue : w'.queue = w.queue)
    (hseq : w.db.orders.seq ≤ w'.db.orders.seq)
    (hjob : forall job, g.job? = some job ->
      track w'.db job.orderId = track w.db job.orderId)
    (hopen : forall id, g.open? = some id -> track w'.db id = track w.db id)
    (h : Stands w g tx) : Stands w' g tx := by
  have hgiven : forall job, Given w job -> Given w' job := by
    intro job hgiven
    refine hgiven.later (fun job hknown => ?_) hseq
    rw [hqueue]
    exact hknown
  have hpending : forall id, g.open? = some id -> Pending w id tx ->
      Pending w' id tx := by
    intro id hid hpending
    refine ⟨lt_of_lt_of_le hpending.key hseq, ?_, hpending.log⟩
    rw [hopen id hid]
    exact hpending.absent
  cases g with
  | aside | ordering | placing | opened => exact h
  | entered id | queued id =>
      refine ⟨hpending id rfl h.left, ?_⟩
      rw [hqueue]
      exact h.right
  | placed id =>
      refine ⟨h.left, ?_⟩
      rw [hqueue]
      exact h.right
  | begun job | bound job | finished job =>
      rcases h with ⟨htx, hgiven', hrest⟩
      refine ⟨htx, hgiven job hgiven', ?_⟩
      rw [hjob job rfl]
      exact hrest
  | moved job =>
      rcases h with ⟨htx, hgiven', hrest⟩
      refine ⟨htx, hgiven job hgiven', ?_⟩
      rw [hjob job rfl, hqueue]
      exact hrest

theorem Stands.still (hstill : Still w w') (h : Stands w g tx) :
    Stands w' g tx :=
  h.elsewhere hstill.queue hstill.seq (fun _ _ => hstill.tracks _)
    (fun _ _ => hstill.tracks _)

theorem exists_set {i : Nat} {p : Errand -> Prop}
    (hi : ghosts[i]? = some (g, tx)) (hkeeps : p g -> p g')
    (h : exists e, e ∈ ghosts ∧ p e.1) :
    exists e, e ∈ ghosts.set i (g', tx') ∧ p e.1 := by
  rcases h with ⟨e, he, hp⟩
  rcases Pool.mem_set_or_eq hi he (g', tx') with hold | rfl
  · exact ⟨e, hold, hp⟩
  · exact ⟨_, Pool.mem_set_self hi _, hkeeps hp⟩

theorem OnWay.set {q : Queue} {id : Int} {status : Status} {i : Nat}
    (h : OnWay b q ghosts id status) (hi : ghosts[i]? = some (g, tx))
    (hmoved : g = .moved ⟨id, status⟩ -> g' = .moved ⟨id, status⟩) :
    OnWay b q (ghosts.set i (g', tx')) id status where
  opened := h.opened
  ahead := h.ahead
  unbegun := h.unbegun
  next := fun t ht => (h.next t ht).imp_right
    (exists_set (p := fun g => g = .moved ⟨id, status⟩) hi hmoved)

theorem Afoot.set {i : Nat} (h : Afoot b w ghosts)
    (hi : ghosts[i]? = some (g, tx)) (hjob : g'.job? = g.job?)
    (hkeys : forall job, known w'.queue job = true ->
      job.orderId < w'.db.orders.seq)
    (hways : forall {id status deleted},
      track w'.db id = some (status, deleted) ->
        deleted = none ∧
          OnWay b w'.queue (ghosts.set i (g', tx')) id status) :
    Afoot b w' (ghosts.set i (g', tx')) where
  keys := hkeys
  thrown := h.thrown
  settled := h.settled
  running := fun job hmem => exists_set (p := fun g => g.job? = some job) hi
    (fun hg => hjob.trans hg) (h.running job hmem)
  begun := by
    intro e he job hjob'
    rcases List.mem_or_eq_of_mem_set he with hold | rfl
    · exact h.begun e hold job hjob'
    · exact h.begun _ (List.mem_of_getElem? hi) job (hjob.symm.trans hjob')
  ways := hways

/-- What a step of one task has to establish. -/
structure Goes (b : Bull) (w : World) (g : Errand) (w' : World)
    (ghosts' : List (Errand × Tx)) (g' : Errand) (tx' : Tx) : Prop where
  all : Afoot b w' ghosts'
  self : Stands w' g' tx'
  others : forall h there, Stands w h there -> Apart g h ->
    Stands w' h there ∧ Apart g' h

theorem Afoot.still {i : Nat} (h : Afoot b w ghosts)
    (hi : ghosts[i]? = some (g, tx)) (hstill : Still w w')
    (hjob : g'.job? = g.job?)
    (hmoved : forall job, g = .moved job -> g' = .moved job) :
    Afoot b w' (ghosts.set i (g', tx')) := by
  refine h.set hi hjob ?_ ?_
  · intro job hknown
    rw [hstill.queue] at hknown
    exact lt_of_lt_of_le (h.keys job hknown) hstill.seq
  · intro id status deleted htrack
    rw [hstill.tracks] at htrack
    rw [hstill.queue]
    rcases h.ways htrack with ⟨hlive, hway⟩
    exact ⟨hlive, hway.set hi (hmoved _)⟩

theorem Apart.keeps {h : Errand} (hapart : Apart g h)
    (hjob : g'.job? = g.job?)
    (hopen : forall id, g'.open? = some id -> g.open? = some id) :
    Apart g' h where
  jobs := fun job hg => hapart.jobs job (hjob.symm.trans hg)
  orders := fun id hg => hapart.orders id (hopen id hg)
  left := fun id job hg => hapart.left id job (hopen id hg)
  right := fun id job hh hg => hapart.right id job hh (hjob.symm.trans hg)

theorem goes_still {i : Nat} (h : Afoot b w ghosts)
    (hi : ghosts[i]? = some (g, tx)) (hstill : Still w w')
    (hself : Stands w' g' tx') (hjob : g'.job? = g.job?)
    (hopen : forall id, g'.open? = some id -> g.open? = some id)
    (hmoved : forall job, g = .moved job -> g' = .moved job) :
    Goes b w g w' (ghosts.set i (g', tx')) g' tx' where
  all := h.still hi hstill hjob hmoved
  self := hself
  others := fun _ _ hstands hapart =>
    ⟨hstands.still hstill, hapart.keeps hjob hopen⟩

end Still

end Jobs
end ExpressEcommerce
