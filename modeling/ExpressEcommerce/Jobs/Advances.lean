import ExpressEcommerce.Jobs.Journeys

/-!
# The commands that move an order

An order gets its number, its first job, its place in the store, a status and a
next job.  Each of these commands keeps all orders on their way, and what the
other tasks rely on.
-/

namespace ExpressEcommerce
namespace Jobs

open Foundation
open Store
open Service

section Moves

variable {b : Bull} {w w' : World} {ghosts : List (Errand × Tx)} {i : Nat}

theorem Stands.key {h : Errand} {there : Tx} (hstands : Stands w h there) :
    (forall job, h.job? = some job -> Given w job) ∧
      forall id, h.open? = some id -> Pending w id there := by
  cases h with
  | entered id =>
      refine ⟨by rintro job ⟨⟩, ?_⟩
      rintro _ ⟨⟩
      exact hstands.left
  | queued id =>
      refine ⟨by rintro job ⟨⟩, ?_⟩
      rintro _ ⟨⟩
      exact hstands.left
  | begun job | bound job | moved job | finished job =>
      refine ⟨?_, by rintro id ⟨⟩⟩
      rintro _ ⟨⟩
      exact hstands.right.left
  | _ => exact ⟨by rintro job ⟨⟩, by rintro id ⟨⟩⟩

theorem goes_insert {tx' : Tx} {r : Order} (h : Afoot b w ghosts)
    (hi : ghosts[i]? = some (.opened, some [])) (hstill : Still w w')
    (hseq : w'.db.orders.seq = w.db.orders.seq + 1)
    (hid : r.id = w.db.orders.seq) (hstatus : r.status = .pending)
    (hdeleted : r.deletedAt = none) (htx : tx' = some [.insertOrder r]) :
    Goes b w .opened w' (ghosts.set i (.entered r.id, tx')) (.entered r.id)
      tx' := by
  have hfree : forall t, known w'.queue ⟨r.id, t⟩ = false := by
    intro t
    rw [hstill.queue, ← Bool.not_eq_true]
    intro hknown
    have hlt := h.keys _ hknown
    rw [hid] at hlt
    exact absurd hlt (lt_irrefl _)
  have habsent : track w'.db r.id = none := by
    rw [hstill.tracks]
    unfold track
    rw [hid, Table.find?_seq]
    rfl
  have hkey : r.id < w'.db.orders.seq := by
    rw [hid, hseq]
    exact Int.lt_succ _
  have hlog : forall x, x ∈ [Write.insertOrder r] -> placesOnly r.id x := by
    intro x hx
    rw [List.mem_singleton.mp hx]
    exact ⟨rfl, hstatus, hdeleted⟩
  refine ⟨h.still hi hstill rfl (by rintro job ⟨⟩), ⟨⟨hkey, habsent, _, htx,
    hlog, r, List.mem_singleton_self _, rfl⟩, hfree⟩, ?_⟩
  intro other there hstands hapart
  refine ⟨hstands.still hstill, by rintro job ⟨⟩, ?_, ?_, by rintro id job _ ⟨⟩⟩
  · rintro _ ⟨⟩ hother
    have hlt := (hstands.key.right _ hother).key
    rw [hid] at hlt
    exact lt_irrefl _ hlt
  · rintro _ job ⟨⟩ hother heq
    have hlt := (hstands.key.left job hother).key
    rw [heq, hid] at hlt
    exact lt_irrefl _ hlt

theorem Given.add {job old : Job} (hdb : w'.db = w.db)
    (hqueue : w'.queue = w.queue.add job) (h : Given w old) : Given w' old := by
  refine h.later (fun other hknown => ?_) (le_of_eq (by rw [hdb]))
  rw [hqueue]
  exact known_add.mpr (Or.inl hknown)

theorem Pending.same {id : Int} {tx : Tx} (hdb : w'.db = w.db)
    (h : Pending w id tx) : Pending w' id tx := by
  refine ⟨?_, ?_, h.log⟩
  · rw [hdb]
    exact h.key
  · rw [hdb]
    exact h.absent

theorem Stands.add {h : Errand} {there : Tx} {job : Job}
    (hdb : w'.db = w.db) (hqueue : w'.queue = w.queue.add job)
    (hopen : forall id, h.open? = some id -> job.orderId ≠ id)
    (hmoved : forall old, h = .moved old -> job.orderId = old.orderId ->
      nextStatusMap old.targetStatus ≠ some job.targetStatus)
    (hstands : Stands w h there) : Stands w' h there := by
  cases h with
  | aside | ordering | placing | opened => exact hstands
  | entered id =>
      refine ⟨hstands.left.same hdb, fun t => ?_⟩
      rw [hqueue, ← Bool.not_eq_true]
      intro hknown
      rcases known_add.mp hknown with hold | rfl
      · rw [hstands.right t] at hold
        cases hold
      · exact hopen id rfl rfl
  | queued id =>
      rcases hstands with ⟨hpend, hwaiting, honly⟩
      rw [Stands, hqueue]
      refine ⟨hpend.same hdb, isWaiting_add.mpr (Or.inl hwaiting),
        fun t hknown => ?_⟩
      rcases known_add.mp hknown with hold | rfl
      · exact honly t hold
      · exact absurd rfl (hopen id rfl)
  | placed id =>
      rw [Stands, hqueue]
      exact ⟨hstands.left, known_add.mpr (Or.inl hstands.right)⟩
  | begun old | bound old | finished old =>
      rcases hstands with ⟨htx, hold, hrest⟩
      refine ⟨htx, hold.add hdb hqueue, ?_⟩
      rw [hdb]
      exact hrest
  | moved old =>
      rcases hstands with ⟨htx, hold, hstatus, hfree⟩
      refine ⟨htx, hold.add hdb hqueue, ?_, fun t ht => ?_⟩
      · rw [hdb]
        exact hstatus
      · rw [hqueue, ← Bool.not_eq_true]
        intro hknown
        rcases known_add.mp hknown with hbefore | rfl
        · rw [hfree t ht] at hbefore
          cases hbefore
        · exact hmoved old rfl rfl ht

theorem OnWay.add {q : Queue} {id : Int} {status : Status} {job : Job}
    (h : OnWay b q ghosts id status) (hne : job.orderId ≠ id) :
    OnWay b (q.add job) ghosts id status where
  opened := h.opened
  ahead := by
    intro t hknown
    rcases known_add.mp hknown with hold | rfl
    · exact h.ahead t hold
    · exact absurd rfl hne
  unbegun := by
    intro t hwaiting
    rcases isWaiting_add.mp hwaiting with hold | ⟨_, rfl⟩
    · exact h.unbegun t hold
    · exact absurd rfl hne
  next := fun t ht => (h.next t ht).imp_left
    (fun hwaiting => isWaiting_add.mpr (Or.inl hwaiting))

theorem OnWay.follow {q : Queue} {id : Int} {status : Status} {job : Job}
    {ghosts' : List (Errand × Tx)} (h : OnWay b q ghosts id status)
    (hid : job.orderId = id)
    (hnext : nextStatusMap status = some job.targetStatus)
    (hnew : known q job = false) :
    OnWay b (q.add job) ghosts' id status := by
  rcases stage_next hnext with ⟨hstage, hopen⟩
  subst hid
  refine ⟨h.opened, fun t hknown => ?_, fun t hwaiting hstarted => ?_,
    fun t ht => ?_⟩
  · rcases known_add.mp hknown with hold | heq
    · exact h.ahead t hold
    · have ht : t = job.targetStatus := congrArg Job.targetStatus heq
      rw [ht]
      exact ⟨hstage.le, hopen⟩
  · rcases isWaiting_add.mp hwaiting with hold | ⟨_, heq⟩
    · exact h.unbegun t hold hstarted
    · have ht : t = job.targetStatus := congrArg Job.targetStatus heq
      rw [ht, hstage]
      exact Nat.lt_succ_self _
  · rw [hnext] at ht
    cases ht
    exact Or.inl (isWaiting_add.mpr (Or.inr ⟨hnew, rfl⟩))

theorem keys_added {job : Job} (h : Afoot b w ghosts) (hdb : w'.db = w.db)
    (hqueue : w'.queue = w.queue.add job)
    (hjob : job.orderId < w.db.orders.seq) :
    forall other, known w'.queue other = true ->
      other.orderId < w'.db.orders.seq := by
  intro other hknown
  rw [hqueue] at hknown
  rw [hdb]
  rcases known_add.mp hknown with hold | rfl
  · exact h.keys other hold
  · exact hjob

theorem goes_queue {id : Int} {tx : Tx} (h : Afoot b w ghosts)
    (hi : ghosts[i]? = some (.entered id, tx))
    (hstands : Stands w (.entered id) tx) (hdb : w'.db = w.db)
    (hqueue : w'.queue = w.queue.add ⟨id, .processing⟩) :
    Goes b w (.entered id) w' (ghosts.set i (.queued id, tx)) (.queued id)
      tx := by
  rcases hstands with ⟨hpending, hfree⟩
  refine ⟨h.set hi rfl (keys_added h hdb hqueue hpending.key) ?_,
    ⟨hpending.same hdb, ?_, ?_⟩,
    fun other there hother hapart => ⟨hother.add hdb hqueue ?_ ?_,
      hapart.keeps rfl (fun _ hg => hg)⟩⟩
  · intro other status deleted htrack
    rw [hdb] at htrack
    rw [hqueue]
    rcases h.ways htrack with ⟨hlive, hway⟩
    have hne : id ≠ other := by
      rintro rfl
      rw [hpending.absent] at htrack
      cases htrack
    exact ⟨hlive, (hway.add hne).set hi (by rintro ⟨⟩)⟩
  · rw [hqueue]
    exact isWaiting_add.mpr (Or.inr ⟨hfree _, rfl⟩)
  · intro t hknown
    rw [hqueue] at hknown
    rcases known_add.mp hknown with hold | heq
    · rw [hfree t] at hold
      cases hold
    · exact congrArg Job.targetStatus heq
  · rintro _ hopen rfl
    exact hapart.orders id rfl hopen
  · rintro old rfl heq
    exact absurd heq.symm (hapart.left id old rfl rfl)

theorem goes_finish {old job : Job} (h : Afoot b w ghosts)
    (hi : ghosts[i]? = some (.moved old, none))
    (hstands : Stands w (.moved old) none) (hsame : job.orderId = old.orderId)
    (hnext : nextStatusMap old.targetStatus = some job.targetStatus)
    (hdb : w'.db = w.db) (hqueue : w'.queue = w.queue.add job) :
    Goes b w (.moved old) w' (ghosts.set i (.finished old, none))
      (.finished old) none := by
  rcases hstands with ⟨_, hgiven, hstatus, hfree⟩
  have hstage := (stage_next hnext).left
  have hnew : known w.queue job = false := by
    have := hfree _ hnext
    rw [← hsame] at this
    exact this
  refine ⟨h.set hi rfl (keys_added h hdb hqueue ?_) ?_,
    ⟨rfl, hgiven.add hdb hqueue, ?_⟩,
    fun other there hother hapart => ⟨hother.add hdb hqueue ?_ ?_,
      hapart.keeps rfl (by rintro _ ⟨⟩)⟩⟩
  · rw [hsame]
    exact hgiven.key
  · intro id status deleted htrack
    rw [hdb] at htrack
    rw [hqueue]
    rcases h.ways htrack with ⟨hlive, hway⟩
    refine ⟨hlive, ?_⟩
    by_cases hid : job.orderId = id
    · have hstatus' : status = old.targetStatus := by
        rw [← hid, hsame] at htrack
        exact hstatus status deleted htrack
      rw [← hstatus'] at hnext
      exact hway.follow hid hnext hnew
    · refine (hway.add hid).set hi ?_
      intro hmoved
      cases hmoved
      exact absurd hsame hid
  · intro s d htrack
    rw [hdb] at htrack
    rw [hstatus s d htrack]
  · intro id hother' heq
    exact hapart.right id old hother' rfl (hsame.symm.trans heq)
  · rintro other' rfl heq ht
    rcases stage_next ht with ⟨hstage', _⟩
    have hsame' : other' = old := by
      have htarget := stage_injective
        (Nat.succ_injective (hstage'.symm.trans hstage))
      cases other'
      cases old
      simp_all
    exact hapart.jobs old rfl (congrArg some hsame')

theorem goes_commit {id : Int} {log : List Write} (h : Afoot b w ghosts)
    (hi : ghosts[i]? = some (.queued id, some log))
    (hstands : Stands w (.queued id) (some log))
    (hdb : w'.db = w.db.writeAll log) (hqueue : w'.queue = w.queue) :
    Goes b w (.queued id) w' (ghosts.set i (.placed id, none)) (.placed id)
      none := by
  rcases hstands with ⟨⟨hkey, habsent, _, ⟨⟩, hlog, _⟩, hwaiting, honly⟩
  have hgains : Gains id w.db w'.db := by
    rw [hdb]
    exact gains_writeAll hlog
  have helse : forall j, j ≠ id -> track w'.db j = track w.db j := by
    intro j hj
    rcases hgains.tracks j with hsame | ⟨heq, _⟩
    · exact hsame
    · exact absurd heq hj
  refine ⟨h.set hi rfl ?_ ?_, ⟨rfl, ?_⟩, fun other there hother hapart =>
    ⟨hother.elsewhere hqueue hgains.seq.ge ?_ ?_,
      hapart.keeps rfl (by rintro _ ⟨⟩)⟩⟩
  · intro job hknown
    rw [hqueue] at hknown
    rw [hgains.seq]
    exact h.keys job hknown
  · intro j status deleted htrack
    rw [hqueue]
    rcases hgains.tracks j with hsame | ⟨rfl, hnew⟩
    · rw [hsame] at htrack
      rcases h.ways htrack with ⟨hlive, hway⟩
      exact ⟨hlive, hway.set hi (by rintro ⟨⟩)⟩
    · rw [hnew] at htrack
      cases htrack
      refine ⟨rfl, by decide, fun t hknown => ?_, fun t ht _ => ?_,
        fun t ht => ?_⟩
      · rw [honly t hknown]
        decide
      · rw [honly t (known_of_waiting ht)]
        decide
      · cases ht
        exact Or.inl hwaiting
  · rw [hqueue]
    exact known_of_waiting hwaiting
  · intro job hjob
    exact helse _ (hapart.left id job rfl hjob)
  · intro j hj
    refine helse j ?_
    rintro rfl
    exact hapart.orders j rfl hj

/-- The order of a job gets its next status, and nothing else moves. -/
structure Advances (w w' : World) (job : Job) (status : Status)
    (deleted : Option Nat) : Prop where
  before : track w.db job.orderId = some (status, deleted)
  now : track w'.db job.orderId = some (job.targetStatus, deleted)
  next : nextStatusMap status = some job.targetStatus
  elsewhere : forall id, id ≠ job.orderId -> track w'.db id = track w.db id
  queue : w'.queue = w.queue
  seq : w'.db.orders.seq = w.db.orders.seq

section Advances

variable {job : Job} {status : Status} {deleted : Option Nat}

theorem advances_update {now : Nat}
    (hbefore : track w.db job.orderId = some (status, deleted))
    (hnext : nextStatusMap status = some job.targetStatus)
    (hdb : w'.db = w.db.update (.orderStatus job.orderId job.targetStatus) now)
    (hqueue : w'.queue = w.queue) : Advances w w' job status deleted where
  before := hbefore
  now := by
    unfold track at hbefore ⊢
    rw [hdb, Database.find?_update_orderStatus, if_pos rfl, Option.map_map]
    rcases Option.map_eq_some_iff.mp hbefore with ⟨o, ho, heq⟩
    rw [ho]
    cases heq
    rfl
  next := hnext
  elsewhere := by
    intro id hid
    unfold track
    rw [hdb, Database.find?_update_orderStatus, if_neg hid]
  queue := hqueue
  seq := by
    rw [hdb]
    rfl

theorem Advances.given (h : Advances w w' job status deleted) {other : Job}
    (hgiven : Given w other) : Given w' other := by
  refine hgiven.later (fun _ hknown => ?_) h.seq.ge
  rw [h.queue]
  exact hknown

theorem Advances.only (h : Advances w w' job status deleted)
    (hway : OnWay b w.queue ghosts job.orderId status) {t : Status}
    (hknown : known w.queue ⟨job.orderId, t⟩ = true)
    (hlt : stage status < stage t) : t = job.targetStatus := by
  have hle := (hway.ahead t hknown).left
  have hstage := (stage_next h.next).left
  exact stage_injective (by omega)

theorem OnWay.advance (h : Advances w w' job status deleted)
    (hway : OnWay b w.queue ghosts job.orderId status)
    (hi : ghosts[i]? = some (.bound job, none)) (hstarted : job ∈ b.started) :
    OnWay b w'.queue (ghosts.set i (Errand.written job, none)) job.orderId
      job.targetStatus := by
  rcases stage_next h.next with ⟨hstage, hopen⟩
  rw [h.queue]
  refine ⟨hopen, fun t hknown => ?_, fun t hwaiting hnot => ?_,
    fun t ht => Or.inr ?_⟩
  · have hahead := hway.ahead t hknown
    exact ⟨by omega, hahead.right⟩
  · have ht := h.only hway (known_of_waiting hwaiting)
      (hway.unbegun t hwaiting hnot)
    subst ht
    exact absurd hstarted hnot
  · refine ⟨_, Pool.mem_set_self hi _, ?_⟩
    unfold Errand.written
    rw [ht]

theorem stands_written (h : Advances w w' job status deleted)
    (hway : OnWay b w.queue ghosts job.orderId status)
    (hgiven : Given w job) : Stands w' (Errand.written job) none := by
  have hnow : forall s d, track w'.db job.orderId = some (s, d) ->
      s = job.targetStatus := by
    intro s d htrack
    rw [h.now] at htrack
    cases htrack
    rfl
  unfold Errand.written
  cases hlast : nextStatusMap job.targetStatus with
  | none =>
      refine ⟨rfl, h.given hgiven, fun s d htrack => ?_⟩
      rw [hnow s d htrack]
  | some later =>
      refine ⟨rfl, h.given hgiven, hnow, fun t ht => ?_⟩
      rw [h.queue, ← Bool.not_eq_true]
      intro hknown
      have hahead := (hway.ahead t hknown).left
      have hstage := (stage_next h.next).left
      have hstage' := (stage_next ht).left
      omega

/-- Another task of the same order has finished its job: a job that has begun
or is about to write would be this one, and one that has written its status
knows of no next job. -/
theorem Stands.advance (h : Advances w w' job status deleted)
    (hway : OnWay b w.queue ghosts job.orderId status) (hgiven : Given w job)
    {other : Errand} {there : Tx} (hother : Stands w other there)
    (hapart : Apart (.bound job) other) : Stands w' other there := by
  have hpending : forall id, other.open? = some id -> id ≠ job.orderId := by
    rintro _ hid rfl
    have habsent := (hother.key.right _ hid).absent
    rw [h.before] at habsent
    cases habsent
  have helsewhere : (forall old, other.job? = some old ->
      old.orderId ≠ job.orderId) -> Stands w' other there := by
    intro hne
    exact hother.elsewhere h.queue h.seq.ge
      (fun old hold => h.elsewhere _ (hne old hold))
      (fun id hid => h.elsewhere _ (hpending id hid))
  have hsame : forall old, other.job? = some old ->
      old.orderId = job.orderId -> old.targetStatus ≠ job.targetStatus := by
    intro old hold hid htarget
    refine hapart.jobs job rfl (hold.trans (congrArg some ?_))
    cases old
    cases job
    simp_all
  cases other with
  | begun old =>
      refine helsewhere ?_
      rintro _ ⟨⟩ hid
      rcases hother with ⟨_, hknown, hbefore⟩
      rw [hid] at hbefore
      refine hsame old rfl hid (h.only hway ?_ (hbefore _ _ h.before))
      rw [← hid]
      exact hknown.known
  | bound old =>
      refine helsewhere ?_
      rintro _ ⟨⟩ hid
      rcases hother with ⟨_, _, s, d, htrack, hnext⟩
      rw [hid, h.before] at htrack
      cases htrack
      rw [h.next] at hnext
      exact hsame old rfl hid (Option.some.inj hnext).symm
  | moved old =>
      refine helsewhere ?_
      rintro _ ⟨⟩ hid
      rcases hother with ⟨_, _, hstatus, hfree⟩
      rw [hid] at hstatus hfree
      have hnext := h.next
      rw [hstatus _ _ h.before] at hnext
      have hunknown := hfree _ hnext
      rw [hgiven.known] at hunknown
      cases hunknown
  | finished old =>
      by_cases hid : old.orderId = job.orderId
      · rcases hother with ⟨htx, hold, hpast⟩
        refine ⟨htx, h.given hold, fun s d htrack => ?_⟩
        rw [hid, h.now] at htrack
        cases htrack
        rw [hid] at hpast
        have hle := hpast _ _ h.before
        have hstage := (stage_next h.next).left
        omega
      · refine helsewhere ?_
        rintro _ ⟨⟩
        exact hid
  | _ =>
      refine helsewhere ?_
      rintro _ ⟨⟩

end Advances

theorem goes_move {job : Job} {now : Nat} (h : Afoot b w ghosts)
    (hi : ghosts[i]? = some (.bound job, none))
    (hstands : Stands w (.bound job) none)
    (hdb : w'.db = w.db.update (.orderStatus job.orderId job.targetStatus) now)
    (hqueue : w'.queue = w.queue) :
    Goes b w (.bound job) w' (ghosts.set i (Errand.written job, none))
      (Errand.written job) none := by
  rcases hstands with ⟨_, hgiven, status, deleted, hbefore, hnext⟩
  have hadvances := advances_update hbefore hnext hdb hqueue
  rcases h.ways hbefore with ⟨hlive, hway⟩
  have hstarted : job ∈ b.started :=
    h.begun _ (List.mem_of_getElem? hi) job rfl
  have hjobs : (Errand.written job).job? = some job := by
    rcases Errand.written_eq job with heq | heq <;> rw [heq] <;> rfl
  have hopens : forall id, (Errand.written job).open? = some id ->
      (Errand.bound job).open? = some id := by
    rcases Errand.written_eq job with heq | heq <;> rw [heq] <;>
      rintro _ ⟨⟩
  refine ⟨h.set hi hjobs ?_ ?_, stands_written hadvances hway hgiven,
    fun other there hother hapart =>
      ⟨hother.advance hadvances hway hgiven hapart, hapart.keeps hjobs hopens⟩⟩
  · intro other hknown
    rw [hqueue] at hknown
    rw [hadvances.seq]
    exact h.keys other hknown
  · intro id s d htrack
    by_cases hid : id = job.orderId
    · subst hid
      rw [hadvances.now] at htrack
      cases htrack
      exact ⟨hlive, hway.advance hadvances hi hstarted⟩
    · rw [hadvances.elsewhere id hid] at htrack
      rcases h.ways htrack with ⟨hlive', hway'⟩
      rw [hqueue]
      exact ⟨hlive', hway'.set hi (by rintro ⟨⟩)⟩

end Moves

end Jobs
end ExpressEcommerce
