import ExpressEcommerce.Foundation.Arrivals
import ExpressEcommerce.Foundation.Lists
import ExpressEcommerce.Service.Execution
import ExpressEcommerce.Sessions.Tokens

/-!
# The service on the network

Requests arrive at any time with any header, except that nobody but the service
can sign: a text that passes the signature check is a token that a login was
answered with before.  Jobs of the queue start in between.
-/

namespace ExpressEcommerce
namespace Sessions

open Foundation
open Store
open Service

/-- A request with its header and the time of its arrival, or a job. -/
inductive Visit where
  | call (req : Request) (header : Option String) (now : Nat)
  | statusJob (job : Job)
  | cancelJob (orderId : Int)
  deriving DecidableEq, Repr

/-- The time, and the claims of the tokens that have gone out. -/
structure Front where
  clock : Nat
  issued : List Claims

section Door

variable (J : Signer)

/-- The task that is run for a visit. -/
def Visit.task : Visit -> Task
  | call req header now =>
      .request (present (fun m => m.token J now header) req)
  | statusJob job => .statusJob job
  | cancelJob orderId => .cancelJob orderId

/-- The header contains no token but those that have been issued. -/
def Unforged (issued : List Claims) (header : Option String) : Prop :=
  forall (m : Middleware) text c, m.text header = some text ->
    J.decode text = some c -> c ∈ issued

/-- `jwt.sign` in the answer to a login. -/
def granted : Visit -> Outcome -> Nat -> List Claims
  | .call (.loginCustomer _) _ _, .response ⟨_, .token _ id email⟩, now =>
      [Claims.fresh id email now]
  | _, _, _ => []

def door : Door World Tx Visit Outcome Front where
  enters := fun _ _ front visit front' =>
    match visit with
    | .call _ header now =>
        front.clock ≤ now ∧ Unforged J front.issued header ∧
          front' = { front with clock := now }
    | _ => front' = front
  leaves := fun front visit out front' =>
    exists now, front.clock ≤ now ∧
      front' = ⟨now, front.issued ++ granted visit out now⟩

abbrev Site : Type := Server service World Tx Outcome Visit Front

/-- What the network can make of a service that starts without tokens. -/
def Serves (ok : Env -> Prop) (w : World) (now : Nat) (site : Site) : Prop :=
  Server.Reaches (system ok) (door J) none (fun v => (v.task J).code)
    (Server.opened ⟨now, []⟩ w) site

end Door

section Runs

variable {J : Signer} {ok : Env -> Prop} {w : World} {start : Nat}
variable {site site' : Site}

theorem enabled_idle {others : List Tx} {c : Cmd}
    (h : Enabled others c) : Enabled (others ++ [none]) c := by
  cases c with
  | update inTx change =>
      intro tx htx
      rcases List.mem_append.mp htx with hold | hnew
      · exact h tx hold
      · rw [List.mem_singleton.mp hnew]
        rintro ⟨log, ⟨⟩, _⟩
  | _ => trivial

/-- The network shows nothing of the store that a pool of tasks does not. -/
theorem reaches_of_serves (h : Serves J ok w start site) :
    Pool.Reaches (system ok) (startPool w (site.visits.map (Visit.task J)))
      site.pool := by
  have hbatch := Server.reaches_batch enabled_idle h
  unfold Server.batch at hbatch
  unfold startPool
  rw [List.map_map]
  exact hbatch

/-- A token comes from a login with this body: it arrived before the token was
signed, and the token is its answer. -/
def GrantedBy (site : Site) (c : Claims) (body : CustomerBody) : Prop :=
  exists j header arrival, j ∈ site.answered ∧
    site.visits[j]? = some (.call (.loginCustomer body) header arrival) ∧
    arrival ≤ c.iat ∧ exists tx status message, site.pool.threads[j]? =
      some ⟨tx, .ret (.response ⟨status, .token message c.id c.email⟩)⟩

/-- What holds at the door at all times. -/
structure Guarded (J : Signer) (site : Site) : Prop where
  issued : forall c, c ∈ site.front.issued -> c.exp = c.iat + lifetime ∧
    c.iat ≤ site.front.clock ∧ exists body, GrantedBy site c body
  arrived : forall req header now, .call req header now ∈ site.visits ->
    now ≤ site.front.clock ∧
    forall (m : Middleware) text c, m.text header = some text ->
      J.decode text = some c -> c ∈ site.front.issued ∧ c.iat ≤ now

theorem ended_stays {S : System service World Tx} {pool pool' : Tasks}
    {i : Nat} {tx : Tx} {out : Outcome} (h : Pool.Step S pool pool')
    (hend : pool.threads[i]? = some ⟨tx, .ret out⟩) :
    pool'.threads[i]? = some ⟨tx, .ret out⟩ := by
  cases h with
  | mk j hthread _ _ =>
      have hne : j ≠ i := by
        rintro rfl
        rw [hend] at hthread
        cases hthread
      dsimp only
      rw [List.getElem?_set_ne hne]
      exact hend

theorem GrantedBy.mono {c : Claims} {body : CustomerBody}
    (h : GrantedBy site c body)
    (hanswered : forall j, j ∈ site.answered -> j ∈ site'.answered)
    (hvisits : forall {j : Nat} {v : Visit}, site.visits[j]? = some v ->
      site'.visits[j]? = some v)
    (hends : forall {j : Nat} {tx : Tx} {out : Outcome},
      site.pool.threads[j]? = some ⟨tx, .ret out⟩ ->
        site'.pool.threads[j]? = some ⟨tx, .ret out⟩) :
    GrantedBy site' c body := by
  rcases h with ⟨j, header, arrival, hj, hvisit, hle, tx, status, message, hend⟩
  exact ⟨j, header, arrival, hanswered j hj, hvisits hvisit, hle, tx, status,
    message, hends hend⟩

theorem mem_granted {visit : Visit} {out : Outcome} {now : Nat} {c : Claims}
    (h : c ∈ granted visit out now) :
    c.iat = now ∧ c.exp = now + lifetime ∧
      (exists body header time, visit = .call (.loginCustomer body) header time) ∧
      exists status message,
        out = .response ⟨status, .token message c.id c.email⟩ := by
  unfold granted at h
  split at h
  · cases List.mem_singleton.mp h
    exact ⟨rfl, rfl, ⟨_, _, _, rfl⟩, _, _, rfl⟩
  · cases h

theorem guarded_enter {visit : Visit} {front : Front} (h : Guarded J site)
    (hdoor : (door J).enters site.pool.shared
      (site.pool.threads.map Thread.here) site.front visit front) :
    Guarded J ⟨front, ⟨site.pool.shared, site.pool.threads ++
      [⟨none, (visit.task J).code⟩]⟩, site.visits ++ [visit],
      site.answered⟩ := by
  have hgranted : forall c, (exists body, GrantedBy site c body) ->
      exists body, GrantedBy ⟨front, ⟨site.pool.shared,
        site.pool.threads ++ [⟨none, (visit.task J).code⟩]⟩,
        site.visits ++ [visit], site.answered⟩ c body := by
    rintro c ⟨body, hc⟩
    exact ⟨body, hc.mono (fun _ hj => hj) (fun hv => getElem?_snoc hv _)
      (fun he => getElem?_snoc he _)⟩
  have hjob : front = site.front -> (forall req header now,
      visit ≠ .call req header now) -> Guarded J ⟨front,
        ⟨site.pool.shared, site.pool.threads ++ [⟨none, (visit.task J).code⟩]⟩,
        site.visits ++ [visit], site.answered⟩ := by
    rintro rfl hno
    refine ⟨fun c hc => ?_, fun req header now hmem => ?_⟩
    · rcases h.issued c hc with ⟨hexp, hiat, hby⟩
      exact ⟨hexp, hiat, hgranted c hby⟩
    · rcases List.mem_append.mp hmem with hold | hnew
      · exact h.arrived req header now hold
      · exact absurd (List.mem_singleton.mp hnew).symm (hno req header now)
  cases visit with
  | statusJob job => exact hjob hdoor (by rintro _ _ _ ⟨⟩)
  | cancelJob orderId => exact hjob hdoor (by rintro _ _ _ ⟨⟩)
  | call req header now =>
      rcases hdoor with ⟨hclock, hunforged, rfl⟩
      refine ⟨fun c hc => ?_, fun req' header' now' hmem => ?_⟩
      · rcases h.issued c hc with ⟨hexp, hiat, hby⟩
        exact ⟨hexp, hiat.trans hclock, hgranted c hby⟩
      · rcases List.mem_append.mp hmem with hold | hnew
        · rcases h.arrived req' header' now' hold with ⟨hnow, hknown⟩
          exact ⟨hnow.trans hclock, hknown⟩
        · cases List.mem_singleton.mp hnew
          refine ⟨le_refl _, fun m text c htext hdecode => ?_⟩
          have hissued := hunforged m text c htext hdecode
          exact ⟨hissued, (h.issued c hissued).right.left.trans hclock⟩

theorem guarded_leave {i : Nat} {visit : Visit} {tx : Tx} {out : Outcome}
    {front : Front} (h : Guarded J site)
    (hvisit : site.visits[i]? = some visit)
    (hend : site.pool.threads[i]? = some ⟨tx, .ret out⟩)
    (hdoor : (door J).leaves site.front visit out front) :
    Guarded J ⟨front, site.pool, site.visits, i :: site.answered⟩ := by
  rcases hdoor with ⟨now, hclock, rfl⟩
  refine ⟨fun c hc => ?_, fun req header time hmem => ?_⟩
  · rcases List.mem_append.mp hc with hold | hnew
    · rcases h.issued c hold with ⟨hexp, hiat, body, hby⟩
      exact ⟨hexp, hiat.trans hclock, body, hby.mono
        (fun _ hj => List.mem_cons_of_mem _ hj) (fun hv => hv) (fun he => he)⟩
    · rcases mem_granted hnew with ⟨hiat, hexp, ⟨body, header, time, rfl⟩,
        status, message, rfl⟩
      have htime := (h.arrived _ _ _ (List.mem_of_getElem? hvisit)).left
      refine ⟨by rw [hexp, hiat], hiat.le, body, i, header, time,
        List.mem_cons_self, hvisit, ?_, tx, status, message, hend⟩
      rw [hiat]
      exact htime.trans hclock
  · rcases h.arrived req header time hmem with ⟨htime, hknown⟩
    refine ⟨htime.trans hclock, fun m text c htext hdecode => ?_⟩
    rcases hknown m text c htext hdecode with ⟨hissued, hiat⟩
    exact ⟨List.mem_append_left _ hissued, hiat⟩

theorem guarded_step (h : Guarded J site)
    (hstep : Server.Step (system ok) (door J) none
      (fun v => (v.task J).code) site site') : Guarded J site' := by
  cases hstep with
  | enter hdoor => exact guarded_enter h hdoor
  | work hstep =>
      refine ⟨fun c hc => ?_, h.arrived⟩
      rcases h.issued c hc with ⟨hexp, hiat, body, hby⟩
      exact ⟨hexp, hiat, body, hby.mono (fun _ hj => hj) (fun hv => hv)
        (ended_stays hstep)⟩
  | leave i hnew hvisit hend hdoor => exact guarded_leave h hvisit hend hdoor

theorem guarded_of_serves (h : Serves J ok w start site) : Guarded J site :=
  invariant_of_steps guarded_step
    ⟨by rintro c ⟨⟩, by rintro req header now ⟨⟩⟩ h

end Runs

end Sessions
end ExpressEcommerce
