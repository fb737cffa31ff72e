import ExpressEcommerce.Caching.Conformance

/-!
# The readers and the cache

`getOrderById` and `getProductById` fill the cache with what they have just read
and with nothing else.  Together with the writers this gives the duty of every
task.
-/

namespace ExpressEcommerce
namespace Caching

open Foundation
open Store
open Service

/-- An order that `getOrderById` answers with was found under its key or read
from the store, and it carries the id of the customer of the token. -/
def Answered (t : Task) (out : Outcome) (duty : Duty) : Prop :=
  forall token id value, t = .request (.getOrderById token id) ->
    out = .response ⟨200, .order value⟩ ->
      token = .valid value.order.customerId ∧
        (duty = .seen (.order value) ∨
          exists found, duty = .filled found ∧ found.value = .order value)

/-- How a task may end.  A writer has nothing left to clear. -/
structure Discharged (up : Prop) (t : Task) (out : Outcome) (duty : Duty) :
    Prop where
  cleared : isReader t = false -> Cleared up (rightsOf t) duty
  reading : isReader t = true -> duty.isReading = true
  answer : Answered t out duty

section Readers

variable {up : Prop} {E : String -> Duty -> Prop}

theorem wp_ask_customer {Q : Option Customer -> Duty -> Prop} {id : Int}
    {paranoid : Bool}
    (hok : forall found, (forall c, found = some c -> c.id = id) ->
      Q found .asking)
    (herr : forall e, E e .asking) :
    Action.wp (duties up) (query false (.customerByPk id paranoid)) Q E
      .asking := by
  refine Action.wp_command rfl ?_ ?_
  · rintro found _ ⟨rfl, hid⟩
    exact hok found hid
  · rintro e _ rfl
    exact herr e

theorem wp_ask_cache {Q : Option CacheValue -> Duty -> Prop} {key : String}
    (hhit : forall value, Q (some value) (.seen value))
    (hmiss : Q none .asking) (herr : forall e, E e .asking) :
    Action.wp (duties up) (Action.perform (I := service) (Cmd.redisGet key)) Q E
      .asking := by
  refine Action.wp_command trivial ?_ ?_
  · rintro (_ | value) _ rfl
    · exact hmiss
    · exact hhit value
  · rintro e _ rfl
    exact herr e

theorem wp_ask_order {Q : Option OrderGraph -> Duty -> Prop} {id : Int}
    (hnone : Q none .asking)
    (hsome : forall graph, Q (some graph) (.holding (.order id graph)))
    (herr : forall e, E e .asking) :
    Action.wp (duties up) (query false (.orderByPk id true everything)) Q E
      .asking := by
  refine Action.wp_command ⟨rfl, rfl, rfl⟩ ?_ ?_
  · rintro (_ | graph) _ rfl
    · exact hnone
    · exact hsome graph
  · rintro e _ rfl
    exact herr e

theorem wp_ask_product {Q : Option Product -> Duty -> Prop} {id : Int}
    (hnone : Q none .asking)
    (hsome : forall row, Q (some row) (.holding (.product id row)))
    (herr : forall e, E e .asking) :
    Action.wp (duties up) (query false (.productByPk id false)) Q E
      .asking := by
  refine Action.wp_command ⟨rfl, rfl⟩ ?_ ?_
  · rintro (_ | row) _ rfl
    · exact hnone
    · exact hsome row
  · rintro e _ rfl
    exact herr e

theorem wp_fill (found : Fetched) {Q : Unit -> Duty -> Prop}
    {text : String} (hid : pgInteger? text = some found.id)
    (hok : Q () (.filled found)) (herr : forall e, E e (.holding found)) :
    Action.wp (duties up)
      (Action.perform (I := service)
        (Cmd.redisSet (found.key text) found.value)) Q E (.holding found) := by
  refine Action.wp_command ⟨rfl, text, rfl, hid⟩ ?_ ?_
  · rintro _ _ rfl
    exact hok
  · rintro e _ rfl
    exact herr e

/-- What `getOrderById` answers. -/
def Answers (customerId : Int) (r : Response) (duty : Duty) : Prop :=
  forall value, r = ⟨200, .order value⟩ ->
    value.order.customerId = customerId ∧
      (duty = .seen (.order value) ∨
        exists found, duty = .filled found ∧ found.value = .order value)

theorem answers_error {customerId : Int} {status : Nat} {text : String}
    {duty : Duty} : Answers customerId ⟨status, .error text⟩ duty := by
  intro value h
  cases h

theorem wp_getOrderById (customerId : Int) (orderId : String) :
    Action.wp (duties up) (getOrderById customerId orderId)
      (Answers customerId) (fun _ _ => False) .asking := by
  refine (Action.wp_tryCatch _ _ _).mpr ?_
  rw [Action.wp_bind]
  refine wp_ask_cache (fun value => ?_) ?_ (fun _ => answers_error)
  · cases value with
    | product value => exact answers_error
    | order value =>
        dsimp only
        split
        · exact answers_error
        · rename_i howner
          intro value' heq
          cases heq
          exact ⟨Decidable.not_not.mp howner, Or.inl rfl⟩
  · dsimp only
    refine wp_integerParam (fun _ _ => answers_error) (fun id hid => ?_)
    rw [Action.wp_bind]
    refine wp_ask_order answers_error (fun graph => ?_)
      (fun _ => answers_error)
    dsimp only
    split
    · exact answers_error
    · rename_i howner
      rw [Action.wp_bind]
      refine wp_fill (.order id graph) hid ?_ (fun _ => answers_error)
      intro value heq
      cases heq
      exact ⟨Decidable.not_not.mp howner, Or.inr ⟨_, rfl, rfl⟩⟩

theorem wp_getProductById (idParam : String) :
    Action.wp (duties up) (getProductById idParam) (fun _ _ => True)
      (fun _ _ => True) .asking := by
  refine (Action.wp_tryCatch _ _ _).mpr ?_
  rw [Action.wp_bind]
  refine wp_ask_cache (fun value => ?_) ?_ (fun _ => trivial)
  · cases value <;> trivial
  · dsimp only
    refine wp_integerParam (fun _ _ => trivial) (fun id hid => ?_)
    rw [Action.wp_bind]
    refine wp_ask_product trivial (fun row => ?_) (fun _ => trivial)
    dsimp only
    rw [Action.wp_bind]
    exact wp_fill (.product id row) hid trivial (fun _ => trivial)

theorem wp_getOrderById_route (token : Token) (id : String) :
    Action.wp (duties up) (handle (.getOrderById token id))
      (fun r duty => forall value, r = ⟨200, .order value⟩ ->
        token = .valid value.order.customerId ∧
          (duty = .seen (.order value) ∨
            exists found, duty = .filled found ∧ found.value = .order value))
      (fun _ _ => False) .asking := by
  show Action.wp (duties up) (authenticated token _ _ _ _) _ _ _
  cases token with
  | missing =>
      intro value h
      cases h
  | invalid =>
      intro value h
      cases h
  | valid customerId =>
      unfold authenticated
      dsimp only
      rw [Action.wp_bind, Action.wp_tryCatch, Action.wp_bind]
      refine wp_ask_customer (fun found hfound => ?_) (fun e value h => ?_)
      · rw [Action.wp_pure]
        cases found with
        | none =>
            intro value h
            cases h
        | some c =>
            refine Action.wp_mono ?_ (fun _ _ h => h)
              (wp_getOrderById c.id id)
            intro r duty hanswers value heq
            rcases hanswers value heq with ⟨howner, hduty⟩
            rw [howner, hfound c rfl]
            exact ⟨rfl, hduty⟩
      · cases h

end Readers

theorem isReading_next {up : Prop} {duty duty' : Duty} {c : Cmd}
    {r : service.Reply c} (h : duty.isReading = true)
    (hmay : (duties up).may duty c) (hnext : (duties up).next duty c r duty') :
    duty'.isReading = true := by
  cases duty with
  | owing rights keys => cases h
  | asking =>
      cases c with
      | query inTx q =>
          cases r with
          | error e => cases q <;> cases hnext <;> rfl
          | ok found =>
              cases q with
              | customerByPk id paranoid =>
                  rcases hnext with ⟨rfl, _⟩
                  rfl
              | orderByPk id paranoid incl =>
                  cases found <;> cases hnext <;> rfl
              | productByPk id paranoid =>
                  cases found <;> cases hnext <;> rfl
              | _ => cases hmay
      | redisGet key =>
          cases r with
          | error e =>
              cases hnext
              rfl
          | ok found => cases found <;> cases hnext <;> rfl
      | _ => cases hmay
  | holding found =>
      cases c with
      | redisSet key value => cases r <;> cases hnext <;> rfl
      | _ => cases hmay
  | seen value => cases c <;> cases hmay
  | filled found => cases c <;> cases hmay

/-- Every task keeps to its duty. -/
theorem follows_duty (up : Prop) (t : Task) :
    t.code.wp (duties up) (Discharged up t) (dutyOf t) := by
  have hneat : forall {alpha : Type} {x : Act alpha}
      {done : alpha -> Outcome} {failed : String -> Outcome},
      Neat up (rightsOf t) x -> isReader t = false ->
        (settle x done failed).wp (duties up) (Discharged up t) (dutyOf t) := by
    intro alpha x done failed hx hreader
    have hend : forall {out : Outcome} {duty : Duty},
        Cleared up (rightsOf t) duty -> Discharged up t out duty := by
      intro out duty h
      refine ⟨fun _ => h, fun hyes => ?_, fun token id value ht => ?_⟩
      · rw [hyes] at hreader
        cases hreader
      · rw [ht] at hreader
        cases hreader
    unfold dutyOf
    rw [hreader]
    exact wp_settle.mpr (Action.wp_mono (fun _ _ h => hend h)
      (fun _ _ h => hend h) (hx _ ⟨[], rfl, fun _ => rfl⟩))
  cases t with
  | statusJob job => exact hneat (keeps_statusProcessor statusParts_neat job) rfl
  | cancelJob orderId =>
      exact hneat (keeps_cancelProcessor (stockParts_neat rfl) orderId) rfl
  | request req =>
      cases hreader : isReader (.request req) with
      | false => exact hneat (neat_handle req hreader) hreader
      | true =>
          unfold dutyOf
          rw [hreader, if_pos rfl]
          refine Prog.wp_mono (fun out duty h => ?_) _
            (Prog.wp_invariant isReading_next (Q := Answered (.request req)) _
              rfl ?_)
          · refine ⟨fun hno => ?_, fun _ => h.right, h.left⟩
            rw [hreader] at hno
            cases hno
          · cases req with
            | getOrderById token id =>
                refine wp_settle.mpr (Action.wp_mono (fun r duty h => ?_)
                  (fun _ _ h => False.elim h) (wp_getOrderById_route token id))
                intro token' id' value ht hout
                cases ht
                cases hout
                exact h value rfl
            | getProductById id =>
                have hend : forall {out : Outcome} {duty : Duty},
                    Answered (.request (.getProductById id)) out duty := by
                  intro out duty token id' value ht
                  cases ht
                refine wp_settle.mpr ?_
                show Action.wp (duties up) (validateRequest _ _) _ _ _
                unfold validateRequest
                split
                · exact Action.wp_mono (fun _ _ _ => hend) (fun _ _ _ => hend)
                    (wp_getProductById id)
                · exact hend
            | _ => cases hreader

end Caching
end ExpressEcommerce
