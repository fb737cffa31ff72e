import ExpressEcommerce.Foundation.Simulation
import ExpressEcommerce.Runs.Sequential
import ExpressEcommerce.Service.Numbers

/-!
# Exact amounts

The handlers that compute with JavaScript numbers and the handlers that compute
with exact hundredths issue the same commands, as long as the lines they add up
are moderate.  So every interleaving of the former is one of the latter, with the
same stores and the same answers, and what is proved about exact amounts holds of
the code.
-/

namespace ExpressEcommerce
namespace Checkout

open Foundation
open Store
open Service
open Foundation.Action

def requestLine (products : List Product) (item : ItemRequest) : Int × Int :=
  (((findProduct products item.productId).map Product.price).getD 0,
    item.quantity)

/-- The lines that are added up after a reply are moderate: those of a request
with the prices that were read for it, and those of an order whose total is
computed again. -/
def Measured (tasks : List Task) : (c : Cmd) -> service.Reply c -> Prop
  | .query _ (.productsById ids), .ok rows =>
      forall token items, .request (.createOrder token items) ∈ tasks ->
        items.map ItemRequest.productId = ids ->
          Moderate (items.map (requestLine rows))
  | .query false (.orderByPk _ _ _), .ok (some graph) =>
      Moderate (graph.items.map (fun i => Numbers.itemLine i.item))
  | _, _ => True

inductive Agreeing (tasks : List Task) : service.Pairing where
  | same (c : Cmd) :
      Agreeing tasks c c (fun r r' => r = r' ∧ Measured tasks c r)

section Lockstep

variable {tasks : List Task} (printer : Printer)

theorem agreeing_refl (c : Cmd) : exists rel, Agreeing tasks c c rel ∧
    forall r r', rel r r' -> r = r' :=
  ⟨_, .same c, fun _ _ h => h.left⟩

theorem agree_same {alpha : Type} (x : Act alpha) :
    Lockstep (Agreeing tasks) Eq x x :=
  lockstep_refl agreeing_refl x

section Steps

variable {alpha beta gamma : Type} {Q : alpha -> beta -> Prop}

theorem agree_command {c : Cmd} {f : c.Answer -> Act alpha}
    {g : c.Answer -> Act beta}
    (h : forall a, Measured tasks c (.ok a) ->
      Lockstep (Agreeing tasks) Q (f a) (g a)) :
    Lockstep (Agreeing tasks) Q (perform (I := service) c >>= f)
      (perform (I := service) c >>= g) := by
  refine lockstep_bind (Q := fun a b => a = b ∧ Measured tasks c (.ok a))
    (lockstep_perform (.same c) ?_) ?_
  · rintro r _ ⟨rfl, hmeasured⟩
    cases r with
    | error e => exact rfl
    | ok a => exact ⟨rfl, hmeasured⟩
  · rintro a _ ⟨rfl, hmeasured⟩
    exact h a hmeasured

theorem agree_bind {x : Act gamma} {f : gamma -> Act alpha}
    {g : gamma -> Act beta}
    (h : forall c, Lockstep (Agreeing tasks) Q (f c) (g c)) :
    Lockstep (Agreeing tasks) Q (x >>= f) (x >>= g) := by
  refine lockstep_bind (agree_same x) ?_
  rintro c _ rfl
  exact h c

theorem agree_transaction {body : Act alpha} {body' : Act beta}
    {afterCommit : alpha -> Act Unit} {afterCommit' : beta -> Act Unit}
    (h : Lockstep (Agreeing tasks) Q body body')
    (hafter : forall a b, Q a b -> afterCommit a = afterCommit' b) :
    Lockstep (Agreeing tasks) Q (transaction body afterCommit)
      (transaction body' afterCommit') := by
  refine agree_bind (fun _ => ?_)
  have hbody : Lockstep (Agreeing tasks) Q
      (body >>= fun result => commit >>= fun _ => pure result)
      (body' >>= fun result => commit >>= fun _ => pure result) := by
    refine lockstep_bind h ?_
    intro a b hab
    exact agree_bind (fun _ => lockstep_pure hab)
  have hrolled : forall e, Lockstep (Agreeing tasks) Q
      (detached rollback >>= fun _ => throw e)
      (detached rollback >>= fun _ => throw e) :=
    fun e => agree_bind (fun _ => lockstep_throw e)
  refine lockstep_bind (lockstep_tryCatch hbody hrolled) ?_
  intro a b hab
  rw [hafter a b hab]
  exact agree_bind (fun _ => lockstep_pure hab)

end Steps

theorem exactTotal_items (items : List ItemGraph) :
    exactTotal (items.map (fun i => Numbers.itemLine i.item)) =
      lineSum (items.map ItemGraph.item) := by
  unfold exactTotal lineSum
  rw [List.map_map, List.map_map]
  congr 1
  apply List.map_congr_left
  intro i _
  exact Int.mul_comm _ _

theorem measured_items {orderId : Int} {paranoid : Bool} {incl : Include}
    {graph : OrderGraph}
    (h : Measured tasks (.query false (.orderByPk orderId paranoid incl))
      (.ok (some graph))) :
    Moderate (graph.items.map (fun i => Numbers.itemLine i.item)) :=
  h

theorem agree_recalculate (item : OrderItem) :
    Lockstep (Agreeing tasks) Eq
      (Numbers.OrderItem.recalculate printer item)
      (OrderItem.recalculate item) := by
  refine agree_command ?_
  intro found hmeasured
  cases found with
  | none => exact agree_same _
  | some graph =>
      have htotal := decimalColumn_numberTotal printer
        (measured_items hmeasured)
      rw [exactTotal_items] at htotal
      dsimp only
      rw [htotal]
      exact agree_same _

theorem agree_itemCreate (orderId productId quantity unitPrice : Int) :
    Lockstep (Agreeing tasks) Eq
      (Numbers.OrderItem.create printer true orderId productId quantity
        unitPrice)
      (OrderItem.create true orderId productId quantity unitPrice) := by
  refine agree_bind (fun inserted => ?_)
  refine lockstep_bind (agree_recalculate printer _) ?_
  rintro _ _ rfl
  exact agree_same _

def Tallied (products : List Product) (done : List ItemRequest)
    (number : Number) (total : Int) : Prop :=
  number = numberTotal (done.map (requestLine products)) ∧
    total = exactTotal (done.map (requestLine products))

theorem agree_placeItem (products : List Product) (order : Order)
    (done : List ItemRequest) (item : ItemRequest) {number : Number}
    {total : Int} (h : Tallied products done number total) :
    Lockstep (Agreeing tasks) (Tallied products (done ++ [item]))
      (Numbers.placeItem printer products order number item)
      (placeItem products order total item) := by
  unfold Numbers.placeItem placeItem
  cases hfound : findProduct products item.productId with
  | none => exact lockstep_throw _
  | some product =>
      have hline : requestLine products item = (product.price, item.quantity) := by
        unfold requestLine
        rw [hfound]
        rfl
      refine lockstep_bind (agree_itemCreate printer _ _ _ _) ?_
      rintro _ _ rfl
      refine lockstep_bind (agree_same _) ?_
      rintro _ _ rfl
      refine lockstep_pure ⟨?_, ?_⟩
      · rw [List.map_append, List.map_singleton, numberTotal_append, hline,
          ← h.left]
      · rw [List.map_append, List.map_singleton, exactTotal_append, hline,
          ← h.right]

/-- The order of the exact handler, with a text that is less than half a cent
away from its total. -/
def Close (placed : Order × Rat) (order : Order) : Prop :=
  placed.1 = order ∧ |placed.2 - order.totalPrice / 100| < 1 / 200

theorem agree_createOrderBody (token : Token) (customerId : Int)
    {items : List ItemRequest}
    (htask : .request (.createOrder token items) ∈ tasks) :
    Lockstep (Agreeing tasks) Close
      (Numbers.createOrderBody printer customerId items)
      (createOrderBody customerId items) := by
  refine agree_command ?_
  intro products hmeasured
  have hmoderate := hmeasured token items htask rfl
  refine agree_bind (fun _ => agree_bind (fun order => ?_))
  have hloop := lockstep_foldlM (L := Agreeing tasks) (Tallied products)
    (fun done item _ _ h => agree_placeItem printer products order done item h)
    [] items ⟨rfl, rfl⟩
  refine lockstep_bind hloop ?_
  rintro number total ⟨hnumber, htotal⟩
  rw [List.nil_append] at hnumber htotal
  rw [hnumber, htotal, decimalColumn_numberTotal printer hmoderate]
  have hnear := text_near printer hmoderate
  have hsaved : Lockstep (Agreeing tasks)
      (fun order order' => order = order' ∧
        order.totalPrice = exactTotal (items.map (requestLine products)))
      (Order.saveTotal true order (exactTotal (items.map (requestLine products))))
      (Order.saveTotal true order
        (exactTotal (items.map (requestLine products)))) :=
    agree_bind (fun _ => agree_bind (fun _ => lockstep_pure ⟨rfl, rfl⟩))
  refine lockstep_map _ hsaved ?_
  rintro saved _ ⟨rfl, hsavedTotal⟩
  refine ⟨rfl, ?_⟩
  rw [hsavedTotal]
  exact hnear

/-- An answer shows what the exact handler answers; a text shown for the total
is less than half a cent away from it. -/
def Shows (shown : Outcome × Option Rat) (out : Outcome) : Prop :=
  shown.1 = out ∧ forall text, shown.2 = some text ->
    exists message json, out = .response ⟨201, .messageOrder message json⟩ ∧
      |text - json.order.totalPrice / 100| < 1 / 200

def ShowsResponse (shown : Numbers.Shown) (response : Response) : Prop :=
  Shows (.response shown.1, shown.2) (.response response)

theorem agree_plain (x : Act Response) :
    Lockstep (Agreeing tasks) ShowsResponse (Numbers.plain x) x := by
  refine lockstep_map _ (agree_same x) ?_
  rintro response _ rfl
  exact ⟨rfl, fun _ h => nomatch h⟩

theorem agree_createOrder (token : Token) (customerId : Int)
    {items : List ItemRequest}
    (htask : .request (.createOrder token items) ∈ tasks) :
    Lockstep (Agreeing tasks) ShowsResponse
      (Numbers.createOrder printer customerId items)
      (createOrder customerId items) := by
  refine lockstep_tryCatch (lockstep_bind (agree_transaction
    (agree_createOrderBody printer token customerId htask) ?_) ?_) ?_
  · rintro placed order ⟨rfl, _⟩
    rfl
  · rintro ⟨_, text⟩ order ⟨rfl, hnear⟩
    refine lockstep_pure ⟨rfl, ?_⟩
    rintro _ ⟨⟩
    exact ⟨_, _, rfl, hnear⟩
  · intro e
    exact lockstep_pure ⟨rfl, fun _ h => nomatch h⟩

theorem agree_handle {req : Request} (htask : .request req ∈ tasks) :
    Lockstep (Agreeing tasks) ShowsResponse (Numbers.handle printer req)
      (Service.handle req) := by
  cases req with
  | createOrder token items =>
      cases token with
      | missing => exact agree_plain _
      | invalid => exact agree_plain _
      | valid id =>
          refine agree_bind (fun found => ?_)
          rcases found with e | ⟨_ | customer⟩
          · exact agree_plain _
          · exact agree_plain _
          · exact agree_createOrder printer (.valid id) _ htask
  | _ => exact agree_plain _

theorem agree_task {task : Task} (htask : task ∈ tasks) :
    Prog.Lockstep (Agreeing tasks) Shows (Numbers.taskCode printer task)
      task.code := by
  have hplain : forall p : Prog service Outcome,
      Prog.Lockstep (Agreeing tasks) Shows
        (p.bind (fun out => .ret (out, none))) p := by
    intro p
    refine (Prog.lockstep_refl agreeing_refl p).bind_left ?_
    rintro out _ rfl
    exact ⟨_, rfl, rfl, fun _ h => nomatch h⟩
  cases task with
  | request req =>
      refine Prog.Lockstep.bind (agree_handle printer htask) ?_
      intro r r' hr
      cases r with
      | error e =>
          cases r' with
          | error e' =>
              cases hr
              exact ⟨rfl, fun _ h => nomatch h⟩
          | ok b => exact hr.elim
      | ok a =>
          cases r' with
          | error e' => exact hr.elim
          | ok b => exact hr
  | statusJob job => exact hplain _
  | cancelJob orderId => exact hplain _

end Lockstep

/-!
# Interleavings
-/

/-- The executions in which the lines that are added up are moderate. -/
def measured (ok : Env -> Prop) (tasks : List Task) :
    System service World Tx where
  next := fun s c r s' => Next ok s c r s' ∧ Measured tasks c r
  enabled := Enabled

/-- The stores are the same, the same tasks have ended, and what they answered
is the same up to the text of a total. -/
structure Counterparts (pool : Pool service World Tx (Outcome × Option Rat))
    (pool' : Tasks) : Prop where
  shared : pool'.shared = pool.shared
  heres : pool'.threads.map Thread.here = pool.threads.map Thread.here
  answered : forall {i : Nat} {here : Tx} {shown : Outcome × Option Rat},
    pool.threads[i]? = some ⟨here, .ret shown⟩ ->
      exists out, pool'.threads[i]? = some ⟨here, .ret out⟩ ∧ Shows shown out
  matched : forall {i : Nat} {here : Tx} {out : Outcome},
    pool'.threads[i]? = some ⟨here, .ret out⟩ ->
      exists shown, pool.threads[i]? = some ⟨here, .ret shown⟩ ∧
        Shows shown out

section Interleavings

variable {ok : Env -> Prop} {tasks : List Task}

theorem agreeing_next {s : World × Tx} {c c' : Cmd}
    {rel : service.Reply c -> service.Reply c' -> Prop}
    {r : service.Reply c} {s' : World × Tx} (hL : Agreeing tasks c c' rel)
    (hnext : (measured ok tasks).next s c r s') :
    exists r', (measured ok tasks).next s c' r' s' ∧ rel r r' := by
  cases hL with
  | same => exact ⟨r, hnext, rfl, hnext.right⟩

theorem agreeing_enabled {others : List Tx} {c c' : Cmd}
    {rel : service.Reply c -> service.Reply c' -> Prop}
    (hL : Agreeing tasks c c' rel)
    (henabled : (measured ok tasks).enabled others c) :
    (measured ok tasks).enabled others c' := by
  cases hL with
  | same => exact henabled

theorem agreeing_flip {c c' : Cmd}
    {rel : service.Reply c -> service.Reply c' -> Prop}
    (hL : Agreeing tasks c c' rel) :
    exists rel', Agreeing tasks c' c rel' ∧
      forall r' r, rel' r' r -> rel r r' := by
  cases hL with
  | same =>
      refine ⟨_, .same c, ?_⟩
      rintro r' _ ⟨rfl, hmeasured⟩
      exact ⟨rfl, hmeasured⟩

theorem counterparts_of_paired
    {pool : Pool service World Tx (Outcome × Option Rat)} {pool' : Tasks}
    (h : Pool.Paired (Agreeing tasks) Shows pool pool') :
    Counterparts pool pool' :=
  ⟨h.shared, h.heres, h.ended, (h.flip agreeing_flip).ended⟩

theorem paired_startPools (printer : Printer) (w : World)
    (tasks : List Task) :
    Pool.Paired (Agreeing tasks) Shows (Numbers.startPool printer w tasks)
      (startPool w tasks) :=
  Pool.paired_start (fun _ htask => agree_task printer htask)

end Interleavings

/-- Every interleaving of the handlers that compute with numbers, with any
failures, is one of the handlers that compute exactly, and conversely. -/
theorem number_interleavings_are_exact (printer : Printer) (ok : Env -> Prop)
    (tasks : List Task) (w : World) :
    (forall last,
      Pool.Reaches (measured ok tasks) (Numbers.startPool printer w tasks)
        last ->
      exists last',
        Pool.Reaches (measured ok tasks) (startPool w tasks) last' ∧
          Counterparts last last') ∧
    (forall last',
      Pool.Reaches (measured ok tasks) (startPool w tasks) last' ->
      exists last,
        Pool.Reaches (measured ok tasks) (Numbers.startPool printer w tasks)
          last ∧
          Counterparts last last') := by
  have hpaired := paired_startPools printer w tasks
  constructor
  · intro last hreach
    rcases Pool.reaches_lockstep agreeing_next agreeing_enabled hpaired hreach
      with ⟨last', hlast', hpaired'⟩
    exact ⟨last', hlast', counterparts_of_paired hpaired'⟩
  · intro last' hreach
    rcases Pool.reaches_lockstep agreeing_next agreeing_enabled
        (hpaired.flip agreeing_flip) hreach with ⟨last, hlast, hpaired'⟩
    exact ⟨last, hlast, counterparts_of_paired (hpaired'.flip agreeing_flip)⟩

/-!
A run in which the two differ: three pens at ten cents are thirty cents in the
table, and in the answer they are the number next to it.
-/

instance decidableModerate (lines : List (Int × Int)) :
    Decidable (Moderate lines) :=
  decidable_of_iff (lines.length ≤ 102400 ∧ worth lines ≤ 40000000000)
    ⟨fun h => ⟨h.left, h.right⟩, fun h => ⟨h.length, h.worth⟩⟩

/-- The test of `Measured`, for evaluation. -/
def isMeasured (tasks : List Task) : (c : Cmd) -> service.Reply c -> Bool
  | .query _ (.productsById ids), .ok rows => tasks.all (fun task =>
      match task with
      | .request (.createOrder _ items) =>
          items.map ItemRequest.productId != ids ||
            decide (Moderate (items.map (requestLine rows)))
      | _ => true)
  | .query false (.orderByPk _ _ _), .ok (some graph) =>
      decide (Moderate (graph.items.map (fun i => Numbers.itemLine i.item)))
  | _, _ => true

theorem measured_of_isMeasured {tasks : List Task} {c : Cmd}
    {r : service.Reply c} (h : isMeasured tasks c r = true) :
    Measured tasks c r := by
  unfold Measured
  split
  · intro token items htask hids
    have htest := List.all_eq_true.mp h _ htask
    simpa [hids] using htest
  · exact of_decide_eq_true h
  · trivial

theorem measured_of_fault (tasks : List Task) (c : Cmd) (s : World × Tx) :
    Measured tasks c (exec { fault := true } c s).1 := by
  cases c with
  | query inTx q => cases q <;> cases inTx <;> exact trivial
  | _ => exact trivial

/-- Queries fail instead of returning lines that are not moderate. -/
def execMeasured (tasks : List Task) (c : Cmd) (s : World × Tx) :
    service.Reply c × (World × Tx) :=
  if isMeasured tasks c (exec {} c s).1 then exec {} c s
  else exec { fault := true } c s

theorem next_execMeasured (tasks : List Task) (c : Cmd) (s : World × Tx) :
    (measured AnyEnv tasks).next s c (execMeasured tasks c s).1
      (execMeasured tasks c s).2 := by
  unfold execMeasured
  split
  · rename_i htest
    exact ⟨⟨{}, trivial, rfl⟩, measured_of_isMeasured htest⟩
  · exact ⟨⟨{ fault := true }, trivial, rfl⟩, measured_of_fault tasks c s⟩

def cheapPens : List Task :=
  [.request (.patchProduct "1" { price := some (.number 10) }),
    .request (.createOrder (.valid 1) [⟨1, 3⟩])]

def cheapPensInNumbers : Pool service World Tx (Outcome × Option Rat) :=
  (Numbers.startPool allDigits Runs.shop cheapPens).schedule
    (execMeasured cheapPens) free (List.replicate 6 0 ++ List.replicate 20 1)

theorem cheap_pens_are_charged_exactly :
    (cheapPensInNumbers.threads[1]?.bind (fun t => t.prog.result?)).bind
        Prod.snd = some (1351079888211149 / 2 ^ 52) ∧
    exists last',
      Pool.Reaches (measured AnyEnv cheapPens) (startPool Runs.shop cheapPens)
        last' ∧
      Counterparts cheapPensInNumbers last' ∧
      last'.shared.db.orders.rows.map Order.totalPrice = [30] := by
  have hreach : Pool.Reaches (measured AnyEnv cheapPens)
      (Numbers.startPool allDigits Runs.shop cheapPens) cheapPensInNumbers :=
    Pool.reaches_schedule (next_execMeasured cheapPens)
      (fun _ _ h => enabled_of_free h) _ _
  have htotal : cheapPensInNumbers.shared.db.orders.rows.map
      Order.totalPrice = [30] := by decide +kernel
  rcases (number_interleavings_are_exact allDigits AnyEnv cheapPens
    Runs.shop).left _ hreach with ⟨last', hlast', hcounterparts⟩
  refine ⟨by decide +kernel, last', hlast', hcounterparts, ?_⟩
  rw [hcounterparts.shared]
  exact htotal

end Checkout
end ExpressEcommerce
