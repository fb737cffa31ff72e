import ExpressEcommerce.Caching.Steps
import ExpressEcommerce.Foundation.History
import ExpressEcommerce.Runs.Sequential
import ExpressEcommerce.Service.Kinds

/-!
# Where answers come from

Only the two readers fill the cache, each under the key of its own route
parameter and with what it has just read.  So whatever interleaves, whatever
fails and whichever keys expire, a cached order or product, and the answer that a
reader gives, is the content that the store had at some moment of the run.
-/

namespace ExpressEcommerce
namespace Caching

open Foundation
open Store
open Service
open Foundation.Action

def Fetched.Fits (key : String) (found : Fetched) : Prop :=
  exists text, key = found.key text ∧ pgInteger? text = some found.id

/-- What a task knows of the key it may fill. -/
inductive Sight where
  | none
  | asking (key : String)
  | seen (key : String) (value : CacheValue)
  | holding (key : String) (found : Fetched)

namespace Sight

def may : Sight -> Cmd -> Prop
  | holding key found, .redisSet key' value =>
      key' = key ∧ value = found.value
  | _, .redisSet _ _ => False
  | asking key, .redisGet key' => key' = key
  | asking key, .query inTx (.orderByPk id paranoid incl) =>
      inTx = false ∧ paranoid = true ∧ incl = everything ∧
        forall graph, Fetched.Fits key (.order id graph)
  | asking key, .query inTx (.productByPk id paranoid) =>
      inTx = false ∧ paranoid = false ∧
        forall row, Fetched.Fits key (.product id row)
  | _, _ => True

def next : Sight -> (c : Cmd) -> service.Reply c -> Sight -> Prop
  | asking key, .redisGet _, .ok (some value), sight' =>
      sight' = seen key value
  | asking key, .query _ (.orderByPk id _ _), .ok (some graph), sight' =>
      sight' = holding key (.order id graph)
  | asking key, .query _ (.productByPk id _), .ok (some row), sight' =>
      sight' = holding key (.product id row)
  | sight, _, _, sight' => sight' = sight

end Sight

def sights : Protocol service Sight where
  may := Sight.may
  next := Sight.next

def sightOf : Task -> Sight
  | .request (.getOrderById _ id) => .asking ("order:" ++ id)
  | .request (.getProductById id) => .asking ("product:" ++ id)
  | _ => .none

def Sight.Shows (key : String) (value : CacheValue) (sight : Sight) : Prop :=
  sight = .seen key value ∨
    exists found, sight = .holding key found ∧ found.value = value

def Served : Task -> Outcome -> Sight -> Prop
  | .request (.getOrderById _ id), out, sight =>
      forall json, out = .response ⟨200, .order json⟩ ->
        sight.Shows ("order:" ++ id) (.order json)
  | .request (.getProductById id), out, sight =>
      forall json, out = .response ⟨200, .product json⟩ ->
        sight.Shows ("product:" ++ id) (.product json)
  | _, _, _ => True

/-!
# The tasks that do not fill the cache
-/

theorem sight_allowed {kind : Kind} (hkind : kind ≠ .caching) :
    kind.Allowed sights (fun sight => sight = .none) := by
  intro c hc
  refine keeps_command ?_ ?_
  · rintro _ rfl
    cases c with
    | redisSet key value =>
        cases kind <;> first | exact absurd rfl hkind | cases hc
    | _ => trivial
  · rintro _ r sight' rfl h
    exact h

/-!
# The readers
-/

section Readers

variable {E : String -> Sight -> Prop} {key : String}

theorem wp_look {Q : Option CacheValue -> Sight -> Prop}
    (hhit : forall value, Q (some value) (.seen key value))
    (hmiss : Q none (.asking key)) (herr : forall e, E e (.asking key)) :
    wp sights (perform (I := service) (Cmd.redisGet key)) Q E
      (.asking key) := by
  refine wp_command rfl ?_ ?_
  · rintro (_ | value) _ rfl
    · exact hmiss
    · exact hhit value
  · rintro e _ rfl
    exact herr e

theorem wp_readOrder {Q : Option OrderGraph -> Sight -> Prop} {id : Int}
    {text : String} (hkey : key = "order:" ++ text)
    (hid : pgInteger? text = some id) (hnone : Q none (.asking key))
    (hsome : forall graph, Q (some graph) (.holding key (.order id graph)))
    (herr : forall e, E e (.asking key)) :
    wp sights (query false (.orderByPk id true everything)) Q E
      (.asking key) := by
  refine wp_command ⟨rfl, rfl, rfl, fun _ => ⟨text, hkey, hid⟩⟩ ?_ ?_
  · rintro (_ | graph) _ rfl
    · exact hnone
    · exact hsome graph
  · rintro e _ rfl
    exact herr e

theorem wp_readProduct {Q : Option Product -> Sight -> Prop} {id : Int}
    {text : String} (hkey : key = "product:" ++ text)
    (hid : pgInteger? text = some id) (hnone : Q none (.asking key))
    (hsome : forall row, Q (some row) (.holding key (.product id row)))
    (herr : forall e, E e (.asking key)) :
    wp sights (query false (.productByPk id false)) Q E (.asking key) := by
  refine wp_command ⟨rfl, rfl, fun _ => ⟨text, hkey, hid⟩⟩ ?_ ?_
  · rintro (_ | row) _ rfl
    · exact hnone
    · exact hsome row
  · rintro e _ rfl
    exact herr e

theorem wp_store {Q : Unit -> Sight -> Prop} (found : Fetched)
    (hok : Q () (.holding key found)) (herr : forall e, E e (.holding key found)) :
    wp sights (perform (I := service) (Cmd.redisSet key found.value)) Q E
      (.holding key found) := by
  refine wp_command ⟨rfl, rfl⟩ ?_ ?_
  · rintro _ _ rfl
    exact hok
  · rintro e _ rfl
    exact herr e

theorem serves_order (customerId : Int) (id : String) :
    wp sights (getOrderById customerId id)
      (fun r sight => forall json, r = ⟨200, .order json⟩ ->
        sight.Shows ("order:" ++ id) (.order json))
      (fun _ _ => True) (.asking ("order:" ++ id)) := by
  have hno : forall {status : Nat} {text : String} {sight : Sight} json,
      (⟨status, .error text⟩ : Response) = ⟨200, .order json⟩ ->
        sight.Shows ("order:" ++ id) (.order json) := by
    rintro status text sight json ⟨⟩
  refine (wp_tryCatch _ _ _).mpr ((wp_bind _ _ _).mpr
    (wp_look (fun value => ?_) ?_ (fun _ => hno)))
  · cases value with
    | product value => exact hno
    | order value =>
        dsimp only
        split
        · exact hno
        · rintro json ⟨⟩
          exact Or.inl rfl
  · refine wp_integerParam (fun _ _ => hno) (fun n hid => ?_)
    refine (wp_bind _ _ _).mpr
      (wp_readOrder rfl hid hno (fun graph => ?_) (fun _ => hno))
    dsimp only
    split
    · exact hno
    · refine (wp_bind _ _ _).mpr (wp_store (.order n graph) ?_ (fun _ => hno))
      rintro json ⟨⟩
      exact Or.inr ⟨_, rfl, rfl⟩

theorem serves_product (id : String) :
    wp sights (getProductById id)
      (fun r sight => forall json, r = ⟨200, .product json⟩ ->
        sight.Shows ("product:" ++ id) (.product json))
      (fun _ _ => True) (.asking ("product:" ++ id)) := by
  have hno : forall {text : String} {sight : Sight} json,
      (⟨500, .error text⟩ : Response) = ⟨200, .product json⟩ ->
        sight.Shows ("product:" ++ id) (.product json) := by
    rintro text sight json ⟨⟩
  refine (wp_tryCatch _ _ _).mpr ((wp_bind _ _ _).mpr
    (wp_look (fun value => ?_) ?_ (fun _ => hno)))
  · cases value with
    | product value =>
        rintro json ⟨⟩
        exact Or.inl rfl
    | order value =>
        rintro json ⟨⟩
  · refine wp_integerParam (fun _ _ => hno) (fun n hid => ?_)
    refine (wp_bind _ _ _).mpr
      (wp_readProduct rfl hid ?_ (fun row => ?_) (fun _ => hno))
    · rintro json ⟨⟩
    · refine (wp_bind _ _ _).mpr (wp_store (.product n row) ?_ (fun _ => hno))
      rintro json ⟨⟩
      exact Or.inr ⟨_, rfl, rfl⟩

end Readers

theorem serves_order_route (token : Token) (id : String) :
    wp sights (handle (.getOrderById token id))
      (fun r sight => forall json, r = ⟨200, .order json⟩ ->
        sight.Shows ("order:" ++ id) (.order json))
      (fun _ _ => True) (.asking ("order:" ++ id)) := by
  have hno : forall {text : String} {sight : Sight} json,
      (⟨401, .error text⟩ : Response) = ⟨200, .order json⟩ ->
        sight.Shows ("order:" ++ id) (.order json) := by
    rintro text sight json ⟨⟩
  cases token with
  | missing => exact hno
  | invalid => exact hno
  | valid customerId =>
      refine (wp_bind _ _ _).mpr ((wp_tryCatch _ _ _).mpr
        ((wp_bind _ _ _).mpr (wp_command trivial ?_ ?_)))
      · rintro found _ rfl
        cases found with
        | none => exact hno
        | some customer => exact serves_order customer.id id
      · rintro e _ rfl
        exact hno

theorem wp_none {task : Task} (hkind : kindOf task ≠ .caching)
    (hserved : forall out sight, Served task out sight) :
    task.code.wp sights (Served task) .none :=
  Prog.wp_mono (fun out sight _ => hserved out sight) _
    (wp_task (sight_allowed hkind) rfl)

/-- Every task fills the cache only with what it has read. -/
theorem wp_sights (task : Task) :
    task.code.wp sights (Served task) (sightOf task) := by
  cases task with
  | statusJob | cancelJob => exact wp_none (by rintro ⟨⟩) (fun _ _ => trivial)
  | request req =>
      cases req with
      | getOrderById token id =>
          refine wp_settle.mpr (wp_mono ?_ ?_ (serves_order_route token id))
          · rintro r sight h json ⟨⟩
            exact h json rfl
          · rintro e sight - json ⟨⟩
      | getProductById id =>
          refine wp_settle.mpr ?_
          show wp sights (validateRequest _ _) _ _ _
          unfold validateRequest
          split
          · refine wp_mono ?_ ?_ (serves_product id)
            · rintro r sight h json ⟨⟩
              exact h json rfl
            · rintro e sight - json ⟨⟩
          · rintro json ⟨⟩
      | _ => exact wp_none (by rintro ⟨⟩) (fun _ _ => trivial)

def Activity.sight : Activity -> Sight
  | task t => sightOf t
  | expiry _ => .none

def Activity.Serves : Activity -> Outcome -> Sight -> Prop
  | task t => Served t
  | expiry _ => fun _ _ => True

theorem wp_activity (a : Activity) : a.code.wp sights a.Serves a.sight := by
  cases a with
  | task t => exact wp_sights t
  | expiry key =>
      refine wp_settle.mpr (wp_command trivial ?_ ?_)
      · exact fun _ _ _ => trivial
      · exact fun _ _ _ => trivial

/-!
# One command
-/

inductive Sighted (w : World) : Sight -> World -> Sight -> Prop where
  | same {sight : Sight} {w' : World} (hcache : forall key value,
      w'.cache.get key = some value -> w.cache.get key = some value) :
      Sighted w sight w' sight
  | hit {key : String} {value : CacheValue}
      (hget : w.cache.get key = some value) :
      Sighted w (.asking key) w (.seen key value)
  | fetched {key : String} {found : Fetched} (hfits : found.Fits key)
      (hfrom : found.From w.db) : Sighted w (.asking key) w (.holding key found)
  | stored {key : String} {found : Fetched} :
      Sighted w (.holding key found)
        { w with cache := w.cache.set key found.value } (.holding key found)

section Step

variable {ok : Env -> Prop} {w w' : World} {tx tx' : Tx}

theorem cache_shrinks {c : Cmd} {r : service.Reply c}
    (hc : forall key value, c ≠ .redisSet key value)
    (h : Next ok (w, tx) c r (w', tx')) (key : String) (value : CacheValue)
    (hget : w'.cache.get key = some value) : w.cache.get key = some value := by
  cases c with
  | redisSet key' value' => exact absurd rfl (hc key' value')
  | redisDel key' =>
      rcases next_redisDel h with ⟨_, heq⟩ | ⟨_, heq, _⟩ <;> cases heq
      · rw [show ({ w with cache := w.cache.del key' } : World).cache =
          w.cache.del key' from rfl, Cache.get_del] at hget
        split at hget
        · cases hget
        · exact hget
      · exact hget
  | _ =>
      rw [← next_cache rfl h]
      exact hget

theorem sighted_query {key : String} {inTx : Bool} {q : Query}
    {r : service.Reply (.query inTx q)}
    (hmay : (Sight.asking key).may (.query inTx q))
    (h : Next ok (w, tx) (.query inTx q) r (w', tx')) :
    exists sight', (Sight.asking key).next _ r sight' ∧
      Sighted w (.asking key) w' sight' := by
  rcases next_query h with ⟨hs, hr⟩
  cases hs
  have hstay : Sighted w (.asking key) w (.asking key) :=
    .same (fun _ _ hget => hget)
  rcases hr with rfl | ⟨⟨e, rfl⟩, _⟩
  · cases q with
    | orderByPk id paranoid incl =>
        rcases hmay with ⟨rfl, rfl, rfl, hfits⟩
        show exists sight', (Sight.asking key).next
          (.query false (.orderByPk id true everything))
          (.ok (orderGraph? w.db id)) sight' ∧ _
        cases hfound : orderGraph? w.db id with
        | none => exact ⟨_, rfl, hstay⟩
        | some graph => exact ⟨_, rfl, .fetched (hfits graph) hfound⟩
    | productByPk id paranoid =>
        rcases hmay with ⟨rfl, rfl, hfits⟩
        show exists sight', (Sight.asking key).next
          (.query false (.productByPk id false))
          (.ok (w.db.product? id false)) sight' ∧ _
        cases hfound : w.db.product? id false with
        | none => exact ⟨_, rfl, hstay⟩
        | some row =>
            exact ⟨_, rfl, .fetched (hfits row)
              (Option.filter_eq_some_iff.mp hfound).left⟩
    | _ => exact ⟨_, rfl, hstay⟩
  · refine ⟨_, ?_, hstay⟩
    cases q <;> rfl

theorem sighted_step {sight : Sight} {c : Cmd} {r : service.Reply c}
    (hmay : sight.may c) (h : Next ok (w, tx) c r (w', tx')) :
    exists sight', sight.next c r sight' ∧ Sighted w sight w' sight' := by
  have hsame : (forall key value, c ≠ .redisSet key value) ->
      sight.next c r sight -> exists sight', sight.next c r sight' ∧
        Sighted w sight w' sight' :=
    fun hc hnext => ⟨sight, hnext, .same (cache_shrinks hc h)⟩
  cases sight with
  | none =>
      cases c with
      | redisSet key value => exact hmay.elim
      | _ => exact hsame (by rintro _ _ ⟨⟩) rfl
  | seen key value =>
      cases c with
      | redisSet key value => exact hmay.elim
      | _ => exact hsame (by rintro _ _ ⟨⟩) rfl
  | asking key =>
      cases c with
      | redisSet key value => exact hmay.elim
      | query inTx q => exact sighted_query hmay h
      | redisGet key' =>
          cases hmay
          rcases next_redisGet h with ⟨hs, rfl | ⟨⟨e, rfl⟩, _⟩⟩
          · cases hs
            cases hget : w.cache.get key with
            | none => exact ⟨_, rfl, .same (fun _ _ hget => hget)⟩
            | some value => exact ⟨_, rfl, .hit hget⟩
          · exact hsame (by rintro _ _ ⟨⟩) rfl
      | _ => exact hsame (by rintro _ _ ⟨⟩) rfl
  | holding key found =>
      cases c with
      | redisSet key' value =>
          rcases hmay with ⟨rfl, rfl⟩
          rcases next_redisSet h with ⟨rfl, hs⟩ | ⟨⟨e, rfl⟩, hs, _⟩ <;> cases hs
          · exact ⟨_, rfl, .stored⟩
          · exact ⟨_, rfl, .same (fun _ _ hget => hget)⟩
      | _ => exact hsame (by rintro _ _ ⟨⟩) rfl

end Step

/-!
# Whole runs
-/

section Run

variable (start : World)

/-- The value was under the key at the start, or the store had it at some moment
of the run. -/
def Sourced (s : World × List World) (key : String) (value : CacheValue) :
    Prop :=
  start.cache.get key = some value ∨
    exists found, Fetched.Fits key found ∧ found.value = value ∧
      Once (fun w => found.From w.db) s

def CacheSourced (s : World × List World) : Prop :=
  forall key value, s.1.cache.get key = some value -> Sourced start s key value

def SightSourced (s : World × List World) : Sight -> Prop
  | .seen key value => Sourced start s key value
  | .holding key found =>
      found.Fits key ∧ Once (fun w => found.From w.db) s
  | _ => True

variable {start} {s s' : World × List World} {sight sight' : Sight}

theorem Sourced.later {key : String} {value : CacheValue}
    (h : Sourced start s key value) (hpast : s'.2 = s.1 :: s.2) :
    Sourced start s' key value := by
  rcases h with hstart | ⟨found, hfits, hvalue, honce⟩
  · exact Or.inl hstart
  · exact Or.inr ⟨found, hfits, hvalue, honce.later hpast⟩

theorem SightSourced.later (h : SightSourced start s sight)
    (hpast : s'.2 = s.1 :: s.2) : SightSourced start s' sight := by
  cases sight with
  | none => trivial
  | asking key => trivial
  | seen key value => exact Sourced.later h hpast
  | holding key found => exact ⟨h.left, h.right.later hpast⟩

theorem cacheSourced_step (h : CacheSourced start s)
    (hsight : SightSourced start s sight) (hpast : s'.2 = s.1 :: s.2)
    (hstep : Sighted s.1 sight s'.1 sight') : CacheSourced start s' := by
  intro key value hget
  refine Sourced.later (s := s) ?_ hpast
  generalize s'.1 = w' at hstep hget
  cases hstep with
  | same hcache => exact h key value (hcache key value hget)
  | hit | fetched => exact h key value hget
  | @stored key' found =>
      rw [show ({ s.1 with cache := s.1.cache.set key' found.value } :
        World).cache = s.1.cache.set key' found.value from rfl,
        Cache.get_set] at hget
      split at hget
      · rename_i hkey
        cases hget
        rw [hkey]
        exact Or.inr ⟨found, hsight.left, rfl, hsight.right⟩
      · exact h key value hget

theorem sightSourced_step (h : CacheSourced start s)
    (hsight : SightSourced start s sight) (hpast : s'.2 = s.1 :: s.2)
    (hstep : Sighted s.1 sight s'.1 sight') : SightSourced start s' sight' := by
  refine SightSourced.later (s := s) ?_ hpast
  generalize s'.1 = w' at hstep
  cases hstep with
  | same hcache => exact hsight
  | hit hget => exact h _ _ hget
  | fetched hfits hfrom => exact ⟨hfits, once_now hfrom⟩
  | stored => exact hsight

theorem preserves_sourced (ok : Env -> Prop) (start : World) :
    Pool.Preserves (system ok).recorded sights
      (Pool.Jointly (fun s _ => CacheSourced start s)
        (fun s sight _ => SightSourced start s sight) (fun _ _ => True)) := by
  refine Pool.preserves_jointly (fun _ => trivial) ?_
  rintro s s' ghosts i sight here here' c r others hcache _ hsight hmay _
    ⟨hnext, hpast⟩
  rcases sighted_step hmay hnext with ⟨sight', hsight', hstep⟩
  refine ⟨sight', hsight', cacheSourced_step hcache hsight hpast hstep,
    sightSourced_step hcache hsight hpast hstep, fun other there _ hother _ => ?_⟩
  exact ⟨hother.later hpast, trivial⟩

theorem sightSourced_start (s : World × List World) (a : Activity) :
    SightSourced start s a.sight := by
  cases a with
  | expiry key => trivial
  | task t =>
      show SightSourced start s (sightOf t)
      unfold sightOf
      split <;> trivial

theorem reaches_sourced {ok : Env -> Prop} {activities : List Activity}
    {pool : Tasks} {past : List World}
    (hreach : Pool.Reaches (system ok).recorded
      ((busyPool start activities).recorded []) (pool.recorded past)) :
    exists ghosts : List (Sight × Tx),
      Pool.Jointly (fun s _ => CacheSourced start s)
        (fun s sight _ => SightSourced start s sight) (fun _ _ => True)
        (pool.shared, past) ghosts ∧
      Pool.Covered sights
        (fun i out sight => exists a, activities[i]? = some a ∧
          a.Serves out sight) (pool.recorded past) ghosts :=
  Pool.reaches_jointly (preserves_sourced ok start) wp_activity
    (fun _ _ hget => Or.inl hget) (fun a _ => sightSourced_start _ a)
    (fun _ _ => trivial) hreach

theorem Sight.Shows.sourced {key : String} {value : CacheValue}
    (h : sight.Shows key value) (hsight : SightSourced start s sight) :
    Sourced start s key value := by
  rcases h with rfl | ⟨found, rfl, hvalue⟩
  · exact hsight
  · exact Or.inr ⟨found, hsight.left, hvalue, hsight.right⟩

theorem Sourced.order {text : String} {value : CacheValue}
    (h : Sourced start s ("order:" ++ text) value) :
    start.cache.get ("order:" ++ text) = some value ∨
      exists old id graph, old ∈ s.1 :: s.2 ∧ pgInteger? text = some id ∧
        orderGraph? old.db id = some graph ∧ value = .order (fullOrder graph) := by
  rcases h with hstart | ⟨found, ⟨other, hkey, hid⟩, hvalue, old, hold, hfrom⟩
  · exact Or.inl hstart
  · cases found with
    | product id row => exact absurd hkey (order_ne_product _ _)
    | order id graph =>
        have htext : text = other := (String.append_right_inj _).mp hkey
        rw [← htext] at hid
        exact Or.inr ⟨old, id, graph, hold, hid, hfrom, hvalue.symm⟩

theorem Sourced.product {text : String} {value : CacheValue}
    (h : Sourced start s ("product:" ++ text) value) :
    start.cache.get ("product:" ++ text) = some value ∨
      exists old id row, old ∈ s.1 :: s.2 ∧ pgInteger? text = some id ∧
        old.db.products.find? id = some row ∧ value = .product row.toJSON := by
  rcases h with hstart | ⟨found, ⟨other, hkey, hid⟩, hvalue, old, hold, hfrom⟩
  · exact Or.inl hstart
  · cases found with
    | order id graph => exact absurd hkey.symm (order_ne_product _ _)
    | product id row =>
        have htext : text = other := (String.append_right_inj _).mp hkey
        rw [← htext] at hid
        exact Or.inr ⟨old, id, row, hold, hid, hfrom, hvalue.symm⟩

end Run

section Results

variable {ok : Env -> Prop} {start : World} {activities : List Activity}
variable {pool : Tasks} {past : List World}

/-- However requests, jobs and expiring keys interleave and whatever fails: what
`getOrderById` and `getProductById` answer was cached under the same text at the
start, or it is what the store had under that id at some moment of the run. -/
theorem answers_were_stored
    (hreach : Pool.Reaches (system ok).recorded
      ((busyPool start activities).recorded []) (pool.recorded past)) :
    (forall (i : Nat) (tx : Tx) (token : Token) (id : String) (json : OrderJson),
      activities[i]? = some (.task (.request (.getOrderById token id))) ->
      pool.threads[i]? = some ⟨tx, .ret (.response ⟨200, .order json⟩)⟩ ->
        start.cache.get ("order:" ++ id) = some (.order json) ∨
          exists old n graph, old ∈ pool.shared :: past ∧
            pgInteger? id = some n ∧ orderGraph? old.db n = some graph ∧
            json = fullOrder graph) ∧
    (forall (i : Nat) (tx : Tx) (id : String) (json : ProductJson),
      activities[i]? = some (.task (.request (.getProductById id))) ->
      pool.threads[i]? = some ⟨tx, .ret (.response ⟨200, .product json⟩)⟩ ->
        start.cache.get ("product:" ++ id) = some (.product json) ∨
          exists old n row, old ∈ pool.shared :: past ∧
            pgInteger? id = some n ∧ old.db.products.find? n = some row ∧
            json = row.toJSON) := by
  rcases reaches_sourced hreach with ⟨ghosts, hjoint, hcovered⟩
  constructor
  · intro i tx token id json hreader hanswer
    rcases hcovered.follows hanswer with ⟨sight, hi, a, ha, hserves⟩
    rw [hreader] at ha
    cases ha
    have hshows := hserves json rfl
    rcases (hshows.sourced (hjoint.each hi)).order with
      hstart | ⟨old, n, graph, hold, hn, hgraph, hvalue⟩
    · exact Or.inl hstart
    · cases hvalue
      exact Or.inr ⟨old, n, graph, hold, hn, hgraph, rfl⟩
  · intro i tx id json hreader hanswer
    rcases hcovered.follows hanswer with ⟨sight, hi, a, ha, hserves⟩
    rw [hreader] at ha
    cases ha
    have hshows := hserves json rfl
    rcases (hshows.sourced (hjoint.each hi)).product with
      hstart | ⟨old, n, row, hold, hn, hrow, hvalue⟩
    · exact Or.inl hstart
    · cases hvalue
      exact Or.inr ⟨old, n, row, hold, hn, hrow, rfl⟩

def penReaders : List Activity :=
  [.task (.request (.getProductById "1")), .expiry "product:1",
    .task (.request (.getProductById "1"))]

/-- The second client has found what the first one had cached. -/
def penAnswered : Tasks :=
  (busyPool Runs.shop penReaders).schedule (exec {}) free [0, 0, 0, 2, 1]

theorem pen_was_in_the_store :
    exists past json, penAnswered.threads[2]? =
        some ⟨none, .ret (.response ⟨200, .product json⟩)⟩ ∧
      exists old n row, old ∈ penAnswered.shared :: past ∧
        pgInteger? "1" = some n ∧ old.db.products.find? n = some row ∧
        json = row.toJSON := by
  have hreach : Pool.Reaches (system AnyEnv)
      (busyPool Runs.shop penReaders) penAnswered :=
    Pool.reaches_schedule (S := system AnyEnv)
      (fun c s => ⟨{}, trivial, rfl⟩) (fun _ _ h => enabled_of_free h) _ _
  rcases Pool.reaches_recorded hreach with ⟨past, hpast⟩
  refine ⟨past, _, rfl, ?_⟩
  rcases (answers_were_stored hpast).right 2 none "1" _ rfl rfl with
    hstart | hstored
  · cases hstart
  · exact hstored

end Results

end Caching
end ExpressEcommerce
