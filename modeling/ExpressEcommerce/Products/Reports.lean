import ExpressEcommerce.Products.Edits
import ExpressEcommerce.Runs.Sequential
import ExpressEcommerce.Service.Symbolic

/-!
# Errors and rows

The hooks of a product run after its row has been written, outside of any
transaction.  The cache and the removal of documents swallow their errors, but
the helper that sends a document does not: when it fails, the client is told
that nothing was saved.
-/

namespace ExpressEcommerce
namespace Products

open Foundation
open Store
open Service
open Runs
open Foundation.Action

/-- The calls of the product hooks that may fail, each time or not. -/
structure Outage where
  cache : String -> Prop
  index : Int -> ProductDoc -> Prop
  removal : Int -> Prop

def Outage.fails (o : Outage) : Cmd -> Prop
  | .redisDel key => o.cache key
  | .indexDoc id doc => o.index id doc
  | .deleteDoc id => o.removal id
  | _ => False

/-- An error is only answered when the products are as before. -/
def Reports (w : World) (r : Response) (w' : World) : Prop :=
  400 <= r.status -> w'.db.products.rows = w.db.products.rows

/-!
# The documents that are sent
-/

def createdDoc (db : Database) (body : ProductBody) :
    Option (Int × ProductDoc) :=
  match body.name, body.price.bind Scalar.decimal?,
      body.stock.bind Scalar.integer? with
  | some (.text name), some price, some stock =>
      let product : Product := ⟨db.products.seq, name, body.described,
        roundHundredths price, stock, 0, 0, none⟩
      if db.accepts (.insertProduct product) then some (product.id, product.doc)
      else none
  | _, _, _ => none

/-- The document of a product with the submitted fields, when there is something
to save and the store takes it. -/
def savedDoc (db : Database) (idParam : String) (body : ProductBody) :
    Option (Int × ProductDoc) := do
  let id ← pgInteger? idParam
  let product ← db.product? id true
  let patch ← Product.changed product body
  if patch.stock.any (fun n => decide (n < 0)) then none
  else if patch = {} then none
  else if db.acceptsChange (.productFields product.id patch) then
    some (product.id, { (product.patch patch).doc with
      price := Product.submittedPrice product body })
  else none

/-- The document that a request sends after it has written a row. -/
def ProductTask.sends (db : Database) :
    ProductTask -> Option (Int × ProductDoc)
  | create body =>
      if createProductRules body = [] then createdDoc db body else none
  | update id body =>
      if idRule id "Invalid product ID" ++ updateProductRules body = [] then
        savedDoc db id body
      else none
  | patch id body =>
      if idRule id "Invalid product ID" ++ partialUpdateProductRules body = []
      then savedDoc db id body
      else none
  | softDelete _ => none
  | restore _ => none

/-- The ways in which a request ends that has this document to send. -/
inductive Ended (ok : Cmd -> Env -> Prop) (w : World)
    (sends : Option (Int × ProductDoc)) (r : Response) (w' : World) :
    Prop where
  | kept (hnone : sends = none)
      (hrows : w'.db.products.rows = w.db.products.rows)
  | reported (hstatus : r.status < 400)
      (hsent : forall id doc, sends = some (id, doc) ->
        Works (ok (.indexDoc id doc)))
  | unsent (id : Int) (doc : ProductDoc) (c : Cmd) (env : Env)
      (hsends : sends = some (id, doc))
      (hfailed : MayFail (ok (.indexDoc id doc))) (hstatus : r.status = 500)
      (henv : ok c env)
      (hrow : (w'.db.products.find? id).map Product.updatedAt = some env.now)

section Walk

variable {ok : Cmd -> Env -> Prop} {w : World} {tx : Tx}
  {E : String -> World × Tx -> Prop}

theorem direct_aside {c : Cmd} {Q : c.Answer -> World × Tx -> Prop}
    (hc : Cmd.aside c = true)
    (hok : forall a w', w'.db = w.db -> Q a (w', tx))
    (herr : forall e w', w'.db = w.db -> E e (w', tx)) :
    Action.wp (direct ok) (perform (I := service) c) Q E (w, tx) := by
  refine wp_command trivial ?_ ?_
  · rintro a ⟨w', tx'⟩ hnext
    rcases next_aside hc hnext with ⟨hdb, _, htx⟩
    have htx : tx' = tx := htx
    rw [htx]
    exact hok a w' hdb
  · rintro e ⟨w', tx'⟩ hnext
    rcases next_aside hc hnext with ⟨hdb, _, htx⟩
    have htx : tx' = tx := htx
    rw [htx]
    exact herr e w' hdb

theorem walk_invalidate {Q : Unit -> World × Tx -> Prop} {id : Int}
    (hok : forall w', w'.db = w.db -> Q () (w', tx)) :
    Action.wp (direct ok) (invalidateProductCache id) Q E (w, tx) := by
  refine (wp_tryCatch _ _ _).mpr ?_
  exact direct_aside rfl (fun _ => hok) (fun _ => hok)

theorem walk_remove {Q : Unit -> World × Tx -> Prop} {id : Int}
    (hok : forall w', w'.db = w.db -> Q () (w', tx)) :
    Action.wp (direct ok) (removeFromElasticsearch id) Q E (w, tx) := by
  refine (wp_tryCatch _ _ _).mpr ?_
  exact direct_aside rfl (fun _ => hok) (fun _ => hok)

theorem walk_synced {alpha : Type} {Q : alpha -> World × Tx -> Prop}
    {product : ProductInstance} {result : alpha}
    (hok : forall w', w'.db = w.db ->
      Works (ok (.indexDoc product.row.id product.doc)) -> Q result (w', tx))
    (hfail : forall e w', w'.db = w.db ->
      MayFail (ok (.indexDoc product.row.id product.doc)) -> E e (w', tx)) :
    Action.wp (direct ok)
      (do
        invalidateProductCache product.row.id
        syncToElasticsearch product
        pure result) Q E (w, tx) := by
  refine (wp_bind _ _ _).mpr (walk_invalidate ?_)
  intro w' hdb
  refine (wp_bind _ _ _).mpr (direct_indexDoc ?_ ?_)
  · intro hworks
    exact (wp_pure _ _).mpr (hok _ hdb hworks)
  · intro hmay e
    exact hfail e w' hdb hmay

theorem walk_removed {Q : Product -> World × Tx -> Prop} {product : Product}
    (hok : forall w', w'.db = w.db -> Q product (w', tx)) :
    Action.wp (direct ok)
      (do
        invalidateProductCache product.id
        removeFromElasticsearch product.id
        pure product) Q E (w, tx) := by
  refine (wp_bind _ _ _).mpr (walk_invalidate ?_)
  intro w1 hdb1
  refine (wp_bind _ _ _).mpr (walk_remove ?_)
  intro w2 hdb2
  exact (wp_pure _ _).mpr (hok w2 (hdb2.trans hdb1))

theorem walk_refused {sends : Option (Int × ProductDoc)} {w' : World}
    (status : Nat) (body : Body) (hnone : sends = none)
    (hrows : w'.db.products.rows = w.db.products.rows) :
    Action.wp (direct ok) (respond status body)
      (fun r s => Ended ok w sends r s.1) E (w', tx) :=
  (wp_pure _ _).mpr (.kept hnone hrows)

theorem walk_written {alpha : Type} {sends : Option (Int × ProductDoc)}
    {w' : World} (product : ProductInstance) {result : alpha} {c : Cmd}
    {env : Env} {answer : alpha -> Response} {failure : Body}
    (hsends : sends = some (product.row.id, product.doc)) (henv : ok c env)
    (hrow : (w'.db.products.find? product.row.id).map Product.updatedAt =
      some env.now) (hanswer : (answer result).status < 400) :
    Action.wp (direct ok)
      (do
        invalidateProductCache product.row.id
        syncToElasticsearch product
        pure result)
      (fun p s => Ended ok w sends (answer p) s.1)
      (fun _ s => Ended ok w sends ⟨500, failure⟩ s.1) (w', tx) := by
  refine walk_synced ?_ ?_
  · intro w'' _ hworks
    refine .reported hanswer ?_
    intro id doc hsent
    rw [hsends] at hsent
    cases hsent
    exact hworks
  · intro e w'' hdb hfailed
    refine .unsent _ _ c env hsends hfailed rfl henv ?_
    rw [hdb]
    exact hrow

end Walk

/-!
# The handlers
-/

section Handlers

variable {ok : Cmd -> Env -> Prop} {w : World}
  {E : String -> World × Tx -> Prop}

theorem walk_createProduct {body : ProductBody}
    (hcalm : forall c, Cmd.aside c = false -> ¬ MayFail (ok c)) :
    Action.wp (direct ok) (createProduct body)
      (fun r s => Ended ok w (createdDoc w.db body) r s.1) E (w, none) := by
  unfold createProduct
  refine (wp_tryCatch _ _ _).mpr ?_
  split
  · rename_i name price stock hname hprice hstock
    have hdoc : createdDoc w.db body =
        if w.db.accepts (.insertProduct ⟨w.db.products.seq, name,
          body.described, roundHundredths price, stock, 0, 0, none⟩) then
          some (w.db.products.seq,
            ⟨name, body.described, roundHundredths price, stock⟩)
        else none := by
      unfold createdDoc
      rw [hname, hprice, hstock]
      rfl
    refine (wp_bind _ _ _).mpr ?_
    unfold Product.create
    refine (wp_bind _ _ _).mpr (direct_insert_at ?_ ?_ ?_)
    · intro env henv _ haccepts
      have hsends := hdoc.trans (if_pos haccepts)
      let product : Product := ⟨w.db.products.seq, name, body.described,
        roundHundredths price, stock, env.now, env.now, none⟩
      refine walk_written (.ofRow product) hsends henv ?_
        (show 201 < 400 by decide)
      have hfind := find?_insertProduct w.db product rfl w.db.products.seq
      rw [if_pos rfl] at hfind
      exact congrArg (Option.map Product.updatedAt) hfind
    · intro now hrefused e
      have hnone := hdoc.trans (if_neg (Bool.eq_false_iff.mp hrefused))
      exact walk_refused _ _ hnone rfl
    · intro hmay
      exact absurd hmay (hcalm _ rfl)
  · rename_i hshape
    refine walk_refused (E := E) _ _ ?_ rfl
    unfold createdDoc
    split
    · rename_i hname hprice hstock
      exact absurd hstock (hshape _ _ _ hname hprice)
    · rfl

theorem savedDoc_of_changed {db : Database} {idParam : String}
    {body : ProductBody} {product : Product}
    (hid : pgInteger? idParam = some product.id)
    (hfound : db.product? product.id true = some product) :
    savedDoc db idParam body =
      (Product.changed product body).bind (fun patch =>
        if patch.stock.any (fun n => decide (n < 0)) then none
        else if patch = {} then none
        else if db.acceptsChange (.productFields product.id patch) then
          some (product.id, { (product.patch patch).doc with
            price := Product.submittedPrice product body })
        else none) := by
  unfold savedDoc
  rw [hid]
  show (db.product? product.id true).bind _ = _
  rw [hfound]
  rfl

theorem walk_update {idParam : String} {body : ProductBody}
    {product : Product} {answer : ProductInstance -> Response}
    {failure : Body}
    (hcalm : forall c, Cmd.aside c = false -> ¬ MayFail (ok c))
    (hid : pgInteger? idParam = some product.id)
    (hfound : w.db.product? product.id true = some product)
    (hanswer : forall p, (answer p).status < 400) :
    Action.wp (direct ok) (Product.update product body)
      (fun p s => Ended ok w (savedDoc w.db idParam body) (answer p) s.1)
      (fun _ s => Ended ok w (savedDoc w.db idParam body) ⟨500, failure⟩ s.1)
      (w, none) := by
  rw [savedDoc_of_changed hid hfound]
  unfold Product.update
  cases Product.changed product body with
  | none => exact .kept rfl rfl
  | some patch =>
      rw [Option.bind_some]
      dsimp only
      split
      · exact .kept rfl rfl
      · split
        · refine .reported (hanswer (.ofRow product)) ?_
          intro id doc hno
          cases hno
        · refine (wp_bind _ _ _).mpr (direct_update_at ?_ ?_ ?_)
          · intro env henv _ haccepts
            have haccepts : w.db.acceptsChange
                (.productFields product.id patch) = true := haccepts
            rw [if_pos haccepts]
            refine walk_written ⟨{ product.patch patch with
              updatedAt := env.now }, Product.submittedPrice product body⟩ rfl
              henv ?_ (hanswer _)
            have hrow : w.db.products.find? product.id = some product :=
              (Option.filter_eq_some_iff.mp hfound).left
            have hfind := Database.find?_update_productFields w.db product.id
              patch env.now product.id
            rw [if_pos rfl, hrow] at hfind
            exact congrArg (Option.map Product.updatedAt) hfind
          · intro hrefused e
            have hrefused : w.db.acceptsChange
                (.productFields product.id patch) = false := hrefused
            rw [if_neg (Bool.eq_false_iff.mp hrefused)]
            exact .kept rfl rfl
          · intro hmay
            exact absurd hmay (hcalm _ rfl)

theorem walk_saveProduct {message idParam : String} {body : ProductBody}
    (hcalm : forall c, Cmd.aside c = false -> ¬ MayFail (ok c)) :
    Action.wp (direct ok) (saveProduct message idParam body)
      (fun r s => Ended ok w (savedDoc w.db idParam body) r s.1) E
      (w, none) := by
  unfold saveProduct
  refine (wp_tryCatch _ _ _).mpr (wp_integerParam ?_ (fun id hid => ?_))
  · intro hid e
    refine walk_refused (E := E) _ _ ?_ rfl
    unfold savedDoc
    rw [hid]
    rfl
  · refine (wp_bind _ _ _).mpr (direct_query rfl ?_ ?_)
    · intro _
      have hview : Query.eval (w.view none false) (.productByPk id true) =
          w.db.product? id true := rfl
      rw [hview]
      cases hfound : w.db.product? id true with
      | none =>
          refine walk_refused _ _ ?_ rfl
          unfold savedDoc
          rw [hid]
          show (w.db.product? id true).bind _ = _
          rw [hfound]
          rfl
      | some product =>
          have hkey : product.id = id := Database.product?_key hfound
          subst hkey
          refine (wp_bind _ _ _).mpr (walk_update hcalm hid hfound ?_)
          intro p
          exact show 200 < 400 by decide
    · intro hmay
      exact absurd hmay (hcalm _ rfl)

theorem walk_dated {product : Product} {changes : Bool} {u : Change}
    {stamped : Nat -> Product} :
    Action.wp (direct ok)
      (do
        let product ←
          if changes then do
            let now ← Service.update false u
            pure (stamped now)
          else pure product
        invalidateProductCache product.id
        removeFromElasticsearch product.id
        pure product) (fun _ _ => True) (fun _ s => s.1 = w) (w, none) := by
  dsimp only
  split
  · refine (wp_bind _ _ _).mpr (direct_update ?_ ?_ ?_)
    · intro now _ _
      refine (wp_bind _ _ _).mpr ((wp_pure _ _).mpr ?_)
      exact walk_removed (fun _ _ => trivial)
    · intro _ e
      rfl
    · intro _ e
      rfl
  · refine (wp_bind _ _ _).mpr ((wp_pure _ _).mpr ?_)
    exact walk_removed (fun _ _ => trivial)

theorem walk_marked {idParam : String} {paranoid : Bool}
    {mark : Product -> Act Product} {answer : Product -> Response}
    {missing failure : Body}
    (hmark : forall product, Action.wp (direct ok) (mark product)
      (fun _ _ => True) (fun _ s => s.1 = w) (w, none))
    (hanswer : forall product, (answer product).status < 400) :
    Action.wp (direct ok)
      (tryCatch
        (do
          let id ← integerParam idParam
          let found : Option Product ← query false (.productByPk id paranoid)
          match found with
          | none => respond 404 missing
          | some product => do
              let product ← mark product
              pure (answer product))
        (fun _ => respond 500 failure))
      (fun r s => Ended ok w none r s.1) E (w, none) := by
  refine (wp_tryCatch _ _ _).mpr (wp_integerParam ?_ (fun id _ => ?_))
  · intro _ e
    exact walk_refused (E := E) _ _ rfl rfl
  · refine (wp_bind _ _ _).mpr (direct_query rfl ?_ ?_)
    · intro _
      split
      · exact walk_refused _ _ rfl rfl
      · rename_i product _
        refine (wp_bind _ _ _).mpr (wp_mono ?_ ?_ (hmark product))
        · intro p s _
          refine (wp_pure _ _).mpr (.reported (hanswer p) ?_)
          intro id doc hno
          cases hno
        · intro e s hsame
          refine walk_refused _ _ rfl ?_
          rw [hsame]
    · intro _ e
      exact walk_refused _ _ rfl rfl

theorem walk_softDelete {idParam : String} :
    Action.wp (direct ok) (softDeleteProduct idParam)
      (fun r s => Ended ok w none r s.1) E (w, none) :=
  walk_marked (fun _ => walk_dated) (fun _ => show 200 < 400 by decide)

theorem walk_restore {idParam : String} :
    Action.wp (direct ok) (restoreProduct idParam)
      (fun r s => Ended ok w none r s.1) E (w, none) :=
  walk_marked (fun _ => walk_dated) (fun _ => show 200 < 400 by decide)

theorem walk_validateRequest {errors : List (String × String)}
    {next : Act Response} {sends passed : Option (Int × ProductDoc)}
    (hsends : sends = if errors = [] then passed else none)
    (hnext : Action.wp (direct ok) next
      (fun r s => Ended ok w passed r s.1) E (w, none)) :
    Action.wp (direct ok) (validateRequest errors next)
      (fun r s => Ended ok w sends r s.1) E (w, none) := by
  rw [hsends]
  unfold validateRequest
  split
  · exact hnext
  · exact walk_refused _ _ rfl rfl

theorem ended_of_executes {t : ProductTask} {r : Response} {w' : World}
    (hcalm : forall c, Cmd.aside c = false -> ¬ MayFail (ok c))
    (h : ExecutesIn ok w t.task (.response r) w') :
    Ended ok w (t.sends w.db) r w' := by
  have hwp : t.task.code.wp (direct ok) (fun out s =>
      forall r, out = .response r -> Ended ok w (t.sends w.db) r s.1)
      (w, none) := by
    have hrun : forall {req : Request}, Action.wp (direct ok) (handle req)
        (fun r s => Ended ok w (t.sends w.db) r s.1) (fun _ _ => False)
        (w, none) -> (Task.request req).code.wp (direct ok) (fun out s =>
          forall r, out = .response r -> Ended ok w (t.sends w.db) r s.1)
          (w, none) := by
      intro req hhandle
      refine wp_settle.mpr (wp_mono ?_ ?_ hhandle)
      · intro r s hr r' hr'
        cases hr'
        exact hr
      · intro e s hno
        exact False.elim hno
    cases t with
    | create body =>
        exact hrun (walk_validateRequest rfl (walk_createProduct hcalm))
    | update id body =>
        exact hrun (walk_validateRequest rfl (walk_saveProduct hcalm))
    | patch id body =>
        exact hrun (walk_validateRequest rfl (walk_saveProduct hcalm))
    | softDelete id =>
        exact hrun (walk_validateRequest (ite_self none).symm walk_softDelete)
    | restore id =>
        exact hrun (walk_validateRequest (ite_self none).symm walk_restore)
  rcases executes_of_wp hwp h with ⟨_, hend⟩
  exact hend r rfl

end Handlers

/-!
# The reports
-/

theorem Outage.calm (o : Outage) {c : Cmd} (hc : Cmd.aside c = false) :
    ¬ MayFail (failsOnly o.fails c) := by
  intro hmay
  have hfails := mayFail_failsOnly hmay
  cases c <;> cases hc <;> exact hfails

def failsAtTime (F : Cmd -> Prop) (now : Nat) : Cmd -> Env -> Prop :=
  fun c env => failsAt F c env ∧ env.now = now

theorem executesIn_failsAtTime (F : Cmd -> Prop) (now : Nat) (task : Task)
    (w : World) : exists out w', ExecutesIn (failsAtTime F now) w task out w' ∧
      ExecutesIn (failsOnly F) w task out w' := by
  have henv : forall c, exists env, failsAtTime F now c env := by
    intro c
    rcases failsAt_exists F c with ⟨env, hat⟩
    exact ⟨{ env with now := now }, hat, rfl⟩
  rcases executesIn_exists henv task w with ⟨out, w', h⟩
  exact ⟨out, w', h, h.mono (fun c _ hat => hat.left.mp)⟩

def later (w : World) (id : Int) : Nat :=
  ((w.db.products.find? id).map Product.updatedAt).getD 0 + 1

theorem rows_ne_of_later {w w' : World} {id : Int}
    (h : (w'.db.products.find? id).map Product.updatedAt =
      some (later w id)) : w'.db.products.rows ≠ w.db.products.rows := by
  intro hrows
  have hfind : w'.db.products.find? id = w.db.products.find? id := by
    unfold Table.find?
    rw [hrows]
  rw [hfind] at h
  have hlater : later w id = later w id + 1 := by
    conv =>
      lhs
      unfold later
    rw [h, Option.getD_some]
  omega

/-- A product request reports what it did exactly when the document that it
sends cannot get lost. -/
theorem product_reports_iff (o : Outage) (w : World) (t : ProductTask) :
    (forall r w', ExecutesIn (failsOnly o.fails) w t.task (.response r) w' ->
      Reports w r w') <->
      forall id doc, t.sends w.db = some (id, doc) -> ¬ o.index id doc := by
  constructor
  · intro hreports id doc hsends hdown
    rcases executesIn_failsAtTime o.fails (later w id) t.task w with
      ⟨out, w', hlater, honly⟩
    have hresponse : exists r, out = .response r := by
      cases t <;> exact honly.anyEnv.response
    rcases hresponse with ⟨r, rfl⟩
    have hcalm : forall c, Cmd.aside c = false ->
        ¬ MayFail (failsAtTime o.fails (later w id) c) := by
      intro c hc hmay
      rcases hmay with ⟨env, hat, hfault⟩
      exact o.calm hc ⟨env, hat.left.mp, hfault⟩
    cases ended_of_executes hcalm hlater with
    | kept hnone _ =>
        rw [hsends] at hnone
        cases hnone
    | reported _ hsent =>
        rcases hsent id doc hsends with ⟨env, hat, hfault⟩
        exact works_failsAt ⟨env, hat.left, hfault⟩ hdown
    | unsent id' doc' c env hsends' _ hstatus henv hrow =>
        rw [hsends] at hsends'
        cases hsends'
        rw [henv.right] at hrow
        apply rows_ne_of_later hrow
        apply hreports r w' honly
        omega
  · intro hup r w' hexec
    cases ended_of_executes (fun _ hc => o.calm hc) hexec with
    | kept _ hrows =>
        intro _
        exact hrows
    | reported hstatus _ =>
        intro herror
        omega
    | unsent id doc _ _ hsends hfailed =>
        exact absurd (mayFail_failsOnly hfailed) (hup id doc hsends)

/-- Elasticsearch is down. -/
def sendingFails : Cmd -> Bool
  | .indexDoc _ _ => true
  | _ => false

def cap : ProductTask :=
  .create ⟨some (.text "cap"), none, some (.number 500), some (.number 700)⟩

/-- A client that repeats a creation reported as failed has created two
products. -/
theorem failed_creation_repeated :
    let first := attempt sendingFails cap.task shop
    let second := Task.perform cap.task first.2
    first.1 = .response ⟨500, .error "Failed to create product"⟩ ∧
      first.2.db.products.rows.map Product.name = ["pen", "ink", "cap"] ∧
      second.2.db.products.rows.map Product.name =
        ["pen", "ink", "cap", "cap"] := by
  decide +kernel

end Products
end ExpressEcommerce
