import ExpressEcommerce.Concurrency.Transactions
import ExpressEcommerce.Foundation.Lists

/-!
# Connections

Sequelize keeps at most five connections to the database.  A transaction has one
of them until it ends, and a statement outside of a transaction needs one while
it runs.  `createOrder` reads the products outside of its own transaction, and
so does the hook of the items with the order: an open request waits for a second
connection while it holds its first.  Five such requests can take all
connections and wait forever; four cannot.
-/

namespace ExpressEcommerce
namespace Concurrency

open Foundation
open Store
open Service
open Orders
open Runs

/-- The default size of the pool; the options set no other. -/
def poolSize : Nat := 5

def needsConnection : Cmd -> Bool
  | .begin => true
  | .query inTx _ => !inTx
  | .insert inTx _ => !inTx
  | .update inTx _ => !inTx
  | _ => false

def kept (tx : Tx) : Nat :=
  if tx.isSome then 1 else 0

/-- The system with the number of free connections.  A command that needs one
has to find one. -/
def pooled (ok : Env -> Prop) : System service (World × Nat) Tx where
  next := fun s c r s' => Next ok (s.1.1, s.2) c r (s'.1.1, s'.2) ∧
    (needsConnection c = true -> 0 < s.1.2) ∧
    s'.1.2 + kept s'.2 = s.1.2 + kept s.2
  enabled := Enabled

abbrev PooledTasks : Type := Pool service (World × Nat) Tx Outcome

def pooledStart (w : World) (reqs : List OrderRequest) : PooledTasks where
  shared := (w, poolSize)
  threads := reqs.map (fun r => ⟨none, r.task.code⟩)

def starving (t : Thread service Tx Outcome) : Bool :=
  t.here.isSome &&
    match t.prog with
    | .call c _ => needsConnection c
    | .ret _ => false

/-- Every connection is held by an open transaction that waits for another. -/
def Starved (pool : PooledTasks) : Prop :=
  (pool.threads.filter starving).length = poolSize

/-- The customer of the token exists. -/
def isKnown (db : Database) (r : OrderRequest) : Bool :=
  (tokenCustomer? db.customers r.token).isSome

/-!
# Few requests
-/

def Admitted (customers : Table Customer) (w : World × Nat) (g : Ghost)
    (tx : Tx) : Prop :=
  Trading customers w.1 g tx ∧ (tx.isSome = true -> forall basket stage,
    g = .place basket stage ->
      (tokenCustomer? customers basket.token).isSome = true)

structure Requests (customers : Table Customer) (reqs : List OrderRequest)
    (w : World × Nat) (ghosts : List (Ghost × Tx)) : Prop where
  accounts : w.1.db.customers = customers
  baskets : forall {i : Nat} {g : Ghost} {tx : Tx},
    ghosts[i]? = some (g, tx) ->
    exists r stage, reqs[i]? = some r ∧ g = .place (r.basket customers) stage

theorem preserves_requests (ok : Env -> Prop) (customers : Table Customer)
    (reqs : List OrderRequest) :
    Pool.Preserves (pooled ok) (mixed customers)
      (Pool.Jointly (Requests customers reqs) (Admitted customers)
        GhostsApart) := by
  refine Pool.preserves_jointly KeysApart.symm ?_
  rintro ⟨w, free⟩ ⟨w', free'⟩ ghosts i g tx tx' c r others hreqs hi
    ⟨htrading, hknown⟩ hmay _ ⟨hnext, _, _⟩
  rcases trades_step hreqs.accounts htrading hmay hnext with
    ⟨g', hnext', htrades⟩
  rcases hreqs.baskets hi with ⟨req, stage, hreq, rfl⟩
  rcases hnext' with ⟨stage', rfl, hstage⟩
  refine ⟨_, ⟨stage', rfl, hstage⟩,
    ⟨htrades.accounts.trans hreqs.accounts, ?_⟩, ⟨htrades.self, ?_⟩, ?_⟩
  · intro j g tx2 hj
    by_cases hij : i = j
    · subst hij
      have hlt : i < ghosts.length := (List.getElem?_eq_some_iff.mp hi).1
      rw [List.getElem?_set_self hlt] at hj
      cases hj
      exact ⟨req, stage', hreq, rfl⟩
    · rw [List.getElem?_set_ne hij] at hj
      exact hreqs.baskets hj
  · rintro hopen basket stage2 heq
    cases heq
    have hmay : stage.may (req.basket customers) c := hmay
    have htx : TxStep tx c tx' := txStep_of_next hnext
    cases htx with
    | same => exact hknown hopen _ _ rfl
    | closed => cases hopen
    | opened => cases stage <;> first | exact hmay | cases hmay
    | inserted row id now =>
        rw [Option.isSome_map] at hopen
        exact hknown hopen _ _ rfl
    | updated u now =>
        rw [Option.isSome_map] at hopen
        exact hknown hopen _ _ rfl
  · rintro h there _ ⟨hother, hknown2⟩ hapart
    rcases htrades.others h there hother hapart with ⟨hother', hapart'⟩
    exact ⟨⟨hother', hknown2⟩, hapart'⟩

theorem requests_start (w : World) (reqs : List OrderRequest) :
    Pool.Jointly (Requests w.db.customers reqs) (Admitted w.db.customers)
      GhostsApart (w, poolSize)
      (reqs.map (fun r =>
        (Ghost.place (r.basket w.db.customers) .idle, none))) := by
  have hghost : forall {i : Nat} {g : Ghost} {tx : Tx},
      (reqs.map (fun r => (Ghost.place (r.basket w.db.customers) .idle,
        (none : Tx))))[i]? = some (g, tx) ->
        tx = none ∧ exists r, reqs[i]? = some r ∧
          g = .place (r.basket w.db.customers) .idle := by
    intro i g tx hi
    rw [List.getElem?_map] at hi
    rcases Option.map_eq_some_iff.mp hi with ⟨r, hr, heq⟩
    cases heq
    exact ⟨rfl, r, hr, rfl⟩
  refine ⟨⟨rfl, ?_⟩, ?_, ?_⟩
  · intro i g tx hi
    rcases hghost hi with ⟨_, r, hr, rfl⟩
    exact ⟨r, .idle, hr, rfl⟩
  · intro i g tx hi
    rcases hghost hi with ⟨rfl, r, _, rfl⟩
    exact ⟨⟨rfl, rfl⟩, fun hopen => by cases hopen⟩
  · intro i j g h tx tx' _ hi _
    rcases hghost hi with ⟨_, r, _, rfl⟩
    exact keysApart_none _

theorem starving_le_known {ok : Env -> Prop} {w : World}
    {reqs : List OrderRequest} {pool : PooledTasks}
    (h : Pool.Reaches (pooled ok) (pooledStart w reqs) pool) :
    (pool.threads.filter starving).length <=
      (reqs.filter (isKnown w.db)).length := by
  have hcovered : Pool.Covered (mixed w.db.customers) (fun _ _ _ => True)
      (pooledStart w reqs)
      (reqs.map (fun r =>
        (Ghost.place (r.basket w.db.customers) .idle, none))) :=
    Pool.covered_start (fun _ r _ =>
      follows_mixed w.db.customers (.place r.token r.items))
  rcases Pool.reaches_covered (preserves_requests ok w.db.customers reqs)
    (requests_start w reqs) hcovered h with ⟨ghosts, hinv, hcovered⟩
  refine length_filter_le (fun i t ht hstarving => ?_)
  rcases hcovered.follows ht with ⟨g, hg, _⟩
  rcases hinv.all.baskets hg with ⟨r, stage, hr, rfl⟩
  have hopen : t.here.isSome = true := (Bool.and_eq_true_iff.mp hstarving).left
  exact ⟨r, hr, (hinv.each hg).right hopen _ _ rfl⟩

/-!
# Many requests
-/

def IsOpened (t : Thread service Tx Outcome) : Prop :=
  t.here = some [] ∧
    exists q k, t.prog = .call (.query false q) k

theorem starving_of_isOpened {t : Thread service Tx Outcome}
    (h : IsOpened t) : starving t = true := by
  rcases t with ⟨here, prog⟩
  rcases h with ⟨hhere, q, k, hprog⟩
  have hhere : here = some [] := hhere
  have hprog : prog = .call (.query false q) k := hprog
  subst hhere hprog
  rfl

theorem code_of_valid (id : Int) (items : List ItemRequest) (c : Customer) :
    exists first second q last,
      (OrderRequest.mk (.valid id) items).task.code =
          .call (.query false (.customerByPk id false)) first ∧
        first (.ok (some c)) = .call .begin second ∧
        second (.ok ()) = .call (.query false q) last :=
  ⟨_, _, _, _, rfl, rfl, rfl⟩

theorem opens {ok : Env -> Prop} (hok : ok {}) {w : World} {free : Nat}
    {r : OrderRequest} (hknown : isKnown w.db r = true)
    (done rest : List (Thread service Tx Outcome)) :
    exists t, IsOpened t ∧
      Pool.Reaches (pooled ok)
        ⟨(w, free + 1), done ++ ⟨none, r.task.code⟩ :: rest⟩
        ⟨(w, free), done ++ t :: rest⟩ := by
  rcases r with ⟨token, items⟩
  unfold isKnown at hknown
  cases token with
  | missing | invalid => cases hknown
  | valid id =>
      rcases Option.isSome_iff_exists.mp hknown with ⟨c, hc⟩
      have hc : w.db.customers.find? id = some c := hc
      rcases code_of_valid id items c with
        ⟨first, second, q, last, hcode, hfirst, hsecond⟩
      have hreply : exec {} (.query false (.customerByPk id false))
          (w, none) = (.ok (some c), (w, none)) := by
        show (Except.ok ((w.db.customers.find? id).filter _), _) = _
        rw [hc]
        rfl
      have hread : Pool.Step (pooled ok)
          (⟨(w, free + 1), done ++ ⟨none, .call
            (.query false (.customerByPk id false)) first⟩ :: rest⟩ :
              PooledTasks)
          ⟨(w, free + 1), done ++ ⟨none, first (.ok (some c))⟩ :: rest⟩ :=
        Pool.step_between done rest trivial
          ⟨⟨{}, hok, hreply⟩, fun _ => Nat.succ_pos _, rfl⟩
      have hbegin : Pool.Step (pooled ok)
          (⟨(w, free + 1), done ++ ⟨none, .call .begin second⟩ :: rest⟩ :
            PooledTasks)
          ⟨(w, free), done ++ ⟨some [], second (.ok ())⟩ :: rest⟩ :=
        Pool.step_between done rest trivial
          ⟨⟨{}, hok, rfl⟩, fun _ => Nat.succ_pos _, rfl⟩
      rw [hfirst] at hread
      rw [hsecond] at hbegin
      refine ⟨⟨some [], .call (.query false q) last⟩, ⟨rfl, q, last, rfl⟩, ?_⟩
      rw [hcode]
      exact .tail (.single hread) hbegin

theorem starving_start (reqs : List OrderRequest) :
    (reqs.map (fun r => (⟨none, r.task.code⟩ :
      Thread service Tx Outcome))).filter starving = [] := by
  rw [List.filter_eq_nil_iff]
  intro t ht
  rcases List.mem_map.mp ht with ⟨r, _, rfl⟩
  exact Bool.false_ne_true

theorem starves (ok : Env -> Prop) (hok : ok {}) {w : World}
    {reqs : List OrderRequest} {free : Nat}
    (hknown : free <= (reqs.filter (isKnown w.db)).length)
    (done : List (Thread service Tx Outcome)) :
    exists threads,
      Pool.Reaches (pooled ok)
        ⟨(w, free), done ++ reqs.map (fun r => ⟨none, r.task.code⟩)⟩
        ⟨(w, 0), done ++ threads⟩ ∧
      (threads.filter starving).length = free := by
  induction reqs generalizing free done with
  | nil =>
      have hfree : free = 0 := Nat.le_zero.mp hknown
      subst hfree
      exact ⟨[], .refl, rfl⟩
  | cons r reqs ih =>
      cases free with
      | zero =>
          refine ⟨_, .refl, ?_⟩
          rw [starving_start]
          rfl
      | succ free =>
          cases hr : isKnown w.db r with
          | false =>
              rw [List.filter_cons_of_neg (by simp [hr])] at hknown
              rcases ih hknown (done ++ [⟨none, r.task.code⟩]) with
                ⟨threads, hreach, hlength⟩
              rw [List.append_assoc, List.append_assoc] at hreach
              refine ⟨⟨none, r.task.code⟩ :: threads, hreach, ?_⟩
              rw [List.filter_cons_of_neg Bool.false_ne_true]
              exact hlength
          | true =>
              rw [List.filter_cons_of_pos hr] at hknown
              rcases opens hok hr done
                (reqs.map (fun r => ⟨none, r.task.code⟩)) with
                ⟨t, ht, hopens⟩
              rcases ih (Nat.le_of_succ_le_succ hknown) (done ++ [t]) with
                ⟨threads, hreach, hlength⟩
              rw [List.append_assoc, List.append_assoc] at hreach
              refine ⟨t :: threads, hopens.trans hreach, ?_⟩
              rw [List.filter_cons_of_pos (starving_of_isOpened ht),
                List.length_cons, hlength]

/-- Some interleaving leads to a state in which every connection is held by an
open request that waits for another one, exactly if at least as many requests as
there are connections come from known customers. -/
theorem never_starved_iff_few_known {w : World} {reqs : List OrderRequest} :
    (forall pool, Pool.Reaches (pooled AnyEnv) (pooledStart w reqs) pool ->
      ¬ Starved pool) <->
    (reqs.filter (isKnown w.db)).length < poolSize := by
  constructor
  · intro hnever
    by_contra hmany
    rcases starves AnyEnv trivial (Nat.le_of_not_lt hmany) [] with
      ⟨threads, hreach, hlength⟩
    exact hnever _ hreach hlength
  · intro hfew pool hreach hstarved
    have hle := starving_le_known hreach
    unfold Starved at hstarved
    omega

/-- Five requests for a pen. -/
def fivePens : List OrderRequest :=
  List.replicate 5 ⟨.valid 1, [⟨1, 1⟩]⟩

theorem five_requests_starve :
    exists pool, Pool.Reaches (pooled AnyEnv) (pooledStart shop fivePens)
      pool ∧ Starved pool := by
  have hmany : poolSize <= (fivePens.filter (isKnown shop.db)).length := by
    decide
  rcases starves AnyEnv trivial hmany [] with
    ⟨threads, hreach, hlength⟩
  exact ⟨_, hreach, hlength⟩

end Concurrency
end ExpressEcommerce
