import ExpressEcommerce.Accounts.Rights
import ExpressEcommerce.Store.Frames

/-!
# What a command does to the customers

A command leaves the customers alone, or it inserts the customer of a
registration, or it changes the row that the task has a right to.
-/

namespace ExpressEcommerce
namespace Accounts

open Foundation
open Store
open Service

def Spared (tx : Tx) : Prop :=
  forall log, tx = some log -> forall x, x ∈ log -> x.row.1 ≠ .customers

def Hashed (ok : Env -> Prop) (digest : String) : Prop :=
  exists env password, ok env ∧ digest = env.hash password

inductive Written (ok : Env -> Prop) (db : Database) (hand : Hand) :
    Database -> Hand -> Prop where
  | same {db' : Database} {hand' : Hand}
      (hrows : db'.customers.rows = db.customers.rows)
      (hseq : db.customers.seq ≤ db'.customers.seq)
      (hright : hand'.right = hand.right) (hmade : hand'.made = hand.made)
      (hdigests : forall d, d ∈ hand'.digests ->
        d ∈ hand.digests ∨ Hashed ok d) :
      Written ok db hand db' hand'
  | inserted {db' : Database} {name email password : String} (now : Nat)
      (hright : hand.right = .register name email) (hmade : hand.made = none)
      (hdigest : password ∈ hand.digests)
      (hfree : db.emailFree db.customers.seq email = true)
      (hrows : db'.customers.rows = db.customers.rows ++
        [⟨db.customers.seq, name, email, password, now, now, none⟩])
      (hseq : db.customers.seq < db'.customers.seq) :
      Written ok db hand db' { hand with made := some db.customers.seq }
  | changed {db' : Database} {id : Int} {f : Customer -> Customer}
      (hright : hand.right = .own id) (hid : forall r, (f r).id = r.id)
      (hemail : forall r, (f r).email = r.email ∨
        db.emailFree id (f r).email = true)
      (hpassword : forall r, (f r).password = r.password ∨
        (f r).password ∈ hand.digests)
      (hlive : forall r, r.deletedAt = none -> (f r).deletedAt = none)
      (hrows : db'.customers.rows =
        db.customers.rows.map (fun r => if r.id = id then f r else r))
      (hseq : db'.customers.seq = db.customers.seq) :
      Written ok db hand db' hand

theorem customers_update_of_row {db : Database} {u : Change} {now : Nat}
    (h : u.row.1 ≠ .customers) :
    (db.update u now).customers = db.customers := by
  cases u with
  | customerFields | customerDeleted => exact absurd rfl h
  | itemFields id patch =>
      dsimp only [Database.update]
      split <;> rfl
  | _ => rfl

theorem customers_write_of_row {db : Database} {x : Write}
    (h : x.row.1 ≠ .customers) : (db.write x).customers = db.customers := by
  cases x with
  | insertCustomer r => exact absurd rfl h
  | insertProduct r => rfl
  | insertOrder r =>
      show (db.insertOrder r).customers = db.customers
      unfold Database.insertOrder
      split <;> rfl
  | insertItem r =>
      show (db.insertItem r).customers = db.customers
      unfold Database.insertItem
      split <;> rfl
  | update u now => exact customers_update_of_row h

theorem customers_writeAll {log : List Write} (db : Database)
    (h : forall x, x ∈ log -> x.row.1 ≠ .customers) :
    (db.writeAll log).customers = db.customers := by
  induction log generalizing db with
  | nil => rfl
  | cons x rest ih =>
      rw [Database.writeAll_cons,
        ih (db.write x) (fun y hy => h y (List.mem_cons_of_mem _ hy))]
      exact customers_write_of_row (h x List.mem_cons_self)

theorem written_of_customers {ok : Env -> Prop} {db db' : Database}
    {hand : Hand} (h : db'.customers = db.customers) :
    Written ok db hand db' hand :=
  .same (by rw [h]) (le_of_eq (by rw [h])) rfl rfl (fun _ hd => Or.inl hd)

section Step

variable {ok : Env -> Prop} {w w' : World} {tx tx' : Tx} {hand : Hand}

theorem spared_step {c : Cmd} (hmay : hand.may c) (hspared : Spared tx)
    (h : TxStep tx c tx') : Spared tx' := by
  have hsnoc : forall x : Write, x.row.1 ≠ .customers ->
      Spared (tx.map (fun log => log ++ [x])) := by
    intro x hx log' hlog' y hy
    rcases Option.map_eq_some_iff.mp hlog' with ⟨log, hlog, rfl⟩
    rcases List.mem_append.mp hy with hold | hnew
    · exact hspared log hlog y hold
    · rw [List.mem_singleton.mp hnew]
      exact hx
  cases h with
  | same => exact hspared
  | opened =>
      rintro log ⟨⟩ x hx
      cases hx
  | closed =>
      rintro log ⟨⟩
  | inserted row id now =>
      refine hsnoc _ ?_
      cases row with
      | customer => cases hmay.left
      | _ => exact fun h => nomatch h
  | updated u now =>
      refine hsnoc _ ?_
      cases u with
      | customerFields | customerDeleted => cases hmay.left
      | _ => exact fun h => nomatch h

theorem next_plain (hand : Hand) {c : Cmd} (hc : touchesCustomer c = false)
    {r : service.Reply c} {s' : World × Tx}
    (h : Next ok (w, tx) c r s') :
    exists hand', hand.next c r hand' ∧ hand'.right = hand.right ∧
      hand'.made = hand.made ∧
      forall d, d ∈ hand'.digests -> d ∈ hand.digests ∨ Hashed ok d := by
  have hsame : hand.next c r hand -> exists hand', hand.next c r hand' ∧
      hand'.right = hand.right ∧ hand'.made = hand.made ∧
      forall d, d ∈ hand'.digests -> d ∈ hand.digests ∨ Hashed ok d :=
    fun hnext => ⟨hand, hnext, rfl, rfl, fun _ hd => Or.inl hd⟩
  cases c with
  | query inTx q =>
      cases q with
      | customerByPk id paranoid =>
          rcases (next_query h).right with rfl | ⟨⟨e, rfl⟩, _⟩
          · exact hsame ⟨rfl, fun c hc => Database.customer?_key hc⟩
          · exact hsame rfl
      | _ => cases r <;> exact hsame rfl
  | insert inTx row =>
      cases row with
      | customer => cases hc
      | _ => cases r <;> exact hsame rfl
  | bcryptHash password =>
      rcases h with ⟨env, henv, hexec⟩
      dsimp only [exec] at hexec
      split at hexec <;> cases hexec
      · exact hsame rfl
      · refine ⟨{ hand with digests := env.hash password :: hand.digests },
          rfl, rfl, rfl, ?_⟩
        intro d hd
        rcases List.mem_cons.mp hd with rfl | hold
        · exact Or.inr ⟨env, password, henv, rfl⟩
        · exact Or.inl hold
  | _ => cases r <;> exact hsame rfl

theorem customers_plain {c : Cmd} (hc : touchesCustomer c = false)
    (hspared : Spared tx) {r : service.Reply c}
    (h : Next ok (w, tx) c r (w', tx')) :
    w'.db.customers = w.db.customers := by
  generalize hdb : w'.db = db'
  have hstep := storeStep_of_next h
  rw [hdb] at hstep
  cases hstep with
  | same => rfl
  | reserved inTx row =>
      cases row with
      | customer => cases hc
      | _ => rfl
  | inserted row now =>
      cases row with
      | customer => cases hc
      | _ => exact customers_write_of_row (by rintro ⟨⟩)
  | updated u now =>
      refine customers_update_of_row ?_
      cases u with
      | customerFields | customerDeleted => cases hc
      | _ => rintro ⟨⟩
  | committed log htx => exact customers_writeAll _ (hspared log htx)

theorem written_insert {inTx : Bool} {name email password : String}
    (hmay : hand.may (.insert inTx (.customer name email password)))
    {r : service.Reply (.insert inTx (.customer name email password))}
    (h : Next ok (w, tx) (.insert inTx (.customer name email password)) r
      (w', tx')) :
    exists hand', hand.next _ r hand' ∧ Written ok w.db hand w'.db hand' := by
  rcases hmay with ⟨rfl, hright, hmade, hdigest⟩
  rcases next_insert h with ⟨now, rfl, haccepts, heq⟩ | ⟨⟨e, rfl⟩, heq⟩
  · refine ⟨{ hand with made := some w.db.customers.seq }, rfl, ?_⟩
    cases heq
    have hfresh : w.db.customers.reserve.find? w.db.customers.seq = none := by
      rw [Table.reserve_find?]
      exact Table.find?_seq _
    have hlt : w.db.customers.seq < w.db.customers.reserve.seq := by
      rw [Table.reserve_seq]
      omega
    refine .inserted now hright hmade hdigest
      (Bool.and_eq_true_iff.mp haccepts).right ?_ ?_
    · exact Table.insert_of_fresh hlt hfresh
    · exact lt_of_lt_of_eq hlt (Table.insert_seq _ _).symm
  · refine ⟨hand, rfl, ?_⟩
    rcases heq with heq | heq <;> cases heq
    · exact written_of_customers rfl
    · refine .same rfl ?_ rfl rfl (fun _ hd => Or.inl hd)
      show w.db.customers.seq ≤ w.db.customers.seq + 1
      omega

theorem written_update {inTx : Bool} {u : Change}
    (hu : touchesCustomer (.update inTx u) = true)
    (hmay : hand.may (.update inTx u))
    {r : service.Reply (.update inTx u)}
    (h : Next ok (w, tx) (.update inTx u) r (w', tx')) :
    hand.next _ r hand ∧ Written ok w.db hand w'.db hand := by
  have hnext : hand.next (.update inTx u) r hand := by
    cases r <;> exact rfl
  refine ⟨hnext, ?_⟩
  rcases next_update h with ⟨now, _, haccepts, heq⟩ | ⟨_, heq, _⟩
  · cases u with
    | customerFields id patch =>
        rcases hmay with ⟨rfl, hright, hdigest⟩
        cases heq
        refine .changed hright (f := fun c =>
          { c.patch patch with updatedAt := now }) (fun _ => rfl) ?_ ?_
          (fun _ hlive => hlive) rfl rfl
        · intro r
          cases hpatch : patch.email with
          | none =>
              refine Or.inl ?_
              show patch.email.getD r.email = r.email
              rw [hpatch]
              rfl
          | some email =>
              refine Or.inr ?_
              dsimp only [Database.acceptsChange, Customer.patch] at haccepts ⊢
              rw [hpatch] at haccepts ⊢
              simp only [Bool.and_eq_true, Option.all_some] at haccepts
              exact haccepts.left.right.right
        · intro r
          show patch.password.getD r.password = r.password ∨
            patch.password.getD r.password ∈ hand.digests
          cases hpatch : patch.password with
          | none => exact Or.inl rfl
          | some v => exact Or.inr (hdigest v hpatch)
    | customerDeleted id deleted =>
        rcases hmay with ⟨rfl, rfl, hright⟩
        cases heq
        exact .changed hright (f := fun c =>
          { c with deletedAt := stamp false now, updatedAt := now })
          (fun _ => rfl) (fun _ => Or.inl rfl) (fun _ => Or.inl rfl)
          (fun _ _ => rfl) rfl rfl
    | _ => cases hu
  · cases heq
    exact written_of_customers rfl

/-- Everything a task can do to the customers. -/
theorem written_step {c : Cmd} {r : service.Reply c} (hmay : hand.may c)
    (hspared : Spared tx) (h : Next ok (w, tx) c r (w', tx')) :
    exists hand', hand.next c r hand' ∧ Written ok w.db hand w'.db hand' := by
  by_cases hc : touchesCustomer c = false
  · rcases next_plain hand hc h with
      ⟨hand', hnext, hright, hmade, hdigests⟩
    have hcustomers := customers_plain hc hspared h
    exact ⟨hand', hnext, .same (by rw [hcustomers])
      (le_of_eq (by rw [hcustomers])) hright hmade hdigests⟩
  · cases c with
    | insert inTx row =>
        cases row with
        | customer => exact written_insert hmay h
        | _ => exact absurd rfl hc
    | update inTx u =>
        exact ⟨hand, written_update (by simpa using hc) hmay h⟩
    | _ => exact absurd rfl hc

end Step

end Accounts
end ExpressEcommerce
