import ExpressEcommerce.Caching.Upkeep
import ExpressEcommerce.Runs.Footprint

/-!
# The cache after a task that ran alone

When tasks run one after another and Redis is up, an entry of the cache was
there before the task or has been put there by a reader from the store as it
still is.  The key of a row that the task has changed is gone, unless the task
moved the stock of a product.
-/

namespace ExpressEcommerce
namespace Caching

open Foundation
open Store
open Service
open Runs

def MadeFrom (db : Database) (key : String) (value : CacheValue) : Prop :=
  exists found text, Fetched.From db found ∧
    pgInteger? text = some found.id ∧ key = found.key text ∧
    value = found.value

/-- The state of a task that runs alone, with the world it started in. -/
structure Upkept (start : World) (s : World × Tx) (duty : Duty) :
    Prop where
  reading : duty.isReading = true -> s.1.db = start.db
  hands : forall found, duty = .holding found -> found.From start.db
  entries : forall key value, s.1.cache.get key = some value ->
    start.cache.get key = some value ∨
      duty.isReading = true ∧ MadeFrom start.db key value
  rows : duty.isReading = false -> forall row key, rowKey row = some key ->
    Found start.db row -> duty.Minds row ->
    s.1.cache.get key = none ∨ duty.Owes key ∨
      SameRow start.db s.1.db row ∧ row ∉ logged s.2

section Step

variable {start w w' : World} {tx tx' : Tx}
variable {duty duty' : Duty} {c : Cmd}

theorem isReading_turned (h : Turned w tx duty c w' tx' duty') :
    duty'.isReading = duty.isReading := by
  cases h <;> rfl

theorem db_of_reading (hreading : duty.isReading = true)
    (h : Turned w tx duty c w' tx' duty') : w'.db = w.db := by
  cases h with
  | still hdb _ _ _ => exact hdb
  | hit | fetched | filled => rfl
  | reserved | inserted | updated | committed | cleared => cases hreading

theorem minds_back {row : TableName × Int} (hminds : duty'.Minds row)
    (h : Turned w tx duty c w' tx' duty') : duty.Minds row := by
  cases h with
  | hit | fetched | filled => trivial
  | still | reserved | inserted | updated | committed | cleared =>
      exact hminds

theorem rows_turned {row : TableName × Int} {key : String}
    (hwriting : duty.isReading = false) (hkey : rowKey row = some key)
    (hfound : Found start.db row) (hminds : duty.Minds row)
    (hold : w.cache.get key = none ∨ duty.Owes key ∨
      SameRow start.db w.db row ∧ row ∉ logged tx)
    (h : Turned w tx duty c w' tx' duty') :
    w'.cache.get key = none ∨ duty'.Owes key ∨
      SameRow start.db w'.db row ∧ row ∉ logged tx' := by
  rcases hold with hnone | howes | ⟨hsame, hlogged⟩
  · left
    cases hget : w'.cache.get key with
    | none => rfl
    | some value =>
        rcases turned_get h hget with hthere | ⟨found, text, rfl, _⟩
        · rw [hnone] at hthere
          cases hthere
        · cases hwriting
  · rcases turned_owes howes h with hstill | ⟨_, hnone⟩
    · exact Or.inr (Or.inl hstill)
    · exact Or.inl hnone
  · have hthere := hfound.same hsame
    by_cases howes : duty'.Owes key
    · exact Or.inr (Or.inl howes)
    · refine Or.inr (Or.inr ⟨?_, fun hrow => ?_⟩)
      · rcases turned_row hkey hthere hminds h with
          hkeep | howes' | ⟨_, hcommits⟩
        · exact hsame.trans hkeep
        · exact absurd howes' howes
        · exact absurd hcommits hlogged
      · rcases turned_logged hkey hminds h hrow with hbefore | howes'
        · exact hlogged hbefore
        · exact howes howes'

theorem upkept_turned (hold : Upkept start (w, tx) duty)
    (h : Turned w tx duty c w' tx' duty') :
    Upkept start (w', tx') duty' := by
  have hkind := isReading_turned h
  refine ⟨fun hreading => ?_, ?_, fun key value hget => ?_,
    fun hwriting row key hkey hfound hminds => ?_⟩
  · rw [hkind] at hreading
    rw [db_of_reading hreading h]
    exact hold.reading hreading
  · rintro found rfl
    cases h with
    | still _ _ _ _ => exact hold.hands found rfl
    | fetched _ hfrom =>
        rw [← hold.reading rfl]
        exact hfrom
  · rcases turned_get h hget with
      hthere | ⟨found, text, rfl, _, hid, hkey, hvalue, _⟩
    · rcases hold.entries key value hthere with hfirst | ⟨hreading, hmade⟩
      · exact Or.inl hfirst
      · exact Or.inr ⟨hkind.trans hreading, hmade⟩
    · exact Or.inr ⟨hkind, found, text, hold.hands found rfl, hid, hkey,
        hvalue⟩
  · rw [hkind] at hwriting
    have hminds' := minds_back hminds h
    exact rows_turned hwriting hkey hfound hminds'
      (hold.rows hwriting row key hkey hfound hminds') h

end Step

/-!
# Whole tasks
-/

structure Upkeep (t : Task) (w w' : World) : Prop where
  entries : forall key value, w'.cache.get key = some value ->
    w.cache.get key = some value ∨
      w'.db = w.db ∧ MadeFrom w.db key value
  rows : forall row key, rowKey row = some key -> Found w.db row ->
    (row.1 = .products -> (rightsOf t).stock = false) ->
    w'.cache.get key = none ∨ SameRow w.db w'.db row

theorem upkept_start (t : Task) (w : World) :
    Upkept w (w, none) (dutyOf t) := by
  refine ⟨fun _ => rfl, ?_, fun _ _ hget => Or.inl hget, ?_⟩
  · intro found hduty
    unfold dutyOf at hduty
    split at hduty <;> cases hduty
  · intro _ row key _ _ _
    refine Or.inr (Or.inr ⟨SameRow.refl _ _, fun hrow => ?_⟩)
    cases hrow

theorem executes_upkeep {t : Task} {w w' : World} {out : Outcome}
    (h : ExecutesIn RedisUp w t out w') : Upkeep t w w' := by
  rcases h with ⟨tx, hrun⟩
  have hstep : forall {s : World × Tx} {duty : Duty} {c : Cmd}
      {r : service.Reply c} {s' : World × Tx}, Upkept w s duty ->
      (duties True).may duty c -> NextIn RedisUp s c r s' ->
        exists duty', (duties True).next duty c r duty' ∧
          Upkept w s' duty' := by
    intro s duty c r s' hkept hmay hnext
    have hup : True -> forall key, c = .redisDel key ->
        ¬ MayFail (RedisUp c) := by
      rintro _ key rfl
      exact not_mayFail_healthy
    rcases turned_step hup hmay hnext with ⟨duty', hduty, hturned⟩
    exact ⟨duty', hduty, upkept_turned hkept hturned⟩
  rcases Prog.wp_sound (J := Upkept w) hstep (follows_duty True t)
    (upkept_start t w) hrun with ⟨duty, hkept, hdischarged⟩
  cases hreader : isReader t with
  | true =>
      have hdb := hkept.reading (hdischarged.reading hreader)
      refine ⟨fun key value hget => ?_, fun row _ _ _ _ => ?_⟩
      · rcases hkept.entries key value hget with hold | ⟨_, hmade⟩
        · exact Or.inl hold
        · exact Or.inr ⟨hdb, hmade⟩
      · rw [show w'.db = w.db from hdb]
        exact Or.inr (SameRow.refl _ _)
  | false =>
      rcases hdischarged.cleared hreader with ⟨keys, rfl, hkeys⟩
      rw [hkeys trivial] at hkept
      refine ⟨fun key value hget => ?_, fun row key hkey hfound hstock => ?_⟩
      · rcases hkept.entries key value hget with hold | ⟨hno, _⟩
        · exact Or.inl hold
        · cases hno
      · rcases hkept.rows rfl row key hkey hfound hstock with
          hnone | howes | ⟨hsame, _⟩
        · exact Or.inl hnone
        · cases howes
        · exact Or.inr hsame

end Caching
end ExpressEcommerce
