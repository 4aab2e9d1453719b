import Mathlib.Logic.Relation
import Mathlib.Tactic.Common

/-!
# Waiting for a notification

Producers change a resource under a lock, and notify before they let go of it. One consumer looks
at the resource under the same lock and, where it finds nothing to take, waits for a notification
without it.
-/

namespace Notify

variable {ν σ α : Type*}

/-- A notification with one waiter. A wait first tries to `consume` a permit, and is `park`ed where
none is stored; with `resume` it goes on, once it has been notified. -/
structure Api (ν : Type*) where
  new : ν
  notifyOne : ν → ν
  consume : ν → Option ν
  park : ν → ν
  resume : ν → Option ν
  Parked : ν → Prop

/-- To notify wakes the parked waiter, and else stores a permit. How many are stored is open. -/
structure Api.Documented (N : Api ν) : Prop where
  new : ¬N.Parked N.new
  notifyOne : ∀ n, N.Parked (N.notifyOne n) ↔ N.Parked n
  wakes : ∀ n, N.Parked n → N.resume (N.notifyOne n) ≠ none
  stores : ∀ n, ¬N.Parked n → N.consume (N.notifyOne n) ≠ none
  parks : ∀ n, N.consume n = none → N.Parked (N.park n)
  consumes : ∀ n n', ¬N.Parked n → N.consume n = some n' → ¬N.Parked n'
  resumes : ∀ n n', N.resume n = some n' → ¬N.Parked n'

/-- What a producer may do under the lock, and what the consumer finds there. -/
structure Resource (σ α : Type*) where
  Produces : σ → σ → Prop
  take : σ → Option (α × σ)

/-- Where the consumer is: outside its loop, in front of the lock, with the lock and what it took,
with the lock and nothing, in front of the wait, or in it. -/
inductive Place (α : Type*)
  | away
  | looking
  | took (a : α)
  | sawNone
  | waiting
  | parked

/-- The consumer has the lock. -/
def Place.Holds : Place α → Prop
  | .took _ | .sawNone => True
  | .away | .looking | .waiting | .parked => False

structure State (ν σ α : Type*) where
  value : σ
  notify : ν
  place : Place α

/-- What a producer does and its notification are one step, as they happen under the lock. -/
inductive Step (N : Api ν) (R : Resource σ α) : State ν σ α → State ν σ α → Prop
  | produce {v v' : σ} {n : ν} {place : Place α} (hfree : ¬place.Holds) (h : R.Produces v v') :
      Step N R ⟨v, n, place⟩ ⟨v', N.notifyOne n, place⟩
  | call (v : σ) (n : ν) : Step N R ⟨v, n, .away⟩ ⟨v, n, .looking⟩
  | take {v v' : σ} {a : α} (n : ν) (h : R.take v = some (a, v')) :
      Step N R ⟨v, n, .looking⟩ ⟨v', n, .took a⟩
  | see {v : σ} (n : ν) (h : R.take v = none) : Step N R ⟨v, n, .looking⟩ ⟨v, n, .sawNone⟩
  | finish (v : σ) (n : ν) (a : α) : Step N R ⟨v, n, .took a⟩ ⟨v, n, .away⟩
  | unlock (v : σ) (n : ν) : Step N R ⟨v, n, .sawNone⟩ ⟨v, n, .waiting⟩
  | consume (v : σ) {n n' : ν} (h : N.consume n = some n') :
      Step N R ⟨v, n, .waiting⟩ ⟨v, n', .looking⟩
  | park (v : σ) {n : ν} (h : N.consume n = none) :
      Step N R ⟨v, n, .waiting⟩ ⟨v, N.park n, .parked⟩
  | resume (v : σ) {n n' : ν} (h : N.resume n = some n') :
      Step N R ⟨v, n, .parked⟩ ⟨v, n', .looking⟩

abbrev Run (N : Api ν) (R : Resource σ α) : State ν σ α → State ν σ α → Prop :=
  Relation.ReflTransGen (Step N R)

/-- Where there is something to take behind the consumer's back, a permit or a notification for it
is there too. -/
structure Watched (N : Api ν) (R : Resource σ α) (s : State ν σ α) : Prop where
  parked : N.Parked s.notify ↔ s.place = .parked
  seen : s.place = .sawNone → R.take s.value = none
  permit : s.place = .waiting → N.consume s.notify = none → R.take s.value = none
  woken : s.place = .parked → N.resume s.notify = none → R.take s.value = none

namespace Watched

variable {N : Api ν} {R : Resource σ α}

lemma start (hN : N.Documented) (v : σ) : Watched N R ⟨v, N.new, .away⟩ where
  parked := iff_of_false hN.new (by simp)
  seen h := by cases h
  permit h := by cases h
  woken h := by cases h

lemma not_parked {s : State ν σ α} (hs : Watched N R s) (hplace : s.place ≠ .parked) :
    ¬N.Parked s.notify :=
  fun hn => hplace (hs.parked.mp hn)

/-- A consumer in none of the three places has nothing to rely on. -/
lemma of_place {v : σ} {n : ν} {place : Place α} (hn : ¬N.Parked n)
    (hplace : place = .away ∨ place = .looking ∨ ∃ a, place = .took a) :
    Watched N R ⟨v, n, place⟩ := by
  rcases hplace with rfl | rfl | ⟨a, rfl⟩
  all_goals
    refine ⟨iff_of_false hn (by simp), fun h => ?_, fun h => ?_, fun h => ?_⟩
    all_goals cases h

lemma step (hN : N.Documented) {s s' : State ν σ α} (hs : Watched N R s) (hstep : Step N R s s') :
    Watched N R s' := by
  cases hstep with
  | @produce v v' n place hfree h =>
    refine ⟨(hN.notifyOne n).trans hs.parked, fun hplace => ?_, fun hplace hnone => ?_,
      fun hplace hnone => ?_⟩
    · -- nobody gets at the resource while the consumer has the lock
      exact absurd (by rw [show place = .sawNone from hplace]; trivial) hfree
    · have hn : ¬N.Parked n := hs.not_parked (by simp [show place = .waiting from hplace])
      exact absurd hnone (hN.stores n hn)
    · exact absurd hnone (hN.wakes n (hs.parked.mpr hplace))
  | call v n => exact of_place (hs.not_parked (by simp)) (.inr (.inl rfl))
  | take n h => exact of_place (hs.not_parked (by simp)) (.inr (.inr ⟨_, rfl⟩))
  | see n h =>
    refine ⟨iff_of_false (hs.not_parked (by simp)) (by simp), fun _ => h, fun h => ?_, fun h => ?_⟩
    all_goals cases h
  | finish v n a => exact of_place (hs.not_parked (by simp)) (.inl rfl)
  | unlock v n =>
    refine ⟨iff_of_false (hs.not_parked (by simp)) (by simp), fun h => ?_, fun _ _ => hs.seen rfl,
      fun h => ?_⟩
    all_goals cases h
  | @consume v n n' h =>
    exact of_place (hN.consumes n n' (hs.not_parked (by simp)) h) (.inr (.inl rfl))
  | @park v n h =>
    refine ⟨iff_of_true (hN.parks n h) rfl, fun h => ?_, fun h => ?_, fun _ _ => hs.permit rfl h⟩
    all_goals cases h
  | @resume v n n' h => exact of_place (hN.resumes n n' h) (.inr (.inl rfl))

theorem run (hN : N.Documented) {s s' : State ν σ α} (hs : Watched N R s) (hrun : Run N R s s') :
    Watched N R s' := by
  induction hrun with
  | refl => exact hs
  | tail _ hstep ih => exact ih.step hN hstep

theorem reached (hN : N.Documented) {v : σ} {s : State ν σ α}
    (hrun : Run N R ⟨v, N.new, .away⟩ s) : Watched N R s :=
  (start hN v).run hN hrun

end Watched

/-! ### One permit -/

inductive Waiter
  | absent
  | parked
  | notified
deriving DecidableEq

structure Single where
  permit : Bool
  waiter : Waiter
deriving DecidableEq

/-- A notification that stores one permit at most. -/
def single : Api Single where
  new := ⟨false, .absent⟩
  notifyOne n :=
    match n.waiter with
    | .parked => { n with waiter := .notified }
    | .absent | .notified => { n with permit := true }
  consume n := if n.permit then some { n with permit := false } else none
  park n := { n with waiter := .parked }
  resume n :=
    match n.waiter with
    | .notified => some { n with waiter := .absent }
    | .absent | .parked => none
  Parked n := n.waiter ≠ .absent

lemma single_documented : single.Documented where
  new h := h rfl
  notifyOne := by
    rintro ⟨permit, waiter⟩
    cases waiter <;> simp [single]
  wakes := by
    rintro ⟨permit, waiter⟩ h
    cases waiter <;> simp_all [single]
  stores := by
    rintro ⟨permit, waiter⟩ h
    cases waiter <;> simp_all [single]
  parks n _ := by simp [single]
  consumes := by
    rintro ⟨permit, waiter⟩ n' hn h
    cases permit
    · cases h
    · cases h
      exact hn
  resumes := by
    rintro ⟨permit, waiter⟩ n' h
    cases waiter
    · cases h
    · cases h
    · cases h
      simp [single]

end Notify
