import Laye.Gateway
import Laye.Lib.Notify

/-!
# The outbox of a gateway client

A `BroadcastSink` is a queue behind a mutex and a `Notify` of tokio. Every broadcast calls `push`;
the write half of `handle_client` calls `next` over and over.
-/

namespace Laye

variable {ν : Type} {N : Notify.Api ν}

namespace BroadcastSink

def queued : Notify.Resource BroadcastSink Bytes where
  Produces sink sink' := ∃ bytes, sink' = sink.push bytes
  take sink :=
    match sink.tryNext with
    | (some bytes, sink) => some (bytes, sink)
    | (none, _) => none

lemma take_eq_none_iff {sink : BroadcastSink} : queued.take sink = none ↔ sink.queue = [] := by
  obtain ⟨cap, queue⟩ := sink
  cases queue <;> simp [queued, tryNext]

lemma eq_of_tryNext {sink sink' : BroadcastSink} (h : sink.tryNext = (none, sink')) :
    sink' = sink := by
  obtain ⟨cap, queue⟩ := sink
  cases queue <;> cases h
  rfl

/-- No wake-up is lost: where `next` is parked and no notification is there for it, nothing is
queued. -/
theorem no_lost_wakeup (hN : N.Documented) {cap : Nat} {s : Notify.State ν BroadcastSink Bytes}
    (hrun : Notify.Run N queued ⟨.new cap, N.new, .away⟩ s) (hparked : s.place = .parked)
    (hpending : N.resume s.notify = none) : s.value.queue = [] :=
  take_eq_none_iff.mp ((Notify.Watched.reached hN hrun).woken hparked hpending)

/-- A push between the look and the wait leaves a permit, and `next` is parked only after the frame
is taken. -/
theorem no_lost_wakeup_permit :
    ∃ s : Notify.State Notify.Single BroadcastSink Bytes,
      Notify.Run Notify.single queued ⟨.new 2, Notify.single.new, .away⟩ s ∧ s.place = .parked ∧
        Notify.single.resume s.notify = none ∧ s.value.queue = [] := by
  have hlook : ∀ n, Notify.Run Notify.single queued ⟨.new 2, n, .away⟩ ⟨.new 2, n, .waiting⟩ :=
    fun n => ((Relation.ReflTransGen.single (.call _ _)).tail (.see _ rfl)).tail (.unlock _ _)
  have hpush : Notify.Run Notify.single queued ⟨.new 2, ⟨false, .absent⟩, .waiting⟩
      ⟨⟨2, [[7]]⟩, ⟨true, .absent⟩, .waiting⟩ :=
    .single (.produce (fun h => h) ⟨[7], rfl⟩)
  have htake : Notify.Run Notify.single queued ⟨⟨2, [[7]]⟩, ⟨true, .absent⟩, .waiting⟩
      ⟨.new 2, ⟨false, .absent⟩, .away⟩ :=
    ((Relation.ReflTransGen.single (.consume _ rfl)).tail (.take _ rfl)).tail (.finish _ _ _)
  have hrun := (((hlook _).trans hpush).trans htake).trans ((hlook _).tail (.park _ rfl))
  exact ⟨_, hrun, rfl, rfl, no_lost_wakeup Notify.single_documented hrun rfl rfl⟩

end BroadcastSink

/-! ### Line by line -/

/-- Who has the lock: a push that has not enqueued yet, one that has not called `notify_one` yet,
one that has, or `next`. -/
inductive LockHolder
  | push (bytes : Bytes)
  | enqueued
  | notified
  | next

/-- The places of `next`, with the lock from `popFront` to the end of its block. -/
inductive NextAt
  | outside
  | lock
  | popFront
  | returns (bytes : Bytes)
  | empty
  | notified
  | parked

def NextAt.Locked : NextAt → Prop
  | .popFront | .returns _ | .empty => True
  | .outside | .lock | .notified | .parked => False

def NextAt.place : NextAt → Notify.Place Bytes
  | .outside => .away
  | .lock | .popFront => .looking
  | .returns bytes => .took bytes
  | .empty => .sawNone
  | .notified => .waiting
  | .parked => .parked

structure SinkState (ν : Type) where
  sink : BroadcastSink
  notify : ν
  lock : Option LockHolder
  next : NextAt

namespace SinkState

def start (N : Notify.Api ν) (cap : Nat) : SinkState ν := ⟨.new cap, N.new, none, .outside⟩

/-- One line of a `push`, of which any number wait for the lock, or of `next`. -/
inductive Step (N : Notify.Api ν) : SinkState ν → SinkState ν → Prop
  | pushLock (sink : BroadcastSink) (n : ν) (next : NextAt) (bytes : Bytes) :
      Step N ⟨sink, n, none, next⟩ ⟨sink, n, some (.push bytes), next⟩
  | pushBack (sink : BroadcastSink) (n : ν) (next : NextAt) (bytes : Bytes) :
      Step N ⟨sink, n, some (.push bytes), next⟩ ⟨sink.push bytes, n, some .enqueued, next⟩
  | notifyOne (sink : BroadcastSink) (n : ν) (next : NextAt) :
      Step N ⟨sink, n, some .enqueued, next⟩ ⟨sink, N.notifyOne n, some .notified, next⟩
  | pushUnlock (sink : BroadcastSink) (n : ν) (next : NextAt) :
      Step N ⟨sink, n, some .notified, next⟩ ⟨sink, n, none, next⟩
  | call (sink : BroadcastSink) (n : ν) (lock : Option LockHolder) :
      Step N ⟨sink, n, lock, .outside⟩ ⟨sink, n, lock, .lock⟩
  | nextLock (sink : BroadcastSink) (n : ν) :
      Step N ⟨sink, n, none, .lock⟩ ⟨sink, n, some .next, .popFront⟩
  | popSome {sink sink' : BroadcastSink} {bytes : Bytes} (n : ν)
      (h : sink.tryNext = (some bytes, sink')) :
      Step N ⟨sink, n, some .next, .popFront⟩ ⟨sink', n, some .next, .returns bytes⟩
  | popNone {sink sink' : BroadcastSink} (n : ν) (h : sink.tryNext = (none, sink')) :
      Step N ⟨sink, n, some .next, .popFront⟩ ⟨sink', n, some .next, .empty⟩
  | nextReturn (sink : BroadcastSink) (n : ν) (bytes : Bytes) :
      Step N ⟨sink, n, some .next, .returns bytes⟩ ⟨sink, n, none, .outside⟩
  | nextUnlock (sink : BroadcastSink) (n : ν) :
      Step N ⟨sink, n, some .next, .empty⟩ ⟨sink, n, none, .notified⟩
  | permit (sink : BroadcastSink) {n n' : ν} (lock : Option LockHolder)
      (h : N.consume n = some n') :
      Step N ⟨sink, n, lock, .notified⟩ ⟨sink, n', lock, .lock⟩
  | park (sink : BroadcastSink) {n : ν} (lock : Option LockHolder) (h : N.consume n = none) :
      Step N ⟨sink, n, lock, .notified⟩ ⟨sink, N.park n, lock, .parked⟩
  | wake (sink : BroadcastSink) {n n' : ν} (lock : Option LockHolder) (h : N.resume n = some n') :
      Step N ⟨sink, n, lock, .parked⟩ ⟨sink, n', lock, .lock⟩

abbrev Run (N : Notify.Api ν) : SinkState ν → SinkState ν → Prop :=
  Relation.ReflTransGen (Step N)

/-- `next` has the lock in its block and nowhere else. -/
def Exclusive (s : SinkState ν) : Prop := s.lock = some .next ↔ s.next.Locked

lemma Exclusive.start (N : Notify.Api ν) (cap : Nat) : Exclusive (start N cap) :=
  iff_of_false (fun h => by cases h) (fun h => h)

lemma Exclusive.step {s s' : SinkState ν} (hs : Exclusive s) (h : Step N s s') : Exclusive s' := by
  cases h with
  | pushLock | pushBack | notifyOne | pushUnlock =>
    exact iff_of_false (by simp) (fun h => by cases hs.mpr h)
  | nextLock | popSome | popNone => exact iff_of_true rfl trivial
  | nextReturn | nextUnlock => exact iff_of_false (by simp) (fun h => h)
  | call | permit | park | wake => exact iff_of_false (fun h => hs.mp h) (fun h => h)

/-- The sink behind the pushes that have notified: one that has not is left out. -/
def Announced : Option LockHolder → BroadcastSink → BroadcastSink → Prop
  | some .enqueued, sink, old => ∃ bytes, sink = old.push bytes
  | some (.push _), sink, old | some .notified, sink, old | some .next, sink, old
  | none, sink, old => sink = old

lemma Announced.eq {lock : Option LockHolder} {sink old : BroadcastSink}
    (h : Announced lock sink old) (hlock : lock ≠ some .enqueued) : sink = old := by
  match lock with
  | some .enqueued => exact absurd rfl hlock
  | some (.push _) | some .notified | some .next | none => exact h

/-- What a push does counts from its `notify_one` on, where it has the lock: line by line nothing
happens that does not happen with whole pushes. -/
theorem step_simulated {s s' : SinkState ν} {old : BroadcastSink} (hs : Exclusive s)
    (hold : Announced s.lock s.sink old) (h : Step N s s') :
    ∃ old', Announced s'.lock s'.sink old' ∧
      Notify.Run N BroadcastSink.queued ⟨old, s.notify, s.next.place⟩
        ⟨old', s'.notify, s'.next.place⟩ := by
  cases h with
  | pushLock sink n next bytes => exact ⟨old, hold, .refl⟩
  | pushBack sink n next bytes =>
    have hsink : sink = old := hold
    exact ⟨old, ⟨bytes, by rw [hsink]⟩, .refl⟩
  | notifyOne sink n next =>
    have hfree : ¬next.place.Holds := by
      intro hholds
      cases next with
      | popFront | outside | lock | notified | parked => exact hholds
      | returns bytes => cases hs.mpr trivial
      | empty => cases hs.mpr trivial
    exact ⟨sink, rfl, .single (.produce hfree hold)⟩
  | pushUnlock sink n next => exact ⟨old, hold, .refl⟩
  | call sink n lock => exact ⟨old, hold, .single (.call _ _)⟩
  | nextLock sink n => exact ⟨old, hold, .refl⟩
  | @popSome sink sink' bytes n h =>
    have hsink : sink = old := hold
    have htake : BroadcastSink.queued.take old = some (bytes, sink') := by
      rw [← hsink, BroadcastSink.queued]
      simp only [h]
    exact ⟨sink', rfl, .single (.take _ htake)⟩
  | @popNone sink sink' n h =>
    have hsink : sink = old := hold
    have htake : BroadcastSink.queued.take old = none := by
      rw [← hsink, BroadcastSink.queued]
      simp only [h]
    exact ⟨old, (BroadcastSink.eq_of_tryNext h).trans hsink, .single (.see _ htake)⟩
  | nextReturn sink n bytes => exact ⟨old, hold, .single (.finish _ _ _)⟩
  | nextUnlock sink n => exact ⟨old, hold, .single (.unlock _ _)⟩
  | permit sink lock h => exact ⟨old, hold, .single (.consume _ h)⟩
  | park sink lock h => exact ⟨old, hold, .single (.park _ h)⟩
  | wake sink lock h => exact ⟨old, hold, .single (.resume _ h)⟩

theorem run_simulated {cap : Nat} {s : SinkState ν} (h : Run N (start N cap) s) :
    Exclusive s ∧ ∃ old, Announced s.lock s.sink old ∧
      Notify.Run N BroadcastSink.queued ⟨.new cap, N.new, .away⟩ ⟨old, s.notify, s.next.place⟩ := by
  induction h with
  | refl => exact ⟨Exclusive.start N cap, .new cap, rfl, .refl⟩
  | tail _ hstep ih =>
    obtain ⟨hex, old, hold, hrun⟩ := ih
    obtain ⟨old', hold', hmore⟩ := step_simulated hex hold hstep
    exact ⟨hex.step hstep, old', hold', hrun.trans hmore⟩

/-- Line by line, a frame can wait for a parked `next` only while the push that enqueued it still
has the lock and is about to notify. -/
theorem parked_empty (hN : N.Documented) {cap : Nat} {s : SinkState ν}
    (hrun : Run N (start N cap) s) (hparked : s.next = .parked)
    (hpending : N.resume s.notify = none) : s.sink.queue = [] ∨ s.lock = some .enqueued := by
  obtain ⟨-, old, hold, hmatch⟩ := run_simulated hrun
  by_cases hlock : s.lock = some .enqueued
  · exact Or.inr hlock
  · left
    have hnone := (Notify.Watched.reached hN hmatch).woken (by rw [hparked, NextAt.place]) hpending
    rw [hold.eq hlock]
    exact BroadcastSink.take_eq_none_iff.mp hnone

end SinkState

end Laye
