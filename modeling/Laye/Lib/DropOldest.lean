import Laye.Lib.Outbox
import Laye.Lib.Places

/-!
# A queue that drops its oldest item

Items are offered one after the other and popped from the front; a full queue drops its oldest
item for a newer one. What became of an item is told of its place among the items offered.
-/

namespace DropOldest

open Outbox

variable {π : Type*}

/-- The queue is the end of what was offered. An item before it was popped, in its turn, or its
place is `lost`. -/
structure Accounted (cap : Nat) (offered popped queue : List π) (poppedAt : List Nat)
    (lost : Nat → Prop) : Prop where
  places : Places offered poppedAt popped
  before : ∀ i ∈ poppedAt, i + queue.length < offered.length
  suffix : queue <:+ offered
  bounded : queue.length ≤ cap
  skipped : ∀ i, i + queue.length < offered.length → i ∉ poppedAt → lost i

namespace Accounted

variable {cap : Nat} {offered popped queue : List π} {poppedAt : List Nat} {lost lost' : Nat → Prop}

/-- Before anything is offered. -/
lemma start (cap : Nat) (lost : Nat → Prop) : Accounted cap ([] : List π) [] [] [] lost where
  places := ⟨List.Pairwise.nil, rfl⟩
  before := by simp
  suffix := List.suffix_rfl
  bounded := Nat.zero_le _
  skipped := by simp

lemma mono (h : Accounted cap offered popped queue poppedAt lost) (hlost : ∀ i, lost i → lost' i) :
    Accounted cap offered popped queue poppedAt lost' :=
  { h with skipped := fun i hi hnot => hlost i (h.skipped i hi hnot) }

lemma queue_eq (h : Accounted cap offered popped queue poppedAt lost) :
    queue = offered.drop (offered.length - queue.length) :=
  List.suffix_iff_eq_drop.mp h.suffix

/-- Only an item that a full queue drops is newly lost. -/
theorem offer (h : Accounted cap offered popped queue poppedAt lost) (hcap : 0 < cap) (p : π)
    (hlost : queue.length = cap → lost (offered.length - queue.length)) :
    Accounted cap (offered ++ [p]) popped (pushCapped cap queue p) poppedAt lost := by
  have hlen := h.suffix.length_le
  have hkept : (if cap ≤ queue.length then queue.tail else queue) <:+ offered := by
    split
    · exact (List.tail_suffix queue).trans h.suffix
    · exact h.suffix
  have hsize : (pushCapped cap queue p).length =
      if cap ≤ queue.length then queue.length else queue.length + 1 := by
    rw [pushCapped, List.length_append, List.length_singleton, apply_ite List.length, List.length_tail]
    split <;> omega
  refine ⟨h.places.append [p], fun i hi => ?_, ?_, length_pushCapped_le hcap h.bounded p,
    fun i hi hnot => ?_⟩
  · have hbefore := h.before i hi
    rw [List.length_append, List.length_singleton, hsize]
    split <;> omega
  · obtain ⟨front, hfront⟩ := hkept
    exact ⟨front, by rw [pushCapped, ← List.append_assoc, hfront]⟩
  · rw [List.length_append, List.length_singleton, hsize] at hi
    by_cases hold : i + queue.length < offered.length
    · exact h.skipped i hold hnot
    · -- the place of the front, which a full queue gives up
      have hbounded := h.bounded
      have hfull : queue.length = cap := by
        split at hi <;> omega
      have hplace : i = offered.length - queue.length := by
        split at hi <;> omega
      rw [hplace]
      exact hlost hfull

/-- A pop takes the oldest item. -/
theorem pop {p : π} (h : Accounted cap offered popped (p :: queue) poppedAt lost) :
    Accounted cap offered (popped ++ [p]) queue
      (poppedAt ++ [offered.length - (p :: queue).length]) lost := by
  have hlen := h.suffix.length_le
  have hfront : offered[offered.length - (p :: queue).length]? = some p := by
    have heq := congrArg List.head? h.queue_eq
    rw [List.head?_cons, List.head?_drop] at heq
    exact heq.symm
  have hbounded := h.bounded
  simp only [List.length_cons] at hlen hfront hbounded ⊢
  refine ⟨h.places.snoc hfront (fun j hj => ?_), fun i hi => ?_,
    (List.suffix_cons p queue).trans h.suffix, by omega, fun i hi hnot => ?_⟩
  · have hbefore := h.before j hj
    rw [List.length_cons] at hbefore
    omega
  · rcases List.mem_append.mp hi with hi | hi
    · have hbefore := h.before i hi
      rw [List.length_cons] at hbefore
      omega
    · rw [List.mem_singleton.mp hi]
      omega
  · rw [List.mem_append, List.mem_singleton, not_or] at hnot
    exact h.skipped i (by rw [List.length_cons]; omega) hnot.1

/-- The places of all that was popped or is queued. -/
theorem all (h : Accounted cap offered popped queue poppedAt lost) :
    Places offered (poppedAt ++ List.range' (offered.length - queue.length) queue.length)
      (popped ++ queue) := by
  have hlen := h.suffix.length_le
  have hall := h.places.from_place (Nat.sub_le offered.length queue.length) (fun j hj => by
    have hbefore := h.before j hj
    omega)
  rwa [← h.queue_eq, Nat.sub_sub_self hlen] at hall

/-- An item that was neither popped nor is queued is lost. -/
theorem missing (h : Accounted cap offered popped queue poppedAt lost) {i : Nat}
    (hi : i < offered.length)
    (hnot : i ∉ poppedAt ++ List.range' (offered.length - queue.length) queue.length) : lost i := by
  have hlen := h.suffix.length_le
  rw [List.mem_append, List.mem_range'_1, not_or] at hnot
  exact h.skipped i (by omega) hnot.1

end Accounted

end DropOldest
