import Mathlib.Data.List.Basic

/-!
# Places in a history

A list of items that came out of a history in order, each from a place of its own.
-/

section Places

variable {π : Type*}

/-- `places` are increasing places of the history, and hold the items. -/
structure Places (history : List π) (places : List Nat) (items : List π) : Prop where
  increasing : places.Pairwise (· < ·)
  holds : places.map (fun i => history[i]?) = items.map some

namespace Places

variable {history items : List π} {places : List Nat}

lemma lt_length (h : Places history places items) : ∀ i ∈ places, i < history.length := by
  intro i hi
  have hmem : history[i]? ∈ items.map some := by
    rw [← h.holds]
    exact List.mem_map_of_mem hi
  obtain ⟨p, _, hp⟩ := List.mem_map.mp hmem
  exact (List.getElem?_eq_some_iff.mp hp.symm).1

/-- The places found so far stay what they are while the history grows. -/
lemma append (h : Places history places items) (more : List π) :
    Places (history ++ more) places items := by
  refine ⟨h.increasing, ?_⟩
  rw [← h.holds]
  apply List.map_congr_left
  intro i hi
  rw [List.getElem?_append_left (h.lt_length i hi)]

/-- The next item comes from a place behind the others. -/
lemma snoc (h : Places history places items) {i : Nat} {p : π} (hi : history[i]? = some p)
    (hbehind : ∀ j ∈ places, j < i) : Places history (places ++ [i]) (items ++ [p]) := by
  refine ⟨?_, ?_⟩
  · rw [List.pairwise_append]
    refine ⟨h.increasing, List.pairwise_singleton _ _, ?_⟩
    intro j hj k hk
    rw [List.mem_singleton.mp hk]
    exact hbehind j hj
  · rw [List.map_append, List.map_append, h.holds]
    simp [hi]

/-- The end of the history, from a place on. -/
lemma from_place (h : Places history places items) {n : Nat} (hn : n ≤ history.length)
    (hbehind : ∀ j ∈ places, j < n) :
    Places history (places ++ List.range' n (history.length - n)) (items ++ history.drop n) := by
  refine ⟨?_, ?_⟩
  · rw [List.pairwise_append]
    refine ⟨h.increasing, List.pairwise_lt_range', ?_⟩
    intro j hj k hk
    exact Nat.lt_of_lt_of_le (hbehind j hj) (List.left_le_of_mem_range' hk)
  · rw [List.map_append, List.map_append, h.holds]
    congr 1
    apply List.ext_getElem?
    intro k
    by_cases hk : k < history.length - n
    · have hlt : n + k < history.length := by omega
      simp [hk, hlt]
    · simp [hk]

end Places

end Places
