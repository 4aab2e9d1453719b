import Laye.Lib.Interaction

/-!
# Trying again

A round either yields a value or has to be gone through once more. A program that tries at most
`n` times goes through rounds that yield nothing, and then through at most one that yields a value.
-/

namespace Interaction

variable {Op : Type} {Ans : Op → Type} {ε α : Type}

/-- At most `n` rounds, until one yields a value. -/
def retry (round : Program Op Ans ε (Option α)) : Nat → Program Op Ans ε (Option α)
  | 0 => .done none
  | n + 1 => do
    match ← round with
    | some a => return some a
    | none => retry round n

/-- A run through `k` rounds, none of which yields a value. -/
inductive Misses (round : Program Op Ans ε (Option α)) : Nat → List (Event Op Ans) → Prop
  | nil : Misses round 0 []
  | cons {k : Nat} {tr tr' : List (Event Op Ans)} (h : Returns round tr none)
      (hrest : Misses round k tr') : Misses round (k + 1) (tr ++ tr')

section Retry

variable {round : Program Op Ans ε (Option α)} {n : Nat} {tr : List (Event Op Ans)}

/-- All rounds miss, or some miss and the next one yields a value. -/
theorem returns_retry_iff {x : Option α} : Returns (retry round n) tr x ↔
    (x = none ∧ Misses round n tr) ∨
      ∃ a k missed last, x = some a ∧ k < n ∧ Misses round k missed ∧
        Returns round last (some a) ∧ tr = missed ++ last := by
  induction n generalizing tr with
  | zero =>
    rw [retry, returns_done_iff]
    constructor
    · rintro ⟨rfl, rfl⟩
      exact Or.inl ⟨rfl, .nil⟩
    · rintro (⟨rfl, hmiss⟩ | ⟨a, k, missed, last, -, hk, -⟩)
      · cases hmiss
        exact ⟨rfl, rfl⟩
      · omega
  | succ n ih =>
    rw [retry, returns_bind_iff]
    constructor
    · rintro ⟨tr₁, tr₂, y, rfl, hround, hrest⟩
      cases y with
      | some a =>
        obtain ⟨rfl, rfl⟩ := returns_done_iff.mp hrest
        exact Or.inr ⟨a, 0, [], tr₁, rfl, by omega, .nil, hround, List.append_nil _⟩
      | none =>
        rcases ih.mp hrest with ⟨rfl, hmiss⟩ | ⟨a, k, missed, last, rfl, hk, hmiss, hlast, rfl⟩
        · exact Or.inl ⟨rfl, .cons hround hmiss⟩
        · refine Or.inr ⟨a, k + 1, tr₁ ++ missed, last, rfl, by omega, .cons hround hmiss, hlast, ?_⟩
          rw [List.append_assoc]
    · rintro (⟨rfl, hmiss⟩ | ⟨a, k, missed, last, rfl, hk, hmiss, hlast, rfl⟩)
      · cases hmiss with
        | cons h hrest => exact ⟨_, _, none, rfl, h, ih.mpr (Or.inl ⟨rfl, hrest⟩)⟩
      · cases hmiss with
        | nil => exact ⟨last, [], some a, by simp, hlast, .nil _⟩
        | @cons k tr₁ tr₂ h hrest =>
          refine ⟨tr₁, tr₂ ++ last, none, List.append_assoc _ _ _, h, ih.mpr (Or.inr ?_)⟩
          exact ⟨a, k, tr₂, last, rfl, by omega, hrest, hlast, rfl⟩

/-- On its way the program has gone through rounds that miss, and through a part of the next. -/
theorem After.retry {q : Program Op Ans ε (Option α)} (h : After tr (retry round n) q) :
    Misses round n tr ∨
      ∃ k missed last r, k < n ∧ tr = missed ++ last ∧ Misses round k missed ∧ After last round r := by
  induction n generalizing tr with
  | zero =>
    rw [Interaction.retry, after_done_iff] at h
    rw [h.1]
    exact Or.inl .nil
  | succ n ih =>
    rw [Interaction.retry, after_bind_iff] at h
    rcases h with ⟨r, hround, -, -⟩ | ⟨tr₁, tr₂, y, rfl, hround, hrest⟩
    · exact Or.inr ⟨0, [], tr, r, by omega, rfl, .nil, hround⟩
    · cases y with
      | some a =>
        obtain ⟨rfl, -⟩ := after_done_iff.mp hrest
        exact Or.inr ⟨0, [], tr₁, _, by omega, by simp, .nil, hround⟩
      | none =>
        rcases ih hrest with hmiss | ⟨k, missed, last, r, hk, rfl, hmiss, hlast⟩
        · exact Or.inl (.cons hround hmiss)
        · refine Or.inr ⟨k + 1, tr₁ ++ missed, last, r, by omega, ?_, .cons hround hmiss, hlast⟩
          rw [List.append_assoc]

lemma AsksOnly.retry {allowed : Op → Prop} (h : AsksOnly allowed round) (n : Nat) :
    AsksOnly allowed (retry round n) := by
  induction n with
  | zero => exact .done none
  | succ n ih =>
    refine h.bind fun x => ?_
    cases x with
    | some a => exact .done (some a)
    | none => exact ih

end Retry

end Interaction
