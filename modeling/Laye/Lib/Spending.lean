import Mathlib.Algebra.Order.Monoid.Canonical.Defs
import Mathlib.Algebra.BigOperators.Group.List.Basic
import Laye.Lib.Interaction

/-!
# What a program spends

Every operation has a cost in an ordered monoid. A budget covers a program when no run of it, under
any answers, costs more.
-/

namespace Interaction

variable {Op : Type} {Ans : Op → Type} {ε ε' α β : Type} {M : Type*} [AddCommMonoid M]

/-- The cost of some events. -/
def spent (cost : Op → M) (tr : List (Event Op Ans)) : M := (tr.map fun e => cost e.op).sum

@[simp] lemma spent_nil (cost : Op → M) : spent cost ([] : List (Event Op Ans)) = 0 := rfl

@[simp] lemma spent_cons (cost : Op → M) (e : Event Op Ans) (tr : List (Event Op Ans)) :
    spent cost (e :: tr) = cost e.op + spent cost tr := by
  simp [spent]

/-- The budget `n` covers the program, whatever it is answered. -/
inductive Spends (cost : Op → M) : M → Program Op Ans ε α → Prop
  | done (n : M) (a : α) : Spends cost n (.done a)
  | fail (n : M) (e : ε) : Spends cost n (.fail e)
  | op {n : M} {o : Op} {next : Ans o → Program Op Ans ε α} (h : ∀ x, Spends cost n (next x)) :
      Spends cost (cost o + n) (.op o next)

namespace Spends

variable {cost : Op → M} {m n : M} {p q : Program Op Ans ε α}

lemma mapError {g : ε → ε'} (hp : Spends cost n p) : Spends cost n (p.mapError g) := by
  induction hp with
  | done k a => exact .done k a
  | fail k e => exact .fail k (g e)
  | op _ ih => exact .op ih

lemma attempt (hp : Spends cost n p) :
    Spends cost n (p.attempt : Program Op Ans ε' (Except ε α)) := by
  induction hp with
  | done k a => exact .done k _
  | fail k e => exact .done k _
  | op _ ih => exact .op ih

lemma ofExcept (r : Except ε α) : Spends cost n (Program.ofExcept r : Program Op Ans ε α) := by
  cases r with
  | ok a => exact .done n a
  | error e => exact .fail n e

section Ordered

variable [PartialOrder M] [CanonicallyOrderedAdd M]

lemma mono (hp : Spends cost m p) (h : m ≤ n) : Spends cost n p := by
  obtain ⟨rest, rfl⟩ := exists_add_of_le h
  clear h
  induction hp with
  | done k a => exact .done _ a
  | fail k e => exact .fail _ e
  | op _ ih =>
    rw [add_assoc]
    exact .op ih

/-- A sequence spends what its parts do. -/
lemma bind {f : α → Program Op Ans ε β} (hp : Spends cost m p) (hf : ∀ a, Spends cost n (f a)) :
    Spends cost (m + n) (p >>= f) := by
  induction hp with
  | done k a => exact (hf a).mono le_add_self
  | fail k e => exact .fail _ e
  | op _ ih =>
    rw [add_assoc]
    exact .op ih

lemma bind_le {f : α → Program Op Ans ε β} {k : M} (hp : Spends cost m p)
    (hf : ∀ a, Spends cost n (f a)) (h : m + n ≤ k) : Spends cost k (p >>= f) := (hp.bind hf).mono h

omit [CanonicallyOrderedAdd M] in
/-- What a run has spent, and what is left for the rest. -/
lemma after [IsOrderedAddMonoid M] {tr : List (Event Op Ans)} (hp : Spends cost n p)
    (h : After tr p q) : ∃ left, spent cost tr + left ≤ n ∧ Spends cost left q := by
  induction h generalizing n with
  | nil p => exact ⟨n, by simp, hp⟩
  | cons _ ih =>
    cases hp with
    | op hnext =>
      obtain ⟨left, hle, hq⟩ := ih (hnext _)
      refine ⟨left, ?_, hq⟩
      rw [spent_cons, add_assoc]
      exact add_le_add_right hle _

variable [IsOrderedAddMonoid M] {tr : List (Event Op Ans)}

/-- No run costs more than the budget. -/
theorem spent_le (hp : Spends cost n p) (h : After tr p q) : spent cost tr ≤ n := by
  obtain ⟨left, hle, -⟩ := hp.after h
  exact le_self_add.trans hle

/-- There is budget left for what is asked next. -/
theorem asks_le {o : Op} (hp : Spends cost n p) (h : Asks p tr o) : spent cost tr + cost o ≤ n := by
  obtain ⟨next, h⟩ := h
  obtain ⟨left, hle, hop⟩ := hp.after h
  cases hop with
  | op hnext => exact (add_le_add_right le_self_add _).trans hle

end Ordered

end Spends

end Interaction
