import Mathlib.Data.List.Basic

/-!
# Interactive programs

A program asks its surroundings for one operation at a time and goes on with the answer it
gets. Its runs are lists of operations with their answers, and the runs of a sequence of two
programs are the runs of the first followed by runs of the second.
-/

namespace Interaction

/-- A program over operations `Op`; operation `o` is answered by a value of `Ans o`. -/
inductive Program (Op : Type) (Ans : Op → Type) (ε α : Type) : Type
  | done (a : α)
  | fail (e : ε)
  | op (o : Op) (next : Ans o → Program Op Ans ε α)

structure Event (Op : Type) (Ans : Op → Type) where
  op : Op
  answer : Ans op

variable {Op : Type} {Ans : Op → Type} {ε ε' α β : Type}

namespace Program

def bind : Program Op Ans ε α → (α → Program Op Ans ε β) → Program Op Ans ε β
  | .done a, f => f a
  | .fail e, _ => .fail e
  | .op o next, f => .op o (fun x => (next x).bind f)

instance : Monad (Program Op Ans ε) where
  pure := .done
  bind := Program.bind

def ofExcept : Except ε α → Program Op Ans ε α
  | .ok a => .done a
  | .error e => .fail e

/-- Run to the end and return how it ended. -/
def attempt : Program Op Ans ε α → Program Op Ans ε' (Except ε α)
  | .done a => .done (.ok a)
  | .fail e => .done (.error e)
  | .op o next => .op o (fun x => (next x).attempt)

def mapError (g : ε → ε') : Program Op Ans ε α → Program Op Ans ε' α
  | .done a => .done a
  | .fail e => .fail (g e)
  | .op o next => .op o (fun x => (next x).mapError g)

/-- The end of the run in which `env` gives all answers. -/
def answered (env : (o : Op) → Ans o) : Program Op Ans ε α → Except ε α
  | .done a => .ok a
  | .fail e => .error e
  | .op o next => (next (env o)).answered env

@[simp] lemma pure_eq (a : α) : (pure a : Program Op Ans ε α) = .done a := rfl

@[simp] lemma done_bind (a : α) (f : α → Program Op Ans ε β) : (.done a >>= f) = f a := rfl

@[simp] lemma fail_bind (e : ε) (f : α → Program Op Ans ε β) : (.fail e >>= f) = .fail e := rfl

@[simp] lemma op_bind (o : Op) (next : Ans o → Program Op Ans ε α) (f : α → Program Op Ans ε β) :
    (.op o next >>= f) = .op o (fun x => next x >>= f) := rfl

section Answered

variable (env : (o : Op) → Ans o)

lemma answered_bind (p : Program Op Ans ε α) (f : α → Program Op Ans ε β) :
    (p >>= f).answered env = p.answered env >>= fun a => (f a).answered env := by
  induction p with
  | done a => rfl
  | fail e => rfl
  | op o next ih => exact ih (env o)

@[simp] lemma answered_ofExcept (r : Except ε α) :
    (ofExcept r : Program Op Ans ε α).answered env = r := by
  cases r <;> rfl

end Answered

end Program

/-! ### Runs -/

/-- Along `tr` the program `p` becomes `q`. -/
inductive After : List (Event Op Ans) → Program Op Ans ε α → Program Op Ans ε α → Prop
  | nil (p : Program Op Ans ε α) : After [] p p
  | cons {o : Op} {x : Ans o} {next : Ans o → Program Op Ans ε α} {tr : List (Event Op Ans)}
      {q : Program Op Ans ε α} (h : After tr (next x) q) : After (⟨o, x⟩ :: tr) (.op o next) q

def Returns (p : Program Op Ans ε α) (tr : List (Event Op Ans)) (a : α) : Prop :=
  After tr p (.done a)

/-- After `tr` the program asks for `o`. -/
def Asks (p : Program Op Ans ε α) (tr : List (Event Op Ans)) (o : Op) : Prop :=
  ∃ next, After tr p (.op o next)

section Runs

variable {tr tr' : List (Event Op Ans)} {p q : Program Op Ans ε α}

lemma after_nil_iff : After [] p q ↔ p = q := by
  constructor
  · intro h
    cases h
    rfl
  · rintro rfl
    exact .nil p

lemma after_cons_iff {e : Event Op Ans} :
    After (e :: tr) p q ↔ ∃ next, p = .op e.op next ∧ After tr (next e.answer) q := by
  constructor
  · intro h
    cases h with
    | cons h => exact ⟨_, rfl, h⟩
  · rintro ⟨next, rfl, h⟩
    exact .cons h

lemma after_op_iff {o : Op} {next : Ans o → Program Op Ans ε α} :
    After tr (.op o next) q ↔
      (tr = [] ∧ q = .op o next) ∨ ∃ x tr', tr = ⟨o, x⟩ :: tr' ∧ After tr' (next x) q := by
  constructor
  · intro h
    cases h with
    | nil => exact Or.inl ⟨rfl, rfl⟩
    | cons h => exact Or.inr ⟨_, _, rfl, h⟩
  · rintro (⟨rfl, rfl⟩ | ⟨x, tr', rfl, h⟩)
    · exact .nil _
    · exact .cons h

lemma after_op_cons_iff {o : Op} {x : Ans o} {next : Ans o → Program Op Ans ε α} :
    After (⟨o, x⟩ :: tr) (.op o next) q ↔ After tr (next x) q := by
  rw [after_cons_iff]
  constructor
  · rintro ⟨next', hop, h⟩
    cases hop
    exact h
  · intro h
    exact ⟨next, rfl, h⟩

@[simp] lemma after_done_iff {a : α} : After tr (.done a) q ↔ tr = [] ∧ q = .done a := by
  constructor
  · intro h
    cases h
    exact ⟨rfl, rfl⟩
  · rintro ⟨rfl, rfl⟩
    exact .nil _

@[simp] lemma after_fail_iff {e : ε} : After tr (.fail e) q ↔ tr = [] ∧ q = .fail e := by
  constructor
  · intro h
    cases h
    exact ⟨rfl, rfl⟩
  · rintro ⟨rfl, rfl⟩
    exact .nil _

lemma after_append_iff : After (tr ++ tr') p q ↔ ∃ r, After tr p r ∧ After tr' r q := by
  induction tr generalizing p with
  | nil => simp [after_nil_iff]
  | cons e tr ih =>
    simp only [List.cons_append, after_cons_iff, ih]
    constructor
    · rintro ⟨next, hp, r, h, h'⟩
      exact ⟨r, ⟨next, hp, h⟩, h'⟩
    · rintro ⟨r, ⟨next, hp, h⟩, h'⟩
      exact ⟨next, hp, r, h, h'⟩

lemma After.snoc {o : Op} {next : Ans o → Program Op Ans ε α} (h : After tr p (.op o next))
    (x : Ans o) : After (tr ++ [⟨o, x⟩]) p (next x) :=
  after_append_iff.mpr ⟨_, h, .cons (.nil _)⟩

end Runs

/-! ### Runs of composed programs -/

section Compose

variable {tr : List (Event Op Ans)} {p : Program Op Ans ε α} {f : α → Program Op Ans ε β}

/-- A run of a sequence either stays in the first program or completes it. -/
lemma after_bind_iff {q : Program Op Ans ε β} :
    After tr (p >>= f) q ↔ (∃ r, After tr p r ∧ q = r >>= f ∧ ∀ a, r ≠ .done a) ∨
      ∃ tr₁ tr₂ a, tr = tr₁ ++ tr₂ ∧ Returns p tr₁ a ∧ After tr₂ (f a) q := by
  induction p generalizing tr with
  | done a =>
    simp only [Program.done_bind, after_done_iff, Returns]
    constructor
    · intro h
      exact Or.inr ⟨[], tr, a, rfl, ⟨rfl, rfl⟩, h⟩
    · rintro (⟨r, ⟨_, rfl⟩, _, hr⟩ | ⟨tr₁, tr₂, b, rfl, ⟨rfl, hb⟩, h⟩)
      · exact absurd rfl (hr a)
      · cases hb
        exact h
  | fail e => simp [Returns]
  | op o next ih =>
    cases tr with
    | nil =>
      simp only [after_nil_iff, Returns]
      constructor
      · rintro rfl
        exact Or.inl ⟨.op o next, rfl, rfl, fun a h => by cases h⟩
      · rintro (⟨r, rfl, rfl, _⟩ | ⟨tr₁, tr₂, a, htr, h, h'⟩)
        · rfl
        · obtain ⟨rfl, rfl⟩ := List.append_eq_nil_iff.mp htr.symm
          cases h
    | cons e tr =>
      simp only [Program.op_bind, after_cons_iff, Returns]
      constructor
      · rintro ⟨next', hop, h⟩
        cases hop
        rcases (ih e.answer).mp h with ⟨r, h, hq, hr⟩ | ⟨tr₁, tr₂, a, rfl, h, h'⟩
        · exact Or.inl ⟨r, ⟨next, rfl, h⟩, hq, hr⟩
        · exact Or.inr ⟨e :: tr₁, tr₂, a, rfl, .cons h, h'⟩
      · rintro (⟨r, ⟨next', hop, h⟩, hq, hr⟩ | ⟨tr₁, tr₂, a, htr, h, h'⟩)
        · cases hop
          exact ⟨_, rfl, (ih e.answer).mpr (Or.inl ⟨r, h, hq, hr⟩)⟩
        · cases h with
          | cons h =>
            cases htr
            exact ⟨_, rfl, (ih _).mpr (Or.inr ⟨_, _, a, rfl, h, h'⟩)⟩

lemma returns_bind_iff {b : β} :
    Returns (p >>= f) tr b ↔
      ∃ tr₁ tr₂ a, tr = tr₁ ++ tr₂ ∧ Returns p tr₁ a ∧ Returns (f a) tr₂ b := by
  rw [Returns, after_bind_iff]
  constructor
  · rintro (⟨r, h, hq, hr⟩ | h)
    · cases r with
      | done a => exact absurd rfl (hr a)
      | fail e => cases hq
      | op o next => cases hq
    · exact h
  · exact Or.inr

lemma asks_bind_iff {o : Op} :
    Asks (p >>= f) tr o ↔
      Asks p tr o ∨ ∃ tr₁ tr₂ a, tr = tr₁ ++ tr₂ ∧ Returns p tr₁ a ∧ Asks (f a) tr₂ o := by
  simp only [Asks, after_bind_iff]
  constructor
  · rintro ⟨next, ⟨r, h, hq, hr⟩ | ⟨tr₁, tr₂, a, htr, h, h'⟩⟩
    · cases r with
      | done a => exact absurd rfl (hr a)
      | fail e => cases hq
      | op o' next' =>
        cases hq
        exact Or.inl ⟨next', h⟩
    · exact Or.inr ⟨tr₁, tr₂, a, htr, h, next, h'⟩
  · rintro (⟨next, h⟩ | ⟨tr₁, tr₂, a, htr, h, next, h'⟩)
    · exact ⟨_, Or.inl ⟨.op o next, h, rfl, fun a h => by cases h⟩⟩
    · exact ⟨next, Or.inr ⟨tr₁, tr₂, a, htr, h, h'⟩⟩

@[simp] lemma returns_done_iff {a b : α} :
    Returns (.done a : Program Op Ans ε α) tr b ↔ tr = [] ∧ b = a := by
  simp [Returns]

@[simp] lemma returns_fail_iff {e : ε} {a : α} :
    Returns (.fail e : Program Op Ans ε α) tr a ↔ False := by
  simp [Returns]

lemma returns_op_iff {o : Op} {next : Ans o → Program Op Ans ε α} {a : α} :
    Returns (.op o next) tr a ↔ ∃ x tr', tr = ⟨o, x⟩ :: tr' ∧ Returns (next x) tr' a := by
  simp [Returns, after_op_iff]

@[simp] lemma returns_ofExcept_iff {r : Except ε α} {a : α} :
    Returns (Program.ofExcept r : Program Op Ans ε α) tr a ↔ tr = [] ∧ r = .ok a := by
  cases r with
  | ok b => simp [Program.ofExcept, eq_comm]
  | error e => simp [Program.ofExcept]

@[simp] lemma asks_done_iff {a : α} {o : Op} :
    Asks (.done a : Program Op Ans ε α) tr o ↔ False := by
  simp [Asks]

@[simp] lemma asks_fail_iff {e : ε} {o : Op} :
    Asks (.fail e : Program Op Ans ε α) tr o ↔ False := by
  simp [Asks]

@[simp] lemma asks_ofExcept_iff {r : Except ε α} {o : Op} :
    Asks (Program.ofExcept r : Program Op Ans ε α) tr o ↔ False := by
  cases r <;> simp [Program.ofExcept]

lemma after_mapError_iff {g : ε → ε'} {q : Program Op Ans ε' α} :
    After tr (p.mapError g) q ↔ ∃ r, After tr p r ∧ q = r.mapError g := by
  induction p generalizing tr with
  | done a => simp [Program.mapError]
  | fail e => simp [Program.mapError]
  | op o next ih =>
    cases tr with
    | nil => simp [after_nil_iff, eq_comm]
    | cons e tr =>
      simp only [Program.mapError, after_cons_iff]
      constructor
      · rintro ⟨next', hop, h⟩
        cases hop
        obtain ⟨r, h, hq⟩ := (ih e.answer).mp h
        exact ⟨r, ⟨next, rfl, h⟩, hq⟩
      · rintro ⟨r, ⟨next', hop, h⟩, hq⟩
        cases hop
        exact ⟨_, rfl, (ih e.answer).mpr ⟨r, h, hq⟩⟩

@[simp] lemma returns_mapError_iff {g : ε → ε'} {a : α} :
    Returns (p.mapError g) tr a ↔ Returns p tr a := by
  rw [Returns, after_mapError_iff]
  constructor
  · rintro ⟨r, h, hr⟩
    cases r <;> cases hr
    exact h
  · intro h
    exact ⟨_, h, rfl⟩

lemma after_attempt_iff {q : Program Op Ans ε' (Except ε α)} :
    After tr (p.attempt : Program Op Ans ε' (Except ε α)) q ↔ ∃ r, After tr p r ∧ q = r.attempt := by
  induction p generalizing tr with
  | done a => simp [Program.attempt]
  | fail e => simp [Program.attempt]
  | op o next ih =>
    cases tr with
    | nil => simp [after_nil_iff, eq_comm]
    | cons e tr =>
      simp only [Program.attempt, after_cons_iff]
      constructor
      · rintro ⟨next', hop, h⟩
        cases hop
        obtain ⟨r, h, hq⟩ := (ih e.answer).mp h
        exact ⟨r, ⟨next, rfl, h⟩, hq⟩
      · rintro ⟨r, ⟨next', hop, h⟩, hq⟩
        cases hop
        exact ⟨_, rfl, (ih e.answer).mpr ⟨r, h, hq⟩⟩

/-- Along `tr` the program fails with `e`. -/
def Fails (p : Program Op Ans ε α) (tr : List (Event Op Ans)) (e : ε) : Prop := After tr p (.fail e)

/-- An attempt returns how the program ended. -/
lemma returns_attempt_iff {x : Except ε α} :
    Returns (p.attempt : Program Op Ans ε' (Except ε α)) tr x ↔
      (∃ a, Returns p tr a ∧ x = .ok a) ∨ ∃ e, Fails p tr e ∧ x = .error e := by
  rw [Returns, after_attempt_iff]
  constructor
  · rintro ⟨r, h, hr⟩
    cases r <;> cases hr
    · exact Or.inl ⟨_, h, rfl⟩
    · exact Or.inr ⟨_, h, rfl⟩
  · rintro (⟨a, h, rfl⟩ | ⟨e, h, rfl⟩)
    · exact ⟨_, h, rfl⟩
    · exact ⟨_, h, rfl⟩

/-- A sequence fails in its first program, or after it. -/
lemma fails_bind_iff {e : ε} : Fails (p >>= f) tr e ↔
    Fails p tr e ∨ ∃ tr₁ tr₂ a, tr = tr₁ ++ tr₂ ∧ Returns p tr₁ a ∧ Fails (f a) tr₂ e := by
  rw [Fails, after_bind_iff]
  constructor
  · rintro (⟨r, h, hq, hr⟩ | h)
    · cases r with
      | done a => exact absurd rfl (hr a)
      | fail e' =>
        cases hq
        exact Or.inl h
      | op o next => cases hq
    · exact Or.inr h
  · rintro (h | h)
    · exact Or.inl ⟨_, h, rfl, fun a hdone => by cases hdone⟩
    · exact Or.inr h

@[simp] lemma fails_done_iff {a : α} {e : ε} :
    Fails (.done a : Program Op Ans ε α) tr e ↔ False := by
  simp [Fails]

@[simp] lemma fails_fail_iff {e e' : ε} :
    Fails (.fail e : Program Op Ans ε α) tr e' ↔ tr = [] ∧ e' = e := by
  simp [Fails]

lemma fails_op_iff {o : Op} {next : Ans o → Program Op Ans ε α} {e : ε} :
    Fails (.op o next) tr e ↔ ∃ x tr', tr = ⟨o, x⟩ :: tr' ∧ Fails (next x) tr' e := by
  simp [Fails, after_op_iff]

@[simp] lemma fails_ofExcept_iff {r : Except ε α} {e : ε} :
    Fails (Program.ofExcept r : Program Op Ans ε α) tr e ↔ tr = [] ∧ r = .error e := by
  cases r with
  | ok a => simp [Program.ofExcept]
  | error e' => simp [Program.ofExcept, eq_comm]

lemma asks_attempt_iff {o : Op} :
    Asks (p.attempt : Program Op Ans ε' (Except ε α)) tr o ↔ Asks p tr o := by
  simp only [Asks, after_attempt_iff]
  constructor
  · rintro ⟨next, r, h, hr⟩
    cases r <;> cases hr
    exact ⟨_, h⟩
  · rintro ⟨next, h⟩
    exact ⟨_, _, h, rfl⟩

end Compose

/-! ### The operations a program may ask for -/

inductive AsksOnly (allowed : Op → Prop) : Program Op Ans ε α → Prop
  | done (a : α) : AsksOnly allowed (.done a)
  | fail (e : ε) : AsksOnly allowed (.fail e)
  | op {o : Op} {next : Ans o → Program Op Ans ε α} (ho : allowed o)
      (h : ∀ x, AsksOnly allowed (next x)) : AsksOnly allowed (.op o next)

section AsksOnly

variable {allowed : Op → Prop} {p : Program Op Ans ε α}

lemma AsksOnly.after {tr : List (Event Op Ans)} {q : Program Op Ans ε α}
    (hp : AsksOnly allowed p) (h : After tr p q) : AsksOnly allowed q := by
  induction h with
  | nil p => exact hp
  | cons _ ih =>
    cases hp with
    | op _ hnext => exact ih (hnext _)

lemma AsksOnly.asks {tr : List (Event Op Ans)} {o : Op} (hp : AsksOnly allowed p)
    (h : Asks p tr o) : allowed o := by
  obtain ⟨next, h⟩ := h
  cases hp.after h with
  | op ho _ => exact ho

lemma AsksOnly.mono {more : Op → Prop} (hp : AsksOnly allowed p) (h : ∀ o, allowed o → more o) :
    AsksOnly more p := by
  induction hp with
  | done a => exact .done a
  | fail e => exact .fail e
  | op ho _ ih => exact .op (h _ ho) ih

lemma AsksOnly.bind {f : α → Program Op Ans ε β} (hp : AsksOnly allowed p)
    (hf : ∀ a, AsksOnly allowed (f a)) : AsksOnly allowed (p >>= f) := by
  induction hp with
  | done a => exact hf a
  | fail e => exact .fail e
  | op ho _ ih => exact .op ho ih

/-- What comes after a program need only keep to the operations where the program can return. -/
lemma AsksOnly.bind_returns {f : α → Program Op Ans ε β} (hp : AsksOnly allowed p)
    (hf : ∀ tr a, Returns p tr a → AsksOnly allowed (f a)) : AsksOnly allowed (p >>= f) := by
  induction hp with
  | done a => exact hf [] a (.nil _)
  | fail e => exact .fail e
  | op ho _ ih => exact .op ho fun x => ih x fun tr a h => hf (⟨_, x⟩ :: tr) a (.cons h)

lemma AsksOnly.mapError {g : ε → ε'} (hp : AsksOnly allowed p) :
    AsksOnly allowed (p.mapError g) := by
  induction hp with
  | done a => exact .done a
  | fail e => exact .fail (g e)
  | op ho _ ih => exact .op ho ih

lemma AsksOnly.attempt (hp : AsksOnly allowed p) :
    AsksOnly allowed (p.attempt : Program Op Ans ε' (Except ε α)) := by
  induction hp with
  | done a => exact .done _
  | fail e => exact .done _
  | op ho _ ih => exact .op ho ih

lemma AsksOnly.ofExcept (r : Except ε α) :
    AsksOnly allowed (Program.ofExcept r : Program Op Ans ε α) := by
  cases r with
  | ok a => exact .done a
  | error e => exact .fail e

end AsksOnly

/-! ### Deterministic surroundings -/

/-- The events are answered as `env` says; an operation `env` has no answer for never returns. -/
def Follows (env : (o : Op) → Option (Ans o)) (tr : List (Event Op Ans)) : Prop :=
  ∀ e ∈ tr, env e.op = some e.answer

@[simp] lemma follows_nil {env : (o : Op) → Option (Ans o)} :
    Follows env ([] : List (Event Op Ans)) := by
  simp [Follows]

@[simp] lemma follows_cons_iff {env : (o : Op) → Option (Ans o)} {e : Event Op Ans}
    {tr : List (Event Op Ans)} :
    Follows env (e :: tr) ↔ env e.op = some e.answer ∧ Follows env tr := by
  simp [Follows]

section Answered

variable {env : (o : Op) → Ans o} {p : Program Op Ans ε α} {a : α}

/-- A program that ends well under `env` has a run that follows `env`. -/
lemma exists_returns_of_answered (h : p.answered env = .ok a) :
    ∃ tr, Returns p tr a ∧ Follows (fun o => some (env o)) tr := by
  induction p with
  | done b =>
    cases h
    exact ⟨[], .nil _, follows_nil⟩
  | fail e => cases h
  | op o next ih =>
    obtain ⟨tr, hreturns, hfollows⟩ := ih (env o) h
    exact ⟨⟨o, env o⟩ :: tr, .cons hreturns, follows_cons_iff.mpr ⟨rfl, hfollows⟩⟩

lemma answered_of_returns {tr : List (Event Op Ans)} (h : Returns p tr a)
    (hfollows : Follows (fun o => some (env o)) tr) : p.answered env = .ok a := by
  induction p generalizing tr with
  | done b =>
    rw [(returns_done_iff.mp h).2]
    rfl
  | fail e => exact (returns_fail_iff.mp h).elim
  | op o next ih =>
    obtain ⟨x, tr', rfl, hreturns⟩ := returns_op_iff.mp h
    obtain ⟨hx, hrest⟩ := follows_cons_iff.mp hfollows
    have heq : env o = x := Option.some.inj hx
    subst heq
    exact ih (env o) hreturns hrest

end Answered

end Interaction
