import Mathlib.Logic.Function.Basic
import Mathlib.Data.List.Induction
import Mathlib.Order.Defs.PartialOrder

/-!
# Tables that forget expired values when they are used

Every use of the table first drops the values that are not fresh any more. What such a table
answers is what a table answers that drops nothing and looks at the clock.
-/

namespace Expiry

/-- When a value is fresh. It is never fresh again once it was not. -/
structure Freshness (τ ν : Type*) [Preorder τ] where
  fresh : τ → ν → Bool
  before : ∀ {t t' : τ} {v : ν}, t ≤ t' → fresh t' v = true → fresh t v = true

abbrev Table (κ ν : Type*) := κ → Option ν

/-- How a table is used; reading it leaves it alone. -/
inductive Use (κ ν : Type*)
  | put (k : κ) (v : ν)
  | drop (k : κ)
  | read

variable {κ ν τ : Type*}

/-- The key whose entry the use decides. -/
def Use.key : Use κ ν → Option κ
  | .put k _ => some k
  | .drop k => some k
  | .read => none

lemma snoc_eq_append_cons_iff {α : Type*} {xs earlier later : List α} {a x : α} :
    xs ++ [a] = earlier ++ x :: later ↔
      (later = [] ∧ earlier = xs ∧ x = a) ∨
        ∃ later', later = later' ++ [a] ∧ xs = earlier ++ x :: later' := by
  constructor
  · intro h
    cases later using List.reverseRecOn with
    | nil =>
      obtain ⟨hxs, hx⟩ := List.append_inj' h rfl
      exact Or.inl ⟨rfl, hxs.symm, (List.cons.inj hx).1.symm⟩
    | append_singleton later' b =>
      rw [← List.cons_append, ← List.append_assoc] at h
      obtain ⟨hxs, hb⟩ := List.append_inj' h rfl
      exact Or.inr ⟨later', by rw [(List.cons.inj hb).1], hxs⟩
  · rintro (⟨rfl, rfl, rfl⟩ | ⟨later', rfl, rfl⟩)
    · rfl
    · simp

variable [Preorder τ] (F : Freshness τ ν)

/-- Drop what is not fresh at `t`. -/
def collect (t : τ) (m : Table κ ν) : Table κ ν := fun k => (m k).filter (F.fresh t)

lemma collect_eq_some_iff {t : τ} {m : Table κ ν} {k : κ} {v : ν} :
    collect F t m k = some v ↔ m k = some v ∧ F.fresh t v = true := Option.filter_eq_some_iff

lemma collect_collect {t t' : τ} (h : t ≤ t') (m : Table κ ν) :
    collect F t' (collect F t m) = collect F t' m := by
  funext k
  unfold collect
  cases hk : m k with
  | none => rfl
  | some v =>
    cases hfresh : F.fresh t' v with
    | true => simp [Option.filter, F.before h hfresh, hfresh]
    | false => cases hold : F.fresh t v <;> simp [Option.filter, hold, hfresh]

section Runs

variable [DecidableEq κ]

def Use.apply (m : Table κ ν) : Use κ ν → Table κ ν
  | .put k v => Function.update m k (some v)
  | .drop k => Function.update m k none
  | .read => m

lemma Use.apply_of_ne (m : Table κ ν) {u : Use κ ν} {k : κ} (h : u.key ≠ some k) :
    u.apply m k = m k := by
  cases u with
  | put l v => exact Function.update_of_ne (fun hkl => h (congrArg some hkl.symm)) _ _
  | drop l => exact Function.update_of_ne (fun hkl => h (congrArg some hkl.symm)) _ _
  | read => rfl

lemma Use.apply_congr {m m' : Table κ ν} {u : Use κ ν} {k : κ} (h : u.key = some k) :
    u.apply m k = u.apply m' k := by
  cases u with
  | put l v =>
    cases h
    simp [Use.apply]
  | drop l =>
    cases h
    simp [Use.apply]
  | read => cases h

lemma Use.eq_put_of_apply {m : Table κ ν} {u : Use κ ν} {k : κ} {v : ν} (h : u.key = some k)
    (hv : u.apply m k = some v) : u = .put k v := by
  cases u with
  | put l w =>
    cases h
    simp only [Use.apply, Function.update_self, Option.some.injEq] at hv
    rw [hv]
  | drop l =>
    cases h
    simp [Use.apply] at hv
  | read => cases h

/-- What a table holds that forgets nothing. -/
def kept (uses : List (Use κ ν)) : Table κ ν := uses.foldl Use.apply (fun _ => none)

lemma kept_snoc (uses : List (Use κ ν)) (u : Use κ ν) : kept (uses ++ [u]) = u.apply (kept uses) := by
  simp [kept]

/-- It holds what was put last and not dropped since. -/
theorem kept_eq_some_iff {uses : List (Use κ ν)} {k : κ} {v : ν} :
    kept uses k = some v ↔
      ∃ earlier later, uses = earlier ++ .put k v :: later ∧ ∀ u ∈ later, u.key ≠ some k := by
  induction uses using List.reverseRecOn with
  | nil => simp [kept]
  | append_singleton uses u ih =>
    simp only [kept_snoc, snoc_eq_append_cons_iff]
    by_cases hu : u.key = some k
    · -- the last use decides
      constructor
      · intro h
        exact ⟨uses, [], Or.inl ⟨rfl, rfl, (Use.eq_put_of_apply hu h).symm⟩, by simp⟩
      · rintro ⟨earlier, later, ⟨rfl, rfl, rfl⟩ | ⟨later, rfl, rfl⟩, hlater⟩
        · simp [Use.apply]
        · exact absurd hu (hlater u (by simp))
    · rw [Use.apply_of_ne _ hu, ih]
      constructor
      · rintro ⟨earlier, later, rfl, hlater⟩
        refine ⟨earlier, later ++ [u], Or.inr ⟨later, rfl, rfl⟩, fun w hw => ?_⟩
        rcases List.mem_append.mp hw with hw | hw
        · exact hlater w hw
        · rw [List.mem_singleton.mp hw]
          exact hu
      · rintro ⟨earlier, later, ⟨rfl, rfl, rfl⟩ | ⟨later, rfl, rfl⟩, hlater⟩
        · exact absurd rfl hu
        · exact ⟨earlier, later, rfl, fun w hw => hlater w (by simp [hw])⟩

theorem kept_map_eq_some_iff {α : Type*} {f : α → Use κ ν} {xs : List α} {k : κ} {v : ν} :
    kept (xs.map f) k = some v ↔ ∃ earlier x later, xs = earlier ++ x :: later ∧ f x = .put k v ∧
      ∀ y ∈ later, (f y).key ≠ some k := by
  rw [kept_eq_some_iff]
  constructor
  · rintro ⟨earlier, later, heq, hlater⟩
    obtain ⟨xs₁, xs₂, rfl, rfl, hcons⟩ := List.map_eq_append_iff.mp heq
    obtain ⟨x, xs₃, rfl, hx, rfl⟩ := List.map_eq_cons_iff.mp hcons
    exact ⟨xs₁, x, xs₃, rfl, hx, fun y hy => hlater (f y) (List.mem_map_of_mem hy)⟩
  · rintro ⟨earlier, x, later, rfl, hx, hlater⟩
    refine ⟨earlier.map f, later.map f, by simp [hx], fun u hu => ?_⟩
    obtain ⟨y, hy, rfl⟩ := List.mem_map.mp hu
    exact hlater y hy

/-- The entry of a key is the work of the uses of that key. -/
theorem kept_map_filter {α : Type*} {f : α → Use κ ν} {p : α → Bool} {k : κ}
    (h : ∀ x, (f x).key = some k → p x = true) (xs : List α) :
    kept ((xs.filter p).map f) k = kept (xs.map f) k := by
  induction xs using List.reverseRecOn with
  | nil => rfl
  | append_singleton xs x ih =>
    rw [List.filter_append, List.map_append, List.map_append, List.map_singleton, kept_snoc]
    by_cases hx : (f x).key = some k
    · rw [List.filter_cons_of_pos (h x hx), List.filter_nil, List.map_singleton, kept_snoc]
      exact Use.apply_congr hx
    · rw [Use.apply_of_ne _ hx, ← ih]
      cases hp : p x with
      | true =>
        rw [List.filter_cons_of_pos hp, List.filter_nil, List.map_singleton, kept_snoc,
          Use.apply_of_ne _ hx]
      | false =>
        rw [List.filter_cons_of_neg (by simp [hp]), List.filter_nil, List.map_nil, List.append_nil]

/-- The table after uses at their times. -/
def run (uses : List (τ × Use κ ν)) : Table κ ν :=
  uses.foldl (fun m e => e.2.apply (collect F e.1 m)) (fun _ => none)

lemma run_snoc (uses : List (τ × Use κ ν)) (t : τ) (u : Use κ ν) :
    run F (uses ++ [(t, u)]) = u.apply (collect F t (run F uses)) := by
  simp [run]

/-- What is fresh in the table is what is fresh of all that was put and not dropped. -/
theorem collect_run (uses : List (τ × Use κ ν)) {t : τ}
    (h : (uses.map Prod.fst ++ [t]).Pairwise (· ≤ ·)) :
    collect F t (run F uses) = collect F t (kept (uses.map Prod.snd)) := by
  induction uses using List.reverseRecOn generalizing t with
  | nil => rfl
  | append_singleton uses e ih =>
    obtain ⟨t₁, u⟩ := e
    rw [List.map_append, List.map_singleton] at h
    have hle : t₁ ≤ t := (List.pairwise_append.mp h).2.2 t₁ (by simp) t (by simp)
    have hrun := ih (List.pairwise_append.mp h).1
    rw [List.map_append, List.map_singleton, kept_snoc, run_snoc, hrun]
    funext k
    by_cases hu : u.key = some k
    · unfold collect
      rw [Use.apply_congr hu]
    · have hk := congrFun (collect_collect F hle (kept (uses.map Prod.snd))) k
      unfold collect at hk ⊢
      rw [Use.apply_of_ne _ hu, Use.apply_of_ne _ hu]
      exact hk

end Runs

/-! ### Sweeps

A table may also be left alone while values are put into it, and swept from time to time. -/

/-- What happens to a table that is swept. -/
inductive Move (κ ν : Type*)
  | put (k : κ) (v : ν)
  | sweep (keep : ν → Bool)

section Sweeps

variable [DecidableEq κ]

def Move.apply (m : Table κ ν) : Move κ ν → Table κ ν
  | .put k v => Function.update m k (some v)
  | .sweep keep => fun k => (m k).filter keep

/-- The move does not take `v` away from `k`. -/
def Move.Spares (k : κ) (v : ν) : Move κ ν → Prop
  | .put l _ => l ≠ k
  | .sweep keep => keep v = true

def swept (moves : List (Move κ ν)) : Table κ ν := moves.foldl Move.apply (fun _ => none)

lemma swept_append (as bs : List (Move κ ν)) : swept (as ++ bs) = bs.foldl Move.apply (swept as) :=
  List.foldl_append

lemma Move.apply_eq_some_iff (m : Table κ ν) (a : Move κ ν) (k : κ) (v : ν) :
    a.apply m k = some v ↔ a = .put k v ∨ (m k = some v ∧ a.Spares k v) := by
  cases a with
  | put l w =>
    by_cases hl : l = k
    · subst hl
      simp [apply, Spares]
    · have hne : k ≠ l := fun h => hl h.symm
      simp [apply, Spares, hl, Function.update_of_ne hne]
  | sweep keep => simp [apply, Spares, Option.filter_eq_some_iff]

/-- A swept table holds what was put and neither replaced nor swept since. -/
theorem swept_eq_some_iff {moves : List (Move κ ν)} {k : κ} {v : ν} :
    swept moves k = some v ↔
      ∃ earlier later, moves = earlier ++ .put k v :: later ∧ ∀ a ∈ later, a.Spares k v := by
  induction moves using List.reverseRecOn with
  | nil => simp [swept]
  | append_singleton moves a ih =>
    simp only [swept_append, List.foldl_cons, List.foldl_nil, Move.apply_eq_some_iff, ih,
      snoc_eq_append_cons_iff]
    constructor
    · rintro (rfl | ⟨⟨earlier, later, rfl, hlater⟩, ha⟩)
      · exact ⟨moves, [], Or.inl ⟨rfl, rfl, rfl⟩, by simp⟩
      · refine ⟨earlier, later ++ [a], Or.inr ⟨later, rfl, rfl⟩, fun b hb => ?_⟩
        rcases List.mem_append.mp hb with hb | hb
        · exact hlater b hb
        · rw [List.mem_singleton.mp hb]
          exact ha
    · rintro ⟨earlier, later, ⟨rfl, rfl, rfl⟩ | ⟨later, rfl, rfl⟩, hlater⟩
      · exact Or.inl rfl
      · exact Or.inr ⟨⟨earlier, later, rfl, fun b hb => hlater b (by simp [hb])⟩, hlater a (by simp)⟩

end Sweeps

end Expiry
