import Mathlib.Data.List.Infix

/-!
# Searching a list

The first place of a needle in a list, as a scan over windows finds it, and cutting a list at every
occurrence of a pair.
-/

namespace Search

variable {α : Type} [DecidableEq α]

/-- `windows(needle.len()).position(|w| w == needle)` -/
def position (needle : List α) : List α → Option Nat
  | [] => if needle = [] then some 0 else none
  | x :: xs => if needle <+: x :: xs then some 0 else (position needle xs).map (· + 1)

/-- The pieces between the occurrences of `a` followed by `b`, from the left. -/
def splitPair (a b : α) : List α → List (List α)
  | [] => [[]]
  | [x] => [[x]]
  | x :: y :: xs =>
    if x = a ∧ y = b then [] :: splitPair a b xs
    else match splitPair a b (y :: xs) with
      | [] => [[x]]
      | piece :: pieces => (x :: piece) :: pieces

/-! ### The first place -/

section Position

variable {needle xs ys : List α} {i : Nat}

lemma position_eq_some_iff : position needle xs = some i ↔
    i ≤ xs.length ∧ needle <+: xs.drop i ∧ ∀ j < i, ¬needle <+: xs.drop j := by
  induction xs generalizing i with
  | nil =>
    rw [position]
    split
    · rename_i h
      subst h
      constructor
      · intro hi
        cases hi
        exact ⟨le_rfl, List.nil_prefix, fun j hj => absurd hj (Nat.not_lt_zero j)⟩
      · rintro ⟨hle, -, -⟩
        rw [Nat.le_zero.mp hle]
    · rename_i h
      simp [h]
  | cons x xs ih =>
    rw [position]
    split
    · rename_i h
      constructor
      · intro hi
        cases hi
        exact ⟨Nat.zero_le _, h, fun j hj => absurd hj (Nat.not_lt_zero j)⟩
      · rintro ⟨-, -, hfirst⟩
        by_contra hne
        have hpos : 0 < i := Nat.pos_of_ne_zero fun hi => hne (by rw [hi])
        exact hfirst 0 hpos h
    · rename_i h
      rw [Option.map_eq_some_iff]
      constructor
      · rintro ⟨k, hk, rfl⟩
        obtain ⟨hle, hhere, hfirst⟩ := ih.mp hk
        refine ⟨Nat.succ_le_succ hle, hhere, fun j hj => ?_⟩
        cases j with
        | zero => exact h
        | succ j => exact hfirst j (Nat.lt_of_succ_lt_succ hj)
      · rintro ⟨hle, hhere, hfirst⟩
        cases i with
        | zero => exact absurd hhere h
        | succ k =>
          have hk : position needle xs = some k := by
            apply ih.mpr
            exact ⟨Nat.le_of_succ_le_succ hle, hhere, fun j hj => hfirst (j + 1) (Nat.succ_lt_succ hj)⟩
          exact ⟨k, hk, rfl⟩

lemma position_eq_none_iff : position needle xs = none ↔ ¬needle <:+: xs := by
  induction xs with
  | nil =>
    rw [position]
    split <;> simp_all
  | cons x xs ih =>
    rw [position, List.infix_cons_iff]
    split
    · rename_i h
      simp [h]
    · rename_i h
      simp [h, ih]

lemma position_isSome : (position needle xs).isSome = true ↔ needle <:+: xs := by
  rw [← Option.ne_none_iff_isSome, Ne, position_eq_none_iff, not_not]

/-- A place found stays where it is when the list grows, and a place that lies in the list is found
there. -/
lemma position_append_iff : position needle (xs ++ ys) = some i ∧ i + needle.length ≤ xs.length ↔
    position needle xs = some i := by
  have hhere : ∀ j, j + needle.length ≤ xs.length →
      (needle <+: (xs ++ ys).drop j ↔ needle <+: xs.drop j) := by
    intro j hj
    rw [List.drop_append_of_le_length (by omega)]
    apply List.isPrefix_append_of_length
    rw [List.length_drop]
    omega
  rw [position_eq_some_iff, position_eq_some_iff]
  constructor
  · rintro ⟨⟨-, hin, hfirst⟩, hfits⟩
    refine ⟨by omega, (hhere i hfits).mp hin, fun j hj hin' => ?_⟩
    exact hfirst j hj ((hhere j (by omega)).mpr hin')
  · rintro ⟨hle, hin, hfirst⟩
    have hlen := hin.length_le
    rw [List.length_drop] at hlen
    have hfits : i + needle.length ≤ xs.length := by omega
    refine ⟨⟨?_, (hhere i hfits).mpr hin, fun j hj hin' => ?_⟩, hfits⟩
    · rw [List.length_append]
      omega
    · exact hfirst j hj ((hhere j (by omega)).mp hin')

lemma position_append (h : position needle xs = some i) (ys : List α) :
    position needle (xs ++ ys) = some i :=
  (position_append_iff.mpr h).1

/-- What stands in front of the first place, the needle, and the rest. -/
lemma cut_at_position (h : position needle xs = some i) : ∃ rest, xs = xs.take i ++ needle ++ rest := by
  obtain ⟨rest, hrest⟩ := (position_eq_some_iff.mp h).2.1
  refine ⟨rest, ?_⟩
  rw [List.append_assoc, hrest, List.take_append_drop]

lemma position_fits (h : position needle xs = some i) : i + needle.length ≤ xs.length :=
  (position_append_iff.mpr h : position needle (xs ++ []) = some i ∧ _).2

end Position

/-! ### Needles and separators -/

omit [DecidableEq α] in
/-- A needle without the separator lies on one side of it. -/
lemma infix_append_cons_iff {a : α} {needle xs ys : List α} (hne : needle ≠ []) (ha : a ∉ needle) :
    needle <:+: xs ++ a :: ys ↔ needle <:+: xs ∨ needle <:+: ys := by
  constructor
  · rintro ⟨pre, post, h⟩
    rw [List.append_assoc, List.append_eq_append_iff] at h
    rcases h with ⟨mid, hxs, hmid⟩ | ⟨mid, hpre, hmid⟩
    · rcases List.append_eq_append_iff.mp hmid with ⟨tail, hmid', -⟩ | ⟨tail, hneedle, htail⟩
      · exact Or.inl ⟨pre, tail, by rw [hxs, hmid', List.append_assoc]⟩
      · cases tail with
        | nil => exact Or.inl ⟨pre, [], by rw [hneedle, hxs]; simp⟩
        | cons c tail =>
          obtain ⟨rfl, -⟩ := List.cons.inj htail
          exact absurd (hneedle ▸ by simp) ha
    · cases mid with
      | nil =>
        cases needle with
        | nil => exact absurd rfl hne
        | cons c needle =>
          obtain ⟨rfl, -⟩ := List.cons.inj hmid
          exact absurd List.mem_cons_self ha
      | cons c mid =>
        obtain ⟨-, hys⟩ := List.cons.inj hmid
        exact Or.inr ⟨mid, post, by rw [hys, List.append_assoc]; rfl⟩
  · rintro (h | h)
    · exact h.trans (List.prefix_append _ _).isInfix
    · exact h.trans ((List.suffix_cons a ys).trans (List.suffix_append xs _)).isInfix

omit [DecidableEq α] in
/-- A needle does not begin in a part without its first element. -/
lemma infix_append_iff_of_not_mem {a : α} {v xs ys : List α} (h : a ∉ xs) :
    a :: v <:+: xs ++ ys ↔ a :: v <:+: ys := by
  induction xs with
  | nil => rw [List.nil_append]
  | cons x xs ih =>
    obtain ⟨hx, hxs⟩ := not_or.mp (fun hmem => h (List.mem_cons.mpr hmem))
    rw [List.cons_append, List.infix_cons_iff, ih hxs]
    constructor
    · rintro (hpre | hin)
      · exact absurd (List.cons_prefix_cons.mp hpre).1 hx
      · exact hin
    · exact Or.inr

omit [DecidableEq α] in
/-- A list is cut at the first separator in one way. -/
lemma cut_unique {a : α} {xs xs' ys ys' : List α} (hxs : a ∉ xs) (hxs' : a ∉ xs')
    (h : xs ++ a :: ys = xs' ++ a :: ys') : xs = xs' ∧ ys = ys' := by
  rcases List.append_eq_append_iff.mp h with ⟨mid, rfl, hmid⟩ | ⟨mid, rfl, hmid⟩
  · cases mid with
    | nil => exact ⟨(List.append_nil _).symm, (List.cons.inj hmid).2⟩
    | cons c mid =>
      obtain ⟨rfl, -⟩ := List.cons.inj hmid
      exact absurd (List.mem_append_right _ List.mem_cons_self) hxs'
  · cases mid with
    | nil => exact ⟨List.append_nil _, (List.cons.inj hmid).2.symm⟩
    | cons c mid =>
      obtain ⟨rfl, -⟩ := List.cons.inj hmid
      exact absurd (List.mem_append_right _ List.mem_cons_self) hxs

omit [DecidableEq α] in
/-- A needle with one separator lies around the first one, or behind it. -/
lemma infix_around_iff {a : α} {u xs : List α} (hu : a ∉ u) (hxs : a ∉ xs) (v ys : List α) :
    u ++ a :: v <:+: xs ++ a :: ys ↔ (u <:+ xs ∧ v <+: ys) ∨ u ++ a :: v <:+: ys := by
  constructor
  · rintro ⟨pre, post, h⟩
    rw [List.append_assoc, List.append_assoc, List.cons_append] at h
    by_cases hpre : a ∈ pre
    · obtain ⟨before, after, rfl, hbefore⟩ := List.eq_append_cons_of_mem hpre
      rw [List.append_assoc, List.cons_append] at h
      obtain ⟨-, hys⟩ := cut_unique hbefore hxs h
      exact Or.inr ⟨after, post, by rw [← hys]; simp⟩
    · rw [← List.append_assoc] at h
      have hfirst : a ∉ pre ++ u := by simp [hpre, hu]
      obtain ⟨hxs', hys⟩ := cut_unique hfirst hxs h
      exact Or.inl ⟨⟨pre, hxs'⟩, ⟨post, hys⟩⟩
  · rintro (⟨⟨pre, rfl⟩, ⟨post, rfl⟩⟩ | h)
    · exact ⟨pre, post, by simp⟩
    · exact h.trans ((List.suffix_cons a ys).trans (List.suffix_append xs _)).isInfix

section Pair

variable {a b : α} {l rest : List α}

omit [DecidableEq α] in
/-- No pair begins before the one that ends the piece. -/
lemma not_prefix_drop (hab : a ≠ b) (h : ¬[a, b] <:+: l) {j : Nat} (hj : j < l.length) :
    ¬[a, b] <+: (l ++ a :: b :: rest).drop j := by
  intro hpair
  rw [List.drop_append_of_le_length hj.le] at hpair
  obtain ⟨x, hx⟩ : ∃ x, l.drop j = x := ⟨_, rfl⟩
  have hlen : x.length = l.length - j := by rw [← hx, List.length_drop]
  rw [hx] at hpair
  match x, hx, hpair with
  | [], hx, _ => simp at hlen; omega
  | [y], _, hpair =>
    obtain ⟨rest', hrest⟩ := hpair
    simp only [List.cons_append, List.nil_append, List.cons.injEq] at hrest
    exact hab hrest.2.1.symm
  | y :: z :: x, hx, hpair =>
    obtain ⟨rest', hrest⟩ := hpair
    simp only [List.cons_append, List.nil_append, List.cons.injEq] at hrest
    obtain ⟨rfl, rfl, -⟩ := hrest
    apply h
    have hpre : [a, b] <+: l.drop j := ⟨x, hx.symm⟩
    exact hpre.isInfix.trans (List.drop_suffix j l).isInfix

lemma position_pair (hab : a ≠ b) (h : ¬[a, b] <:+: l) :
    position [a, b] (l ++ a :: b :: rest) = some l.length := by
  apply position_eq_some_iff.mpr
  refine ⟨?_, ?_, fun j hj => not_prefix_drop hab h hj⟩
  · rw [List.length_append]
    omega
  · rw [List.drop_left]
    exact ⟨rest, rfl⟩

/-- Where nothing begins in front, the rest is searched. -/
lemma position_append_right {front rest : List α}
    (h : ∀ j < front.length, ¬needle <+: (front ++ rest).drop j) :
    position needle (front ++ rest) = (position needle rest).map (· + front.length) := by
  have hafter : ∀ j, (front ++ rest).drop (j + front.length) = rest.drop j := by
    intro j
    rw [Nat.add_comm, ← List.drop_drop, List.drop_left]
  ext i
  rw [Option.map_eq_some_iff, position_eq_some_iff]
  constructor
  · rintro ⟨hle, hhere, hfirst⟩
    have hge : front.length ≤ i := by
      by_contra hlt
      exact h i (by omega) hhere
    obtain ⟨k, rfl⟩ := Nat.exists_eq_add_of_le' hge
    rw [hafter] at hhere
    refine ⟨k, position_eq_some_iff.mpr ⟨?_, hhere, fun j hj hj' => ?_⟩, rfl⟩
    · rw [List.length_append] at hle
      omega
    · exact hfirst (j + front.length) (by omega) (by rwa [hafter])
  · rintro ⟨k, hk, rfl⟩
    obtain ⟨hle, hhere, hfirst⟩ := position_eq_some_iff.mp hk
    refine ⟨?_, by rwa [hafter], fun j hj hj' => ?_⟩
    · rw [List.length_append]
      omega
    · by_cases hin : j < front.length
      · exact h j hin hj'
      · obtain ⟨m, rfl⟩ := Nat.exists_eq_add_of_le' (Nat.le_of_not_lt hin)
        rw [hafter] at hj'
        exact hfirst m (by omega) hj'

/-- Two pairs in a row are not found before the end of a piece that another piece follows. -/
lemma position_two_pairs (hab : a ≠ b) (h : ¬[a, b] <:+: l) (hnext : ¬[a, b] <+: rest) :
    position [a, b, a, b] (l ++ a :: b :: rest) =
      (position [a, b, a, b] rest).map (· + (l.length + 2)) := by
  have hpiece : l ++ a :: b :: rest = l ++ [a, b] ++ rest := by
    rw [List.append_assoc]
    rfl
  have hlength : (l ++ [a, b]).length = l.length + 2 := List.length_append
  rw [hpiece, ← hlength]
  apply position_append_right
  intro j hj hhere
  rw [hlength] at hj
  rw [← hpiece] at hhere
  by_cases hin : j < l.length
  · exact not_prefix_drop hab h hin ((List.prefix_append [a, b] [a, b]).trans hhere)
  · rw [List.drop_append, List.drop_eq_nil_of_le (by omega), List.nil_append] at hhere
    obtain hzero | hone : j - l.length = 0 ∨ j - l.length = 1 := by omega
    · rw [hzero, List.drop_zero] at hhere
      simp only [List.cons_prefix_cons, true_and] at hhere
      exact hnext hhere
    · rw [hone] at hhere
      simp only [List.drop_succ_cons, List.drop_zero, List.cons_prefix_cons] at hhere
      exact hab hhere.1

/-! ### The pieces -/

lemma splitPair_ne_nil (a b : α) (xs : List α) : splitPair a b xs ≠ [] := by
  cases xs with
  | nil => simp [splitPair]
  | cons x xs =>
    cases xs with
    | nil => simp [splitPair]
    | cons y xs =>
      rw [splitPair]
      split
      · simp
      · split <;> simp

lemma splitPair_cons {x y : α} {xs : List α} (h : ¬(x = a ∧ y = b)) {piece : List α}
    {pieces : List (List α)} (hrest : splitPair a b (y :: xs) = piece :: pieces) :
    splitPair a b (x :: y :: xs) = (x :: piece) :: pieces := by
  rw [splitPair, if_neg h, hrest]

lemma splitPair_append (hab : a ≠ b) (h : ¬[a, b] <:+: l) :
    splitPair a b (l ++ a :: b :: rest) = l :: splitPair a b rest := by
  induction l with
  | nil => simp [splitPair]
  | cons x l ih =>
    have hl : ¬[a, b] <:+: l := fun hin => h (hin.trans (List.suffix_cons x l).isInfix)
    cases l with
    | nil =>
      apply splitPair_cons
      · rintro ⟨-, hb⟩
        exact hab hb
      · exact ih hl
    | cons y l =>
      apply splitPair_cons
      · rintro ⟨rfl, rfl⟩
        exact h ⟨[], l, rfl⟩
      · exact ih hl

lemma splitPair_single (h : ¬[a, b] <:+: l) : splitPair a b l = [l] := by
  induction l with
  | nil => rfl
  | cons x l ih =>
    have hl : ¬[a, b] <:+: l := fun hin => h (hin.trans (List.suffix_cons x l).isInfix)
    cases l with
    | nil => rfl
    | cons y l =>
      apply splitPair_cons
      · rintro ⟨rfl, rfl⟩
        exact h ⟨[], l, rfl⟩
      · exact ih hl

/-! ### Lines -/

lemma splitPair_intercalate (hab : a ≠ b) {lines : List (List α)} (hne : lines ≠ [])
    (h : ∀ l ∈ lines, ¬[a, b] <:+: l) : splitPair a b ([a, b].intercalate lines) = lines := by
  induction lines with
  | nil => exact absurd rfl hne
  | cons l lines ih =>
    have hl := h l List.mem_cons_self
    cases lines with
    | nil =>
      rw [List.intercalate_singleton]
      exact splitPair_single hl
    | cons l' lines =>
      have hrest := ih (by simp) (fun m hm => h m (List.mem_cons_of_mem _ hm))
      rw [List.intercalate_cons_cons]
      simp only [List.append_assoc, List.cons_append, List.nil_append]
      rw [splitPair_append hab hl, hrest]

omit [DecidableEq α] in
/-- A line does not begin with the pair, unless it is empty. -/
lemma not_prefix_line (hab : a ≠ b) (hne : l ≠ []) (h : ¬[a, b] <:+: l) :
    ¬[a, b] <+: l ++ a :: b :: rest := by
  have hpos : 0 < l.length := List.length_pos_iff.mpr hne
  have hnot : ¬[a, b] <+: (l ++ a :: b :: rest).drop 0 := not_prefix_drop hab h hpos
  rwa [List.drop_zero] at hnot

/-- The blank line after some lines is where two pairs are found first. -/
lemma position_blank_line (hab : a ≠ b) {lines : List (List α)} (hne : lines ≠ [])
    (h : ∀ l ∈ lines, l ≠ [] ∧ ¬[a, b] <:+: l) :
    position [a, b, a, b] ([a, b].intercalate lines ++ a :: b :: a :: b :: rest) =
      some ([a, b].intercalate lines).length := by
  induction lines with
  | nil => exact absurd rfl hne
  | cons l lines ih =>
    obtain ⟨-, hl⟩ := h l List.mem_cons_self
    cases lines with
    | nil =>
      rw [List.intercalate_singleton]
      apply position_eq_some_iff.mpr
      refine ⟨?_, ?_, fun j hj hpair => ?_⟩
      · rw [List.length_append]
        omega
      · rw [List.drop_left]
        exact ⟨rest, rfl⟩
      · have hfirst : [a, b] <+: [a, b, a, b] := List.prefix_append [a, b] [a, b]
        exact not_prefix_drop hab hl hj (hfirst.trans hpair)
    | cons l' lines =>
      obtain ⟨hl', hpair'⟩ := h l' (List.mem_cons_of_mem _ List.mem_cons_self)
      have hrest := ih (by simp) (fun m hm => h m (List.mem_cons_of_mem _ hm))
      have hnext : ¬[a, b] <+:
          [a, b].intercalate (l' :: lines) ++ a :: b :: a :: b :: rest := by
        cases lines with
        | nil =>
          rw [List.intercalate_singleton]
          exact not_prefix_line hab hl' hpair'
        | cons l'' lines =>
          rw [List.intercalate_cons_cons]
          simp only [List.append_assoc, List.cons_append, List.nil_append]
          exact not_prefix_line hab hl' hpair'
      have hcut : [a, b].intercalate (l :: l' :: lines) ++ a :: b :: a :: b :: rest =
          l ++ a :: b :: ([a, b].intercalate (l' :: lines) ++ a :: b :: a :: b :: rest) := by
        rw [List.intercalate_cons_cons]
        simp only [List.append_assoc, List.cons_append, List.nil_append]
      rw [hcut, position_two_pairs hab hl hnext, hrest, List.intercalate_cons_cons]
      simp only [Option.map_some, List.length_append, List.length_cons, List.length_nil]
      congr 1
      omega

/-- The first piece of a list begins where the list does. -/
lemma head_splitPair {x : α} {xs piece : List α} {pieces : List (List α)}
    (h : splitPair a b (x :: xs) = piece :: pieces) : piece = [] ∨ ∃ tail, piece = x :: tail := by
  cases xs with
  | nil =>
    cases h
    exact Or.inr ⟨[], rfl⟩
  | cons y xs =>
    by_cases hpair : x = a ∧ y = b
    · rw [splitPair, if_pos hpair] at h
      exact Or.inl (List.cons.inj h).1.symm
    · obtain ⟨first, others, hrest⟩ := List.exists_cons_of_ne_nil (splitPair_ne_nil a b (y :: xs))
      rw [splitPair_cons hpair hrest] at h
      exact Or.inr ⟨first, (List.cons.inj h).1.symm⟩

/-- The first piece ends where the pair is found first. -/
lemma head?_splitPair (xs : List α) :
    (splitPair a b xs).head? = some (xs.take ((position [a, b] xs).getD xs.length)) := by
  induction xs using splitPair.induct a b with
  | case1 => rfl
  | case2 x => simp [splitPair, position]
  | case3 x y xs hpair ih =>
    obtain ⟨rfl, rfl⟩ := hpair
    simp [splitPair, position]
  | case4 x y xs hpair hnil ih => exact absurd hnil (splitPair_ne_nil a b (y :: xs))
  | case5 x y xs hpair first others hrest ih =>
    have hnot : ¬[a, b] <+: x :: y :: xs := by
      intro hpre
      simp only [List.cons_prefix_cons] at hpre
      exact hpair ⟨hpre.1.symm, hpre.2.1.symm⟩
    rw [hrest, List.head?_cons, Option.some.injEq] at ih
    rw [splitPair_cons hpair hrest, List.head?_cons, position, if_neg hnot, ih]
    cases position [a, b] (y :: xs) <;> rfl

/-- No piece holds the pair. -/
lemma not_infix_of_mem_splitPair {xs piece : List α} (h : piece ∈ splitPair a b xs) :
    ¬[a, b] <:+: piece := by
  have hshort : ∀ ys : List α, ys.length < 2 → ¬[a, b] <:+: ys := by
    intro ys hlt hin
    have hle := hin.length_le
    simp only [List.length_cons, List.length_nil] at hle
    omega
  induction xs using splitPair.induct a b generalizing piece with
  | case1 =>
    rw [splitPair, List.mem_singleton] at h
    exact hshort piece (by simp [h])
  | case2 x =>
    rw [splitPair, List.mem_singleton] at h
    exact hshort piece (by simp [h])
  | case3 x y xs hpair ih =>
    rw [splitPair, if_pos hpair, List.mem_cons] at h
    rcases h with rfl | h
    · exact hshort [] (by simp)
    · exact ih h
  | case4 x y xs hpair hnil ih => exact absurd hnil (splitPair_ne_nil a b (y :: xs))
  | case5 x y xs hpair first others hrest ih =>
    rw [splitPair_cons hpair hrest, List.mem_cons] at h
    rcases h with rfl | h
    · rw [List.infix_cons_iff]
      rintro (hpre | hin)
      · obtain ⟨rfl, hb⟩ := List.cons_prefix_cons.mp hpre
        rcases head_splitPair hrest with rfl | ⟨tail, rfl⟩
        · simp at hb
        · exact hpair ⟨rfl, (List.cons_prefix_cons.mp hb).1.symm⟩
      · exact ih (hrest ▸ List.mem_cons_self) hin
    · exact ih (hrest ▸ List.mem_cons_of_mem _ h)

end Pair

end Search
