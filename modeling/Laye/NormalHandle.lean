import Mathlib
import Laye.Resolve

/-!
# Normal handles

What `normalize_handle` leaves of a text, and what a second round would make of that. The lemmas on
ASCII casing come with the whole of Mathlib only.
-/

namespace Laye

namespace Str

section Trimming

variable {p : Char → Bool} {c : Char}

lemma mem_dropWhile_iff {cs : List Char} (hc : p c = false) : c ∈ cs.dropWhile p ↔ c ∈ cs := by
  constructor
  · exact fun h => (List.dropWhile_suffix p).subset h
  · intro h
    rw [← List.takeWhile_append_dropWhile (p := p) (l := cs), List.mem_append] at h
    rcases h with h | h
    · rw [List.mem_takeWhile_imp h] at hc
      cases hc
    · exact h

lemma mem_rdropWhile_iff {cs : List Char} (hc : p c = false) : c ∈ cs.rdropWhile p ↔ c ∈ cs := by
  rw [List.rdropWhile, List.mem_reverse, mem_dropWhile_iff hc, List.mem_reverse]

lemma dropWhile_of_head {cs : List Char} (h : ∀ c ∈ cs.head?, p c = false) : cs.dropWhile p = cs := by
  cases cs with
  | nil => rfl
  | cons c cs => rw [List.dropWhile_cons_of_neg (by simp [h c rfl])]

lemma rdropWhile_of_last {cs : List Char} (h : ∀ c ∈ cs.getLast?, p c = false) :
    cs.rdropWhile p = cs := by
  rw [List.rdropWhile_eq_self_iff]
  intro hne
  simp [h _ (List.getLast?_eq_some_getLast hne)]

lemma head_dropWhile {cs : List Char} (h : c ∈ (cs.dropWhile p).head?) : p c = false := by
  have hnot := List.head?_dropWhile_not p cs
  rw [Option.mem_def.mp h] at hnot
  simpa using hnot

lemma last_rdropWhile {cs : List Char} (h : c ∈ (cs.rdropWhile p).getLast?) : p c = false := by
  rw [List.rdropWhile, List.getLast?_reverse] at h
  exact head_dropWhile h

end Trimming

/-- Lower-casing changes letters only, and into letters. -/
lemma toLower_congr {p : Char → Bool} (hp : ∀ c : Char, c.isAlpha = true → p c = false) (c : Char) :
    p c.toLower = p c := by
  by_cases hc : c.isUpper = true
  · have halpha : c.isAlpha = true := by simp [Char.isAlpha, hc]
    rw [hp c halpha, hp _ (by rw [Char.isAlpha_toLower_eq_isAlpha]; exact halpha)]
  · rw [Char.toLower_eq_of_not_isUpper hc]

lemma isWhitespace_of_isAlpha {c : Char} (h : c.isAlpha = true) : isWhitespace c = false := by
  simp only [Char.isAlpha, Char.isUpper, Char.isLower, Bool.or_eq_true, Bool.and_eq_true,
    decide_eq_true_eq, UInt32.le_iff_toNat_le, ge_iff_le] at h
  unfold isWhitespace Char.toNat
  simp at h ⊢
  omega

lemma eq_of_isAlpha {d : Char} (hd : d.isAlpha = false) {c : Char} (hc : c.isAlpha = true) :
    (c == d) = false := by
  rw [beq_eq_false_iff_ne]
  rintro rfl
  rw [hc] at hd
  cases hd

lemma toList_trim (s : String) :
    (trim s).toList = (s.toList.dropWhile isWhitespace).rdropWhile isWhitespace := by
  simp [trim, trimEndChars, trimStartChars]

lemma toList_trimStartMatches (c : Char) (s : String) :
    (trimStartMatches c s).toList = s.toList.dropWhile (· == c) := by
  simp [trimStartMatches, trimStartChars]

lemma toList_toAsciiLowercase (s : String) :
    (toAsciiLowercase s).toList = s.toList.map Char.toLower := by
  simp [toAsciiLowercase]

end Str

/-! ### Normal handles -/

/-- The text that `normalize_handle` lower-cases. -/
def handleText (raw : String) : String := Str.trimStartMatches '@' (Str.trim raw)

lemma dot_mem_handleText {raw : String} :
    '.' ∈ (Str.toAsciiLowercase (handleText raw)).toList ↔ '.' ∈ raw.toList := by
  have hlower : ∀ c : Char, c.toLower = '.' ↔ c = '.' := by
    intro c
    have hcongr := Str.toLower_congr (p := (· == '.'))
      (fun d hd => Str.eq_of_isAlpha (by decide) hd) c
    rw [← beq_iff_eq, hcongr, beq_iff_eq]
  rw [Str.toList_toAsciiLowercase, List.mem_map]
  simp only [hlower, exists_eq_right]
  rw [handleText, Str.toList_trimStartMatches, Str.toList_trim, Str.mem_dropWhile_iff (by decide),
    Str.mem_rdropWhile_iff (by decide), Str.mem_dropWhile_iff (by decide)]

lemma normalizeHandle_eq (raw : String) :
    normalizeHandle raw =
      if '.' ∈ raw.toList then .ok (Str.toAsciiLowercase (handleText raw)) else .error (.badHandle raw) := by
  have hdef : normalizeHandle raw =
      if Str.toAsciiLowercase (handleText raw) = "" ∨
          Str.containsChar (Str.toAsciiLowercase (handleText raw)) '.' = false then
        .error (.badHandle raw)
      else .ok (Str.toAsciiLowercase (handleText raw)) := rfl
  have hdot : Str.containsChar (Str.toAsciiLowercase (handleText raw)) '.' = true ↔ '.' ∈ raw.toList := by
    rw [← dot_mem_handleText]
    simp [Str.containsChar]
  rw [hdef]
  by_cases hmem : '.' ∈ raw.toList
  · have hne : Str.toAsciiLowercase (handleText raw) ≠ "" := by
      intro hempty
      have h := dot_mem_handleText.mpr hmem
      rw [hempty] at h
      cases h
    rw [if_neg (by simp [hne, hdot.mpr hmem]), if_pos hmem]
  · have hnot := Bool.eq_false_iff.mpr (fun h => hmem (hdot.mp h))
    rw [if_pos (Or.inr hnot), if_neg hmem]

lemma normalizeHandle_eq_ok_iff {raw h : String} :
    normalizeHandle raw = .ok h ↔ '.' ∈ raw.toList ∧ Str.toAsciiLowercase (handleText raw) = h := by
  rw [normalizeHandle_eq]
  split <;> simp_all

/-- Lower-casing leaves the ends of a text what they are. -/
lemma of_mem_map_toLower {p : Char → Bool} (hp : ∀ c : Char, c.isAlpha = true → p c = false)
    {o : Option Char} (h : ∀ c ∈ o, p c = false) :
    ∀ c ∈ o.map Char.toLower, p c = false := by
  intro c hc
  obtain ⟨d, hd, rfl⟩ := Option.map_eq_some_iff.mp hc
  rw [Str.toLower_congr hp]
  exact h d hd

/-- The end of the text is never white space: it is the end of a trimmed text. -/
lemma last_handleText (raw : String) :
    ∀ c ∈ (handleText raw).toList.getLast?, Str.isWhitespace c = false := by
  intro c hc
  rw [handleText, Str.toList_trimStartMatches, Str.toList_trim] at hc
  have hsuffix := List.dropWhile_suffix (l := (raw.toList.dropWhile Str.isWhitespace).rdropWhile
    Str.isWhitespace) (· == '@')
  obtain ⟨dropped, hdropped⟩ := hsuffix
  apply Str.last_rdropWhile
  rw [← hdropped, Option.mem_def, List.getLast?_append, Option.mem_def.mp hc]
  rfl

lemma head_handleText (raw : String) :
    ∀ c ∈ (handleText raw).toList.head?, (c == '@') = false := by
  intro c hc
  rw [handleText, Str.toList_trimStartMatches] at hc
  exact Str.head_dropWhile (p := (· == '@')) hc

/-- A text that does not begin with white space or `@` and does not end with white space is left
as it is. -/
lemma handleText_eq_self {s : String} (hspace : ∀ c ∈ s.toList.head?, Str.isWhitespace c = false)
    (hat : ∀ c ∈ s.toList.head?, (c == '@') = false)
    (hend : ∀ c ∈ s.toList.getLast?, Str.isWhitespace c = false) : handleText s = s := by
  rw [← String.toList_inj, handleText, Str.toList_trimStartMatches, Str.toList_trim,
    Str.dropWhile_of_head hspace, Str.rdropWhile_of_last hend, Str.dropWhile_of_head hat]

lemma length_handleText_lt {s : String} {c : Char} (hc : c ∈ s.toList.head?)
    (hspace : Str.isWhitespace c = true) : (handleText s).toList.length < s.toList.length := by
  have hdrop : (s.toList.dropWhile Str.isWhitespace).length < s.toList.length := by
    cases hs : s.toList with
    | nil => simp [hs] at hc
    | cons d ds =>
      rw [hs] at hc
      cases hc
      rw [List.dropWhile_cons_of_pos hspace, List.length_cons]
      exact Nat.lt_succ_of_le (List.dropWhile_suffix _).length_le
  rw [handleText, Str.toList_trimStartMatches, Str.toList_trim]
  exact Nat.lt_of_le_of_lt ((List.dropWhile_suffix _).length_le.trans
    (List.rdropWhile_prefix _ _).length_le) hdrop

lemma toAsciiLowercase_twice (s : String) :
    Str.toAsciiLowercase (Str.toAsciiLowercase s) = Str.toAsciiLowercase s := by
  rw [← String.toList_inj, Str.toList_toAsciiLowercase, Str.toList_toAsciiLowercase, List.map_map]
  simp [Function.comp_def]

/-- A handle is normalised once and for all exactly when no white space follows the `@`s that are
stripped off it. -/
theorem normalizeHandle_idempotent_iff (raw : String) :
    (∀ h, normalizeHandle raw = .ok h → normalizeHandle h = .ok h) ↔
      ('.' ∈ raw.toList → ∀ c ∈ (handleText raw).toList.head?, Str.isWhitespace c = false) := by
  simp only [normalizeHandle_eq_ok_iff]
  constructor
  · intro hidem hdot c hc
    obtain ⟨-, hsame⟩ := hidem _ ⟨hdot, rfl⟩
    by_contra hspace
    rw [Bool.not_eq_false] at hspace
    have hfirst : c.toLower ∈ (Str.toAsciiLowercase (handleText raw)).toList.head? := by
      rw [Str.toList_toAsciiLowercase, List.head?_map, Option.mem_def.mp hc]
      rfl
    have hlower : Str.isWhitespace c.toLower = true := by
      rw [Str.toLower_congr (fun d hd => Str.isWhitespace_of_isAlpha hd), hspace]
    -- a second round would trim the white space
    have hshort := length_handleText_lt hfirst hlower
    have hlen := congrArg (fun s : String => s.toList.length) hsame
    simp only [Str.toList_toAsciiLowercase, List.length_map] at hlen hshort
    omega
  · rintro hstart h ⟨hdot, rfl⟩
    have hself : handleText (Str.toAsciiLowercase (handleText raw)) =
        Str.toAsciiLowercase (handleText raw) := by
      apply handleText_eq_self
      · rw [Str.toList_toAsciiLowercase, List.head?_map]
        exact of_mem_map_toLower (fun d hd => Str.isWhitespace_of_isAlpha hd) (hstart hdot)
      · rw [Str.toList_toAsciiLowercase, List.head?_map]
        exact of_mem_map_toLower (fun d hd => Str.eq_of_isAlpha (by decide) hd) (head_handleText raw)
      · rw [Str.toList_toAsciiLowercase, List.getLast?_map]
        exact of_mem_map_toLower (fun d hd => Str.isWhitespace_of_isAlpha hd) (last_handleText raw)
    rw [hself, toAsciiLowercase_twice]
    exact ⟨dot_mem_handleText.mpr hdot, rfl⟩

/-- White space between the `@` and the name is trimmed the second time only. -/
theorem normalizeHandle_twice :
    normalizeHandle "@ alice.example" = .ok " alice.example" ∧
      normalizeHandle " alice.example" = .ok "alice.example" ∧
      ¬∀ raw h, normalizeHandle raw = .ok h → normalizeHandle h = .ok h := by
  have hfirst : normalizeHandle "@ alice.example" = .ok " alice.example" := by decide
  have hsecond : normalizeHandle " alice.example" = .ok "alice.example" := by decide
  refine ⟨hfirst, hsecond, fun hidem => ?_⟩
  have hsame := hidem _ _ hfirst
  rw [hsecond] at hsame
  exact absurd (Except.ok.inj hsame) (by decide)

end Laye
