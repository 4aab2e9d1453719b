import Mathlib.Data.List.DropRight
import Laye.Lib.Search

/-!
# The string methods of the Rust standard library

Those the relay uses on handles, DIDs, URLs and HTTP heads.
-/

namespace Laye

namespace Str

/-- The code points with the Unicode property `White_Space`. -/
def isWhitespace (c : Char) : Bool :=
  let n := c.toNat
  (9 ≤ n && n ≤ 13) || n == 0x20 || n == 0x85 || n == 0xA0 || n == 0x1680 ||
    (0x2000 ≤ n && n ≤ 0x200A) || n == 0x2028 || n == 0x2029 || n == 0x202F || n == 0x205F ||
    n == 0x3000

def trimStartChars (p : Char → Bool) (s : String) : String := String.ofList (s.toList.dropWhile p)

def trimEndChars (p : Char → Bool) (s : String) : String := String.ofList (s.toList.rdropWhile p)

/-- `str::trim` -/
def trim (s : String) : String := trimEndChars isWhitespace (trimStartChars isWhitespace s)

def trimStartMatches (c : Char) (s : String) : String := trimStartChars (· == c) s

def trimEndMatches (c : Char) (s : String) : String := trimEndChars (· == c) s

def trimMatches (c : Char) (s : String) : String := trimEndMatches c (trimStartMatches c s)

def toAsciiLowercase (s : String) : String := String.ofList (s.toList.map Char.toLower)

def startsWith (s start : String) : Bool := start.toList.isPrefixOf s.toList

def strip (start s : String) : Option String :=
  if startsWith s start then some (String.ofList (s.toList.drop start.toList.length)) else none

def containsChar (s : String) (c : Char) : Bool := s.toList.contains c

def containsText (s part : String) : Bool := s.toList.tails.any (part.toList.isPrefixOf ·)

/-- `str::split_once` -/
def splitOnce (s : String) (c : Char) : Option (String × String) :=
  if containsChar s c then
    some (String.ofList (s.toList.takeWhile (· != c)),
      String.ofList ((s.toList.dropWhile (· != c)).drop 1))
  else none

lemma splitOnce_eq_some_iff {s before after : String} {c : Char} :
    splitOnce s c = some (before, after) ↔
      s.toList = before.toList ++ c :: after.toList ∧ c ∉ before.toList := by
  have hcut := s.toList.takeWhile_append_dropWhile (p := (· != c))
  have hbefore : c ∉ s.toList.takeWhile (· != c) := by
    intro hmem
    have hne := List.mem_takeWhile_imp hmem
    exact bne_iff_ne.mp hne rfl
  unfold splitOnce containsChar
  constructor
  · intro h
    by_cases hc : s.toList.contains c = true
    · rw [if_pos hc, Option.some.injEq, Prod.mk.injEq] at h
      obtain ⟨rfl, rfl⟩ := h
      have hne : s.toList.dropWhile (· != c) ≠ [] := by
        intro hnil
        rw [hnil, List.append_nil] at hcut
        rw [hcut] at hbefore
        exact hbefore (List.contains_iff_mem.mp hc)
      have hhead := List.head_dropWhile_not (· != c) hne
      have hcons := List.cons_head_tail hne
      rw [bne_eq_false_iff_eq] at hhead
      rw [hhead] at hcons
      simp only [String.toList_ofList, List.drop_one, hcons]
      exact ⟨hcut.symm, hbefore⟩
    · rw [if_neg hc] at h
      cases h
  · rintro ⟨htext, hc⟩
    have hne : ∀ d ∈ before.toList, (d != c) = true :=
      fun d hd => bne_iff_ne.mpr fun hdc => hc (hdc ▸ hd)
    simp [htext, List.takeWhile_append_of_pos hne, List.dropWhile_append_of_pos hne]

lemma splitOnce_eq_none_iff {s : String} {c : Char} : splitOnce s c = none ↔ c ∉ s.toList := by
  unfold splitOnce containsChar
  split <;> simp_all

/-- `str::split` at a character. -/
def split (s : String) (c : Char) : List String := (s.toList.splitOn c).map String.ofList

/-- `str::splitn` -/
def splitn : Nat → Char → String → List String
  | 0, _, _ => []
  | 1, _, s => [s]
  | n + 2, c, s =>
    match splitOnce s c with
    | some (first, rest) => first :: splitn (n + 1) c rest
    | none => [s]

/-- Every separator makes one part more, up to the last part. -/
lemma length_splitn (n : Nat) (c : Char) (s : String) :
    (splitn (n + 1) c s).length = min n (s.toList.count c) + 1 := by
  induction n generalizing s with
  | zero => rw [splitn, Nat.zero_min, List.length_singleton]
  | succ n ih =>
    cases hsplit : splitOnce s c with
    | none =>
      have hcount : s.toList.count c = 0 := List.count_eq_zero.mpr (splitOnce_eq_none_iff.mp hsplit)
      simp only [splitn, hsplit, hcount, Nat.min_zero, List.length_singleton]
    | some parts =>
      obtain ⟨first, rest⟩ := parts
      obtain ⟨htext, hfirst⟩ := splitOnce_eq_some_iff.mp hsplit
      have hcount : s.toList.count c = rest.toList.count c + 1 := by
        rw [htext, List.count_append, List.count_eq_zero.mpr hfirst, List.count_cons_self, Nat.zero_add]
      simp only [splitn, hsplit, List.length_cons, ih, hcount]
      omega

/-- `split("\r\n")` -/
def splitCrlf (s : String) : List String :=
  (Search.splitPair '\r' '\n' s.toList).map String.ofList

/-- `str::eq_ignore_ascii_case` -/
def eqIgnoreAsciiCase (s t : String) : Bool := toAsciiLowercase s == toAsciiLowercase t

/-- The number that a list of decimal digits writes. -/
def decimal (digits : List Char) : Nat := digits.foldl (fun n d => 10 * n + (d.toNat - 48)) 0

/-- `str::parse::<usize>`, where `usize` has 64 bits. -/
def parseUsize (s : String) : Option Nat :=
  let digits := if s.toList.head? = some '+' then s.toList.drop 1 else s.toList
  if digits ≠ [] ∧ digits.all Char.isDigit ∧ decimal digits < UInt64.size then some (decimal digits)
  else none

def replaceChar (s : String) (c : Char) (replacement : String) : String :=
  String.ofList (s.toList.flatMap (fun d => if d == c then replacement.toList else [d]))

/-- `str::len`, in bytes -/
def len (s : String) : Nat := s.utf8ByteSize

/-- The first characters that fill exactly `n` bytes. -/
def takeBytes : Nat → List Char → Option (List Char)
  | 0, _ => some []
  | _ + 1, [] => none
  | n + 1, c :: cs =>
    if c.utf8Size ≤ n + 1 then (takeBytes (n + 1 - c.utf8Size) cs).map (c :: ·) else none

/-- `&s[..n]`, which panics (`none`) when `n` is past the end or inside a character. -/
def sliceTo (s : String) (n : Nat) : Option String := (takeBytes n s.toList).map String.ofList

/-- `str::is_char_boundary` -/
def isCharBoundary (s : String) (n : Nat) : Bool := (sliceTo s n).isSome

/-! ### Cutting by bytes -/

/-- The bytes that characters take. -/
def width : List Char → Nat
  | [] => 0
  | c :: cs => c.utf8Size + width cs

@[simp] lemma width_nil : width [] = 0 := rfl

@[simp] lemma width_cons (c : Char) (cs : List Char) : width (c :: cs) = c.utf8Size + width cs := rfl

@[simp] lemma width_append (cs ds : List Char) : width (cs ++ ds) = width cs + width ds := by
  induction cs with
  | nil => simp
  | cons c cs ih => rw [List.cons_append, width_cons, width_cons, ih, Nat.add_assoc]

lemma length_encode (cs : List Char) : (cs.flatMap String.utf8EncodeChar).length = width cs := by
  induction cs with
  | nil => rfl
  | cons c cs ih =>
    rw [List.flatMap_cons, List.length_append, ih, String.length_utf8EncodeChar, width_cons]

lemma width_eq_zero_iff {cs : List Char} : width cs = 0 ↔ cs = [] := by
  cases cs with
  | nil => simp
  | cons c cs =>
    have hpos := c.utf8Size_pos
    simp only [width_cons, reduceCtorEq, iff_false]
    omega

lemma len_eq (s : String) : len s = width s.toList := by
  have hsize : len s = (s.toList.flatMap String.utf8EncodeChar).length := by
    unfold len
    rw [← String.size_toByteArray, ← String.utf8Encode_toList]
    simp [List.utf8Encode]
  rw [hsize, length_encode]

/-- Whole characters that fill `n` bytes at the front, where there are such. -/
lemma takeBytes_eq_some_iff {n : Nat} {cs ds : List Char} :
    takeBytes n cs = some ds ↔ ds <+: cs ∧ width ds = n := by
  fun_induction takeBytes n cs generalizing ds with
  | case1 cs =>
    rw [width_eq_zero_iff, Option.some.injEq]
    constructor
    · rintro rfl
      exact ⟨List.nil_prefix, rfl⟩
    · exact fun h => h.2.symm
  | case2 n =>
    simp only [reduceCtorEq, List.prefix_nil, false_iff, not_and]
    rintro rfl
    simp
  | case3 n c cs hfits ih =>
    simp only [Option.map_eq_some_iff, ih]
    constructor
    · rintro ⟨ds, ⟨hds, hwidth⟩, rfl⟩
      refine ⟨(List.cons_prefix_cons).mpr ⟨rfl, hds⟩, ?_⟩
      rw [width_cons]
      omega
    · rintro ⟨hds, hwidth⟩
      cases ds with
      | nil => simp at hwidth
      | cons d ds =>
        obtain ⟨rfl, htail⟩ := List.cons_prefix_cons.mp hds
        rw [width_cons] at hwidth
        exact ⟨ds, ⟨htail, by omega⟩, rfl⟩
  | case4 n c cs hfits =>
    simp only [reduceCtorEq, false_iff, not_and]
    intro hds hwidth
    cases ds with
    | nil => simp at hwidth
    | cons d ds =>
      obtain ⟨rfl, hds⟩ := List.cons_prefix_cons.mp hds
      rw [width_cons] at hwidth
      omega

lemma sliceTo_eq_some_iff {s t : String} {n : Nat} :
    sliceTo s n = some t ↔ t.toList <+: s.toList ∧ len t = n := by
  rw [sliceTo, Option.map_eq_some_iff]
  simp only [takeBytes_eq_some_iff, len_eq]
  constructor
  · rintro ⟨cs, hcs, rfl⟩
    rwa [String.toList_ofList]
  · intro h
    exact ⟨t.toList, h, String.ofList_toList⟩

lemma isCharBoundary_iff {s : String} {n : Nat} :
    isCharBoundary s n = true ↔ ∃ t : String, t.toList <+: s.toList ∧ len t = n := by
  rw [isCharBoundary, Option.isSome_iff_exists]
  simp only [sliceTo_eq_some_iff]

lemma isCharBoundary_zero (s : String) : isCharBoundary s 0 = true :=
  isCharBoundary_iff.mpr ⟨"", List.nil_prefix, rfl⟩

lemma isCharBoundary_len (s : String) : isCharBoundary s (len s) = true :=
  isCharBoundary_iff.mpr ⟨s, List.prefix_refl _, rfl⟩

/-- Of two cuts the one with fewer bytes is the front of the other. -/
lemma prefix_of_width_le {cs ds es : List Char} (hcs : cs <+: es) (hds : ds <+: es)
    (h : width cs ≤ width ds) : cs <+: ds := by
  rcases List.prefix_or_prefix_of_prefix hcs hds with hle | ⟨more, rfl⟩
  · exact hle
  · have hmore : more = [] := by
      rw [← width_eq_zero_iff]
      rw [width_append] at h
      omega
    simp [hmore]

end Str

end Laye
