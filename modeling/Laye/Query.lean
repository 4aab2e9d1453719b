import Laye.Atproto

/-!
# The query of a request target

`split_path_and_query` and `percent_decode` of `crates/relaye/src/status_page.rs`, which read what
`url_encode_form` writes.
-/

namespace Laye

namespace Query

def hexNibble (c : UInt8) : Option UInt8 :=
  if 48 ≤ c ∧ c ≤ 57 then some (c - 48)
  else if 97 ≤ c ∧ c ≤ 102 then some (10 + c - 97)
  else if 65 ≤ c ∧ c ≤ 70 then some (10 + c - 65)
  else none

/-- The loop of `percent_decode`; `none` where an index is out of range. -/
def percentDecodeLoop (bytes : Bytes) (i : Nat) (out : Bytes) : Option Bytes :=
  if i < bytes.length then do
    let b ← bytes[i]?
    if b = 43 then percentDecodeLoop bytes (i + 1) (out ++ [32])
    else if b = 37 ∧ i + 2 < bytes.length then
      let hi := hexNibble (← bytes[i + 1]?)
      let lo := hexNibble (← bytes[i + 2]?)
      match hi, lo with
      | some h, some l => percentDecodeLoop bytes (i + 3) (out ++ [(h <<< 4) ||| l])
      | _, _ => percentDecodeLoop bytes (i + 1) (out ++ [b])
    else percentDecodeLoop bytes (i + 1) (out ++ [b])
  else some out
termination_by bytes.length - i

def percentDecode (s : String) : Option String := do
  let out ← percentDecodeLoop (intoBytes s) 0 []
  return (fromUtf8 out).getD ""

/-- What `split_path_and_query` does with one piece of the query. -/
def insertPair (params : HashMap String String) (pair : String) : Option (HashMap String String) :=
  if pair = "" then some params
  else do
    let (k, v) := (Str.splitOnce pair '=').getD (pair, "")
    return params.insert (← percentDecode k) (← percentDecode v)

def splitPathAndQuery (raw : String) : Option (String × HashMap String String) := do
  let (path, qs) := (Str.splitOnce raw '?').getD (raw, "")
  let params ← (Str.split qs '&').foldlM insertPair HashMap.empty
  return (path, params)

/-! ### What is decoded -/

/-- The bytes that bytes decode to. -/
def decodeBytes : Bytes → Bytes
  | [] => []
  | b :: hi :: lo :: rest =>
    if b = 43 then 32 :: decodeBytes (hi :: lo :: rest)
    else if b = 37 then
      match hexNibble hi, hexNibble lo with
      | some h, some l => ((h <<< 4) ||| l) :: decodeBytes rest
      | _, _ => b :: decodeBytes (hi :: lo :: rest)
    else b :: decodeBytes (hi :: lo :: rest)
  | b :: rest => (if b = 43 then 32 else b) :: decodeBytes rest

lemma decodeBytes_plus (rest : Bytes) : decodeBytes (43 :: rest) = 32 :: decodeBytes rest := by
  match rest with
  | [] => rfl
  | [_] => rfl
  | _ :: _ :: _ => rfl

lemma decodeBytes_plain {b : UInt8} (hplus : b ≠ 43) (hpercent : b ≠ 37) (rest : Bytes) :
    decodeBytes (b :: rest) = b :: decodeBytes rest := by
  match rest with
  | [] => simp [decodeBytes, hplus]
  | [_] => simp [decodeBytes, hplus]
  | _ :: _ :: _ => rw [decodeBytes, if_neg hplus, if_neg hpercent]

lemma decodeBytes_escape {hi lo h l : UInt8} (hhi : hexNibble hi = some h)
    (hlo : hexNibble lo = some l) (rest : Bytes) :
    decodeBytes (37 :: hi :: lo :: rest) = ((h <<< 4) ||| l) :: decodeBytes rest := by
  rw [decodeBytes, if_neg (by decide), if_pos rfl, hhi, hlo]

/-- A percent sign that no two hex digits follow. -/
def StrayPercent (rest : Bytes) : Prop :=
  ∀ hi lo more, rest = hi :: lo :: more → hexNibble hi = none ∨ hexNibble lo = none

lemma decodeBytes_stray {rest : Bytes} (h : StrayPercent rest) :
    decodeBytes (37 :: rest) = 37 :: decodeBytes rest := by
  match rest, h with
  | [], _ => rfl
  | [_], _ => rfl
  | hi :: lo :: more, h =>
    rw [decodeBytes, if_neg (by decide), if_pos rfl]
    rcases h hi lo more rfl with hnone | hnone
    · rw [hnone]
    · rw [hnone]
      cases hexNibble hi <;> rfl

/-- The bytes have a percent sign that two hex digits follow. -/
def HasEscape (bytes : Bytes) : Prop := ∃ pre rest, bytes = pre ++ 37 :: rest ∧ ¬StrayPercent rest

lemma hasEscape_cons {b : UInt8} {rest : Bytes} :
    HasEscape (b :: rest) ↔ (b = 37 ∧ ¬StrayPercent rest) ∨ HasEscape rest := by
  constructor
  · rintro ⟨pre, more, h, hescape⟩
    cases pre with
    | nil =>
      obtain ⟨rfl, rfl⟩ := List.cons.inj h
      exact Or.inl ⟨rfl, hescape⟩
    | cons c pre =>
      obtain ⟨-, hrest⟩ := List.cons.inj h
      exact Or.inr ⟨pre, more, hrest, hescape⟩
  · rintro (⟨rfl, hescape⟩ | ⟨pre, more, rfl, hescape⟩)
    · exact ⟨[], rest, rfl, hescape⟩
    · exact ⟨b :: pre, more, rfl, hescape⟩

/-- A byte that starts no escape and is no plus sign stays. -/
lemma decodeBytes_kept {b : UInt8} {rest : Bytes} (hplus : b ≠ 43) (h : b = 37 → StrayPercent rest) :
    decodeBytes (b :: rest) = b :: decodeBytes rest := by
  by_cases hpercent : b = 37
  · subst hpercent
    exact decodeBytes_stray (h rfl)
  · exact decodeBytes_plain hplus hpercent rest

lemma exists_of_not_stray {rest : Bytes} (h : ¬StrayPercent rest) :
    ∃ hi lo h l more, rest = hi :: lo :: more ∧ hexNibble hi = some h ∧ hexNibble lo = some l := by
  unfold StrayPercent at h
  push Not at h
  obtain ⟨hi, lo, more, hrest, hhi, hlo⟩ := h
  obtain ⟨h, hhi⟩ := Option.ne_none_iff_exists'.mp hhi
  obtain ⟨l, hlo⟩ := Option.ne_none_iff_exists'.mp hlo
  exact ⟨hi, lo, h, l, more, hrest, hhi, hlo⟩

lemma length_decodeBytes_le (bytes : Bytes) : (decodeBytes bytes).length ≤ bytes.length := by
  induction hlength : bytes.length using Nat.strong_induction_on generalizing bytes with
  | _ n ih =>
    cases bytes with
    | nil => exact Nat.zero_le _
    | cons b rest =>
      rw [List.length_cons] at hlength
      have hrest := ih rest.length (by omega) rest rfl
      by_cases hplus : b = 43
      · rw [hplus, decodeBytes_plus, List.length_cons]
        omega
      · by_cases hstray : b = 37 → StrayPercent rest
        · rw [decodeBytes_kept hplus hstray, List.length_cons]
          omega
        · obtain ⟨rfl, hescape⟩ := Classical.not_imp.mp hstray
          obtain ⟨hi, lo, h, l, more, rfl, hhi, hlo⟩ := exists_of_not_stray hescape
          simp only [List.length_cons] at hlength
          have hmore := ih more.length (by omega) more rfl
          rw [decodeBytes_escape hhi hlo, List.length_cons]
          omega

/-- Exactly when bytes decode to themselves. -/
lemma decodeBytes_eq_self_iff {bytes : Bytes} :
    decodeBytes bytes = bytes ↔ 43 ∉ bytes ∧ ¬HasEscape bytes := by
  induction bytes with
  | nil =>
    have hnone : ¬HasEscape [] := by
      rintro ⟨pre, rest, h, -⟩
      simp at h
    simp [decodeBytes, hnone]
  | cons b rest ih =>
    rw [hasEscape_cons, List.mem_cons, not_or, not_or]
    by_cases hplus : b = 43
    · subst hplus
      rw [decodeBytes_plus]
      simp
    · by_cases hstray : b = 37 → StrayPercent rest
      · rw [decodeBytes_kept hplus hstray, List.cons.injEq, ih]
        have hnot : ¬(b = 37 ∧ ¬StrayPercent rest) := fun h => h.2 (hstray h.1)
        simp [hnot, Ne.symm hplus]
      · obtain ⟨rfl, hescape⟩ := Classical.not_imp.mp hstray
        obtain ⟨hi, lo, h, l, more, rfl, hhi, hlo⟩ := exists_of_not_stray hescape
        have hlength := length_decodeBytes_le more
        have hne : decodeBytes (37 :: hi :: lo :: more) ≠ 37 :: hi :: lo :: more := by
          intro heq
          have hsame := congrArg List.length heq
          rw [decodeBytes_escape hhi hlo] at hsame
          simp only [List.length_cons] at hsame
          omega
        simp [hne, hescape]

/-! ### The loop, turn by turn -/

section Turns

variable {bytes : Bytes} {i : Nat} {b : UInt8} {rest : Bytes}

lemma lt_length_of_drop (h : bytes.drop i = b :: rest) : i < bytes.length := by
  by_contra hge
  rw [List.drop_eq_nil_of_le (by omega)] at h
  cases h

lemma getElem?_of_drop (h : bytes.drop i = b :: rest) :
    bytes[i]? = some b ∧ bytes.drop (i + 1) = rest := by
  have hi := lt_length_of_drop h
  rw [List.drop_eq_getElem_cons hi] at h
  obtain ⟨hb, hrest⟩ := List.cons.inj h
  exact ⟨by rw [List.getElem?_eq_getElem hi, hb], hrest⟩

lemma percentDecodeLoop_end (h : bytes.drop i = []) (out : Bytes) :
    percentDecodeLoop bytes i out = some out := by
  have hge : ¬i < bytes.length := Nat.not_lt.mpr (List.drop_eq_nil_iff.mp h)
  rw [percentDecodeLoop, if_neg hge]

lemma percentDecodeLoop_plus (h : bytes.drop i = 43 :: rest) (out : Bytes) :
    percentDecodeLoop bytes i out = percentDecodeLoop bytes (i + 1) (out ++ [32]) := by
  rw [percentDecodeLoop, if_pos (lt_length_of_drop h), (getElem?_of_drop h).1]
  rfl

lemma percentDecodeLoop_kept (h : bytes.drop i = b :: rest) (hplus : b ≠ 43)
    (hstray : b = 37 → StrayPercent rest) (out : Bytes) :
    percentDecodeLoop bytes i out = percentDecodeLoop bytes (i + 1) (out ++ [b]) := by
  obtain ⟨hget, hrest⟩ := getElem?_of_drop h
  rw [percentDecodeLoop, if_pos (lt_length_of_drop h), hget]
  simp only [bind, Option.bind]
  rw [if_neg hplus]
  by_cases hescape : b = 37 ∧ i + 2 < bytes.length
  · obtain ⟨rfl, htwo⟩ := hescape
    have hdrop₁ := List.drop_eq_getElem_cons (show i + 1 < bytes.length by omega)
    have hdrop₂ := List.drop_eq_getElem_cons htwo
    have hget₁ : bytes[i + 1]? = some bytes[i + 1] := List.getElem?_eq_getElem (by omega)
    have hget₂ : bytes[i + 2]? = some bytes[i + 2] := List.getElem?_eq_getElem htwo
    rw [if_pos ⟨rfl, htwo⟩, hget₁, hget₂]
    rcases hstray rfl _ _ _ (hrest.symm.trans (hdrop₁.trans (congrArg _ hdrop₂))) with hnone | hnone
    · simp only [hnone]
    · simp only [hnone]
      cases hexNibble bytes[i + 1] <;> rfl
  · rw [if_neg hescape]

lemma percentDecodeLoop_escape {hi lo h l : UInt8} (hdrop : bytes.drop i = 37 :: hi :: lo :: rest)
    (hhi : hexNibble hi = some h) (hlo : hexNibble lo = some l) (out : Bytes) :
    percentDecodeLoop bytes i out =
      percentDecodeLoop bytes (i + 3) (out ++ [(h <<< 4) ||| l]) := by
  obtain ⟨hget, hrest⟩ := getElem?_of_drop hdrop
  obtain ⟨hget₁, hrest₁⟩ := getElem?_of_drop hrest
  obtain ⟨hget₂, -⟩ := getElem?_of_drop hrest₁
  rw [percentDecodeLoop, if_pos (lt_length_of_drop hdrop), hget]
  have hplus : (37 : UInt8) ≠ 43 := by decide
  simp only [bind, Option.bind, if_neg hplus, true_and, if_pos (lt_length_of_drop hrest₁), hget₁,
    hget₂, hhi, hlo]

end Turns

/-- The loop never indexes out of range, and decodes what is left. -/
lemma percentDecodeLoop_eq (bytes : Bytes) (i : Nat) (out : Bytes) :
    percentDecodeLoop bytes i out = some (out ++ decodeBytes (bytes.drop i)) := by
  induction hleft : bytes.length - i using Nat.strong_induction_on generalizing i out with
  | _ left ih =>
    cases hdrop : bytes.drop i with
    | nil => rw [percentDecodeLoop_end hdrop, decodeBytes, List.append_nil]
    | cons b rest =>
      have hi := lt_length_of_drop hdrop
      have hnext : ∀ out, percentDecodeLoop bytes (i + 1) out = some (out ++ decodeBytes rest) := by
        intro out
        rw [ih (bytes.length - (i + 1)) (by omega) (i + 1) out rfl, (getElem?_of_drop hdrop).2]
      by_cases hplus : b = 43
      · subst hplus
        rw [percentDecodeLoop_plus hdrop, hnext, decodeBytes_plus, List.append_assoc]
        rfl
      · by_cases hstray : b = 37 → StrayPercent rest
        · rw [percentDecodeLoop_kept hdrop hplus hstray, hnext, decodeBytes_kept hplus hstray,
            List.append_assoc]
          rfl
        · obtain ⟨rfl, hescape⟩ := Classical.not_imp.mp hstray
          obtain ⟨hi', lo', h, l, more, rfl, hhi, hlo⟩ := exists_of_not_stray hescape
          have hmore : bytes.drop (i + 3) = more :=
            (getElem?_of_drop (getElem?_of_drop (getElem?_of_drop hdrop).2).2).2
          rw [percentDecodeLoop_escape hdrop hhi hlo,
            ih (bytes.length - (i + 3)) (by omega) (i + 3) _ rfl, hmore,
            decodeBytes_escape hhi hlo, List.append_assoc]
          rfl

/-- `percent_decode` returns on every string. -/
theorem percentDecode_eq (s : String) :
    percentDecode s = some ((fromUtf8 (decodeBytes (intoBytes s))).getD "") := by
  rw [percentDecode, percentDecodeLoop_eq]
  rfl

/-! ### Encoded text -/

/-- The bytes that `percent_encode_into` appends for a byte. -/
def encodeByte (b : UInt8) : Bytes :=
  if isUnreserved b then [b]
  else [37, UInt8.ofNat (upperHexDigit (b >>> 4)).toNat, UInt8.ofNat (upperHexDigit (b &&& 0x0f)).toNat]

lemma hexNibble_upperHexDigit {n : UInt8} (h : n.toNat < 16) :
    hexNibble (UInt8.ofNat (upperHexDigit n).toNat) = some n := by
  have hall : ∀ n : Fin 16,
      hexNibble (UInt8.ofNat (upperHexDigit (UInt8.ofNat n.val)).toNat) = some (UInt8.ofNat n.val) := by
    decide
  have hn := hall ⟨n.toNat, h⟩
  rwa [UInt8.ofNat_toNat] at hn

lemma isUnreserved_ne {b : UInt8} (h : isUnreserved b = true) : b ≠ 43 ∧ b ≠ 37 := by
  constructor <;> rintro rfl <;> exact absurd h (by decide)

/-- A byte decodes as it was encoded, whatever comes after it. -/
lemma decodeBytes_encodeByte (b : UInt8) (rest : Bytes) :
    decodeBytes (encodeByte b ++ rest) = b :: decodeBytes rest := by
  by_cases h : isUnreserved b = true
  · rw [encodeByte, if_pos h]
    obtain ⟨hplus, hpercent⟩ := isUnreserved_ne h
    exact decodeBytes_plain hplus hpercent rest
  · have hb := b.toNat_lt
    have hhi : hexNibble (UInt8.ofNat (upperHexDigit (b >>> 4)).toNat) = some (b >>> 4) :=
      hexNibble_upperHexDigit (by rw [toNat_high_nibble]; omega)
    have hlo : hexNibble (UInt8.ofNat (upperHexDigit (b &&& 0x0f)).toNat) = some (b &&& 0x0f) :=
      hexNibble_upperHexDigit (by rw [toNat_low_nibble]; omega)
    rw [encodeByte, if_neg h]
    exact (decodeBytes_escape hhi hlo rest).trans (by rw [nibbles_join])

lemma decodeBytes_encode (bytes : Bytes) : decodeBytes (bytes.flatMap encodeByte) = bytes := by
  induction bytes with
  | nil => rfl
  | cons b bytes ih => rw [List.flatMap_cons, decodeBytes_encodeByte, ih]

/-- The characters that `percent_encode_into` appends for a byte. -/
def encodedChars (b : UInt8) : List Char :=
  if isUnreserved b then [Char.ofNat b.toNat]
  else ['%', upperHexDigit (b >>> 4), upperHexDigit (b &&& 0x0f)]

lemma percentEncode_toList (s : String) :
    (percentEncode s).toList = (intoBytes s).flatMap encodedChars := String.toList_ofList

/-- They are ASCII, and none of them separates pairs, keys or the path. -/
lemma encodedChars_spec (b : UInt8) :
    (encodedChars b).flatMap String.utf8EncodeChar = encodeByte b ∧
      '&' ∉ encodedChars b ∧ '=' ∉ encodedChars b := by
  have hall : ∀ n : Fin 256,
      (encodedChars (UInt8.ofNat n.val)).flatMap String.utf8EncodeChar = encodeByte (UInt8.ofNat n.val) ∧
        '&' ∉ encodedChars (UInt8.ofNat n.val) ∧ '=' ∉ encodedChars (UInt8.ofNat n.val) := by
    decide +kernel
  have hb := hall ⟨b.toNat, b.toNat_lt⟩
  rwa [UInt8.ofNat_toNat] at hb

lemma intoBytes_percentEncode (s : String) :
    intoBytes (percentEncode s) = (intoBytes s).flatMap encodeByte := by
  rw [intoBytes_eq, percentEncode_toList, List.flatMap_assoc]
  congr 1
  funext b
  exact (encodedChars_spec b).1

lemma not_mem_percentEncode {c : Char} (hc : c = '&' ∨ c = '=') (s : String) :
    c ∉ (percentEncode s).toList := by
  rw [percentEncode_toList, List.mem_flatMap]
  rintro ⟨b, -, hb⟩
  obtain ⟨-, hamp, heq⟩ := encodedChars_spec b
  rcases hc with rfl | rfl
  · exact hamp hb
  · exact heq hb

lemma percentDecode_percentEncode (s : String) : percentDecode (percentEncode s) = some s := by
  rw [percentDecode_eq, intoBytes_percentEncode, decodeBytes_encode, fromUtf8_eq_some.mpr rfl]
  rfl

/-! ### Queries -/

/-- The text of one pair of a form. -/
def pairText (pair : String × String) : String := percentEncode pair.1 ++ "=" ++ percentEncode pair.2

lemma insertPair_pairText (params : HashMap String String) (pair : String × String) :
    insertPair params (pairText pair) = some (params.insert pair.1 pair.2) := by
  have hsplit : Str.splitOnce (pairText pair) '=' =
      some (percentEncode pair.1, percentEncode pair.2) :=
    Str.splitOnce_eq_some_iff.mpr ⟨by simp [pairText], not_mem_percentEncode (Or.inr rfl) pair.1⟩
  have hne : pairText pair ≠ "" := by
    intro h
    have hnone : Str.splitOnce "" '=' = none := by decide
    rw [h, hnone] at hsplit
    cases hsplit
  rw [insertPair, if_neg hne, hsplit]
  simp only [Option.getD_some, percentDecode_percentEncode]
  rfl

lemma foldlM_insertPair (pairs : List (String × String)) (params : HashMap String String) :
    (pairs.map pairText).foldlM insertPair params =
      some (pairs.foldl (fun params pair => params.insert pair.1 pair.2) params) := by
  induction pairs generalizing params with
  | nil => rfl
  | cons pair pairs ih =>
    rw [List.map_cons, List.foldlM_cons, insertPair_pairText]
    exact ih _

/-- The value of the last pair with a key. -/
def lastValue (key : String) (pairs : List (String × String)) : Option String :=
  ((pairs.filter (fun pair => pair.1 == key)).getLast?).map Prod.snd

lemma foldl_insert (key : String) (pairs : List (String × String)) :
    pairs.foldl (fun params pair => params.insert pair.1 pair.2) HashMap.empty key =
      lastValue key pairs := by
  induction pairs using List.reverseRecOn with
  | nil => rfl
  | append_singleton pairs pair ih =>
    rw [List.foldl_concat, lastValue, List.filter_append]
    by_cases hkey : pair.1 = key
    · subst hkey
      simp
    · have hne : (pair.1 == key) = false := beq_eq_false_iff_ne.mpr hkey
      rw [HashMap.insert_of_ne _ _ (Ne.symm hkey), ih, lastValue]
      simp [hne]

/-- The pieces of a form are its pairs, unless it has none. -/
lemma split_urlEncodeForm {pairs : List (String × String)} (h : pairs ≠ []) :
    Str.split (urlEncodeForm pairs) '&' = pairs.map pairText := by
  have hpieces : ∀ piece ∈ (pairs.map pairText).map String.toList, '&' ∉ piece := by
    simp only [List.map_map, List.mem_map, Function.comp_apply]
    rintro _ ⟨pair, -, rfl⟩
    simp only [pairText, String.toList_append, List.mem_append, not_or]
    exact ⟨⟨not_mem_percentEncode (Or.inl rfl) _, by decide⟩, not_mem_percentEncode (Or.inl rfl) _⟩
  have hne : (pairs.map pairText).map String.toList ≠ [] := by simp [h]
  have htext : (urlEncodeForm pairs).toList =
      ['&'].intercalate ((pairs.map pairText).map String.toList) := by
    rw [urlEncodeForm, String.toList_intercalate]
    rfl
  rw [Str.split, htext, List.splitOn_intercalate '&' hpieces hne, List.map_map]
  simp

/-! ### What a query can give -/

/-- What a piece of a query says after its first equals sign. -/
def valueText (piece : String) : String := ((Str.splitOnce piece '=').getD (piece, "")).2

lemma percentDecode_eq_self_iff {s : String} :
    percentDecode s = some s ↔ 43 ∉ intoBytes s ∧ ¬HasEscape (intoBytes s) := by
  rw [← decodeBytes_eq_self_iff, percentDecode_eq, Option.some.injEq]
  constructor
  · intro h
    cases hutf8 : fromUtf8 (decodeBytes (intoBytes s)) with
    | none =>
      rw [hutf8, Option.getD_none] at h
      rw [← h]
      rfl
    | some t =>
      rw [hutf8, Option.getD_some] at h
      rw [← fromUtf8_eq_some.mp hutf8, h]
  · intro h
    rw [h, fromUtf8_eq_some.mpr rfl, Option.getD_some]

lemma length_percentDecode_le {s t : String} (h : percentDecode s = some t) :
    (intoBytes t).length ≤ (intoBytes s).length := by
  rw [percentDecode_eq, Option.some.injEq] at h
  have hle := length_decodeBytes_le (intoBytes s)
  cases hutf8 : fromUtf8 (decodeBytes (intoBytes s)) with
  | none =>
    rw [hutf8, Option.getD_none] at h
    rw [← h]
    exact Nat.zero_le _
  | some t' =>
    rw [hutf8, Option.getD_some] at h
    rw [← h, fromUtf8_eq_some.mp hutf8]
    exact hle

/-- One piece sets no parameter but to its own value. -/
lemma insertPair_value {params params' : HashMap String String} {piece key value : String}
    (h : insertPair params piece = some params') (hvalue : params' key = some value) :
    params key = some value ∨ percentDecode (valueText piece) = some value := by
  unfold insertPair at h
  split at h
  · cases h
    exact Or.inl hvalue
  · simp only [bind, Option.bind_eq_some_iff, pure, Option.some.injEq] at h
    obtain ⟨k, hk, v, hv, rfl⟩ := h
    by_cases hkey : key = k
    · rw [hkey, HashMap.insert_self] at hvalue
      rw [valueText, hv, hvalue]
      exact Or.inr rfl
    · rw [HashMap.insert_of_ne _ _ hkey] at hvalue
      exact Or.inl hvalue

/-- Every parameter of a query is the value of one of its pieces. -/
lemma foldlM_value {pieces : List String} {params params' : HashMap String String}
    {key value : String} (h : pieces.foldlM insertPair params = some params')
    (hvalue : params' key = some value) : params key = some value ∨
      ∃ piece ∈ pieces, percentDecode (valueText piece) = some value := by
  induction pieces generalizing params with
  | nil =>
    cases h
    exact Or.inl hvalue
  | cons piece pieces ih =>
    rw [List.foldlM_cons] at h
    obtain ⟨params₁, hfirst, hrest⟩ := Option.bind_eq_some_iff.mp h
    rcases ih hrest with hold | ⟨later, hlater, hdecode⟩
    · rcases insertPair_value hfirst hold with hparams | hdecode
      · exact Or.inl hparams
      · exact Or.inr ⟨piece, List.mem_cons_self, hdecode⟩
    · exact Or.inr ⟨later, List.mem_cons_of_mem _ hlater, hdecode⟩

lemma infix_of_mem_splitOn {c : Char} {piece text : List Char} (h : piece ∈ text.splitOn c) :
    piece <:+: text := by
  induction hlength : text.length using Nat.strong_induction_on generalizing text with
  | _ n ih =>
    by_cases hc : c ∈ text
    · obtain ⟨before, after, rfl, hbefore⟩ := List.eq_append_cons_of_mem hc
      rw [List.splitOn_append_cons_self_of_not_mem hbefore, List.mem_cons] at h
      rcases h with rfl | h
      · exact (List.prefix_append _ _).isInfix
      · have hshort : after.length < n := by
          rw [← hlength, List.length_append, List.length_cons]
          omega
        have hin := ih after.length hshort h rfl
        exact hin.trans ((List.suffix_cons c after).trans (List.suffix_append before _)).isInfix
    · rw [List.splitOn_eq_singleton hc, List.mem_singleton] at h
      rw [h]

lemma length_intoBytes_of_infix {s t : String} (h : s.toList <:+: t.toList) :
    (intoBytes s).length ≤ (intoBytes t).length := by
  obtain ⟨pre, post, h⟩ := h
  rw [intoBytes_eq, intoBytes_eq, ← h]
  simp only [List.flatMap_append, List.length_append]
  omega

lemma length_valueText_le (piece : String) :
    (intoBytes (valueText piece)).length ≤ (intoBytes piece).length := by
  unfold valueText
  cases hsplit : Str.splitOnce piece '=' with
  | none => exact Nat.zero_le _
  | some parts =>
    obtain ⟨key, value⟩ := parts
    obtain ⟨htext, -⟩ := Str.splitOnce_eq_some_iff.mp hsplit
    apply length_intoBytes_of_infix
    rw [Option.getD_some, htext]
    exact ((List.suffix_cons '=' value.toList).trans (List.suffix_append _ _)).isInfix

lemma splitOnce_assignment {key : String} (hkey : '=' ∉ key.toList) (text : String) :
    Str.splitOnce (key ++ "=" ++ text) '=' = some (key, text) :=
  Str.splitOnce_eq_some_iff.mpr ⟨by simp, hkey⟩

/-- An ampersand in the value cuts it: no piece has all of it. -/
lemma length_valueText_lt {key value piece : String} (hkey : '=' ∉ key.toList ∧ '&' ∉ key.toList)
    (hamp : '&' ∈ value.toList) (hpiece : piece ∈ Str.split (key ++ "=" ++ value) '&') :
    (intoBytes (valueText piece)).length < (intoBytes value).length := by
  obtain ⟨before, after, hcut, hbefore⟩ := List.eq_append_cons_of_mem hamp
  have htext : (key ++ "=" ++ value).toList =
      (key ++ "=" ++ String.ofList before).toList ++ '&' :: after := by simp [hcut]
  have hfirst : '&' ∉ (key ++ "=" ++ String.ofList before).toList := by simp [hkey.2, hbefore]
  have hbytes : (intoBytes value).length = (intoBytes (String.ofList before)).length + 1 +
      (intoBytes (String.ofList after)).length := by
    have hone : (String.utf8EncodeChar '&').length = 1 := rfl
    simp only [intoBytes_eq, hcut, String.toList_ofList, List.flatMap_append, List.flatMap_cons,
      List.length_append, hone]
    omega
  rw [Str.split, htext, List.splitOn_append_cons_self_of_not_mem hfirst, List.map_cons,
    String.ofList_toList, List.mem_cons, List.mem_map] at hpiece
  rcases hpiece with rfl | ⟨part, hpart, rfl⟩
  · have hvalue : valueText (key ++ "=" ++ String.ofList before) = String.ofList before := by
      rw [valueText, splitOnce_assignment hkey.1, Option.getD_some]
    rw [hvalue]
    omega
  · have hvalue := length_valueText_le (String.ofList part)
    have hle : (intoBytes (String.ofList part)).length ≤ (intoBytes (String.ofList after)).length := by
      apply length_intoBytes_of_infix
      rw [String.toList_ofList, String.toList_ofList]
      exact infix_of_mem_splitOn hpart
    omega

/-- No piece has more than the value. -/
lemma length_valueText_le_value {key value piece : String}
    (hkey : '=' ∉ key.toList ∧ '&' ∉ key.toList) (hpiece : piece ∈ Str.split (key ++ "=" ++ value) '&') :
    (intoBytes (valueText piece)).length ≤ (intoBytes value).length := by
  by_cases hamp : '&' ∈ value.toList
  · exact (length_valueText_lt hkey hamp hpiece).le
  · have hnot : '&' ∉ (key ++ "=" ++ value).toList := by simp [hkey.2, hamp]
    rw [Str.split, List.splitOn_eq_singleton hnot, List.map_cons, List.map_nil, String.ofList_toList,
      List.mem_singleton] at hpiece
    rw [hpiece, valueText, splitOnce_assignment hkey.1, Option.getD_some]

lemma foldlM_insertPair_single {key : String} (hkey : '=' ∉ key.toList)
    (hdecode : percentDecode key = some key) (value : String) : ∃ decoded, percentDecode value = some decoded ∧
      [key ++ "=" ++ value].foldlM insertPair HashMap.empty =
        some (HashMap.empty.insert key decoded) := by
  have hne : key ++ "=" ++ value ≠ "" := by
    intro h
    have hnone : Str.splitOnce "" '=' = none := by decide
    have hsome := splitOnce_assignment hkey value
    rw [h, hnone] at hsome
    cases hsome
  refine ⟨_, percentDecode_eq value, ?_⟩
  rw [List.foldlM_cons, insertPair, if_neg hne, splitOnce_assignment hkey]
  simp only [Option.getD_some, hdecode, percentDecode_eq value]
  rfl

lemma splitPathAndQuery_assignment {path : String} (hpath : '?' ∉ path.toList) (key value : String) :
    splitPathAndQuery (path ++ "?" ++ key ++ "=" ++ value) =
      ((Str.split (key ++ "=" ++ value) '&').foldlM insertPair HashMap.empty).map (path, ·) := by
  have hsplit : Str.splitOnce (path ++ "?" ++ key ++ "=" ++ value) '?' =
      some (path, key ++ "=" ++ value) := Str.splitOnce_eq_some_iff.mpr ⟨by simp, hpath⟩
  rw [splitPathAndQuery, hsplit]
  simp only [Option.getD_some]
  cases (Str.split (key ++ "=" ++ value) '&').foldlM insertPair HashMap.empty <;> rfl

/-- What is read of an assignment is no longer than its value. -/
lemma length_parameter_le {path key value : String} (hpath : '?' ∉ path.toList)
    (hkey : '=' ∉ key.toList ∧ '&' ∉ key.toList) {read : String × HashMap String String}
    (h : splitPathAndQuery (path ++ "?" ++ key ++ "=" ++ value) = some read) {name v : String}
    (hv : read.2 name = some v) : (intoBytes v).length ≤ (intoBytes value).length := by
  rw [splitPathAndQuery_assignment hpath] at h
  obtain ⟨params, hfold, rfl⟩ := Option.map_eq_some_iff.mp h
  rcases foldlM_value hfold hv with hempty | ⟨piece, hmem, hpiece⟩
  · cases hempty
  · exact (length_percentDecode_le hpiece).trans (length_valueText_le_value hkey hmem)

/-- Exactly when the one parameter of a query is read as it was written. -/
theorem splitPathAndQuery_raw_iff {path key : String} (hpath : '?' ∉ path.toList)
    (hkey : '=' ∉ key.toList ∧ '&' ∉ key.toList) (hdecode : percentDecode key = some key)
    (value : String) :
    (∃ read, splitPathAndQuery (path ++ "?" ++ key ++ "=" ++ value) = some read ∧
      read.2 key = some value) ↔
      '&' ∉ value.toList ∧ 43 ∉ intoBytes value ∧ ¬HasEscape (intoBytes value) := by
  rw [splitPathAndQuery_assignment hpath]
  by_cases hamp : '&' ∈ value.toList
  · simp only [hamp, not_true_eq_false, false_and, iff_false]
    rintro ⟨read, hparams, hvalue⟩
    obtain ⟨params, hfold, rfl⟩ := Option.map_eq_some_iff.mp hparams
    rcases foldlM_value hfold hvalue with hempty | ⟨piece, hmem, hpiece⟩
    · cases hempty
    · have hle := length_percentDecode_le hpiece
      have hlt := length_valueText_lt hkey hamp hmem
      omega
  · have hpieces : Str.split (key ++ "=" ++ value) '&' = [key ++ "=" ++ value] := by
      have hnot : '&' ∉ (key ++ "=" ++ value).toList := by simp [hkey.2, hamp]
      rw [Str.split, List.splitOn_eq_singleton hnot, List.map_cons, List.map_nil, String.ofList_toList]
    obtain ⟨decoded, hdecoded, hfold⟩ := foldlM_insertPair_single hkey.1 hdecode value
    rw [← percentDecode_eq_self_iff, hpieces, hfold, hdecoded]
    simp [hamp]

/-- The path and the last value of every key come back. -/
lemma splitPathAndQuery_form {path : String} (hpath : '?' ∉ path.toList)
    (pairs : List (String × String)) :
    splitPathAndQuery (path ++ "?" ++ urlEncodeForm pairs) =
      some (path, fun key => lastValue key pairs) := by
  have hsplit : Str.splitOnce (path ++ "?" ++ urlEncodeForm pairs) '?' =
      some (path, urlEncodeForm pairs) := Str.splitOnce_eq_some_iff.mpr ⟨by simp, hpath⟩
  have hparams : (Str.split (urlEncodeForm pairs) '&').foldlM insertPair HashMap.empty =
      some (fun key => lastValue key pairs) := by
    by_cases h : pairs = []
    · subst h
      have hnone : Str.split (urlEncodeForm []) '&' = [""] := by decide
      rw [hnone]
      rfl
    · rw [split_urlEncodeForm h, foldlM_insertPair]
      congr 1
      funext key
      exact foldl_insert key pairs
  rw [splitPathAndQuery, hsplit]
  simp only [Option.getD_some, hparams]
  rfl

/-- Decoding a query undoes encoding a form. -/
theorem splitPathAndQuery_urlEncodeForm :
    (∀ path pairs, '?' ∉ path.toList →
      ∃ params, splitPathAndQuery (path ++ "?" ++ urlEncodeForm pairs) = some (path, params) ∧
        ∀ key, params key = lastValue key pairs) ∧
    (∀ s, percentDecode (percentEncode s) = some s) ∧
    (∀ s, ∃ t, percentDecode s = some t) := by
  refine ⟨?_, percentDecode_percentEncode, fun s => ⟨_, percentDecode_eq s⟩⟩
  intro path pairs hpath
  exact ⟨_, splitPathAndQuery_form hpath pairs, fun _ => rfl⟩

/-- A key given twice, and separators in the values. -/
theorem splitPathAndQuery_repeatedKey : ∃ params,
    splitPathAndQuery ("/me/" ++ "?" ++ urlEncodeForm [("k", "a&b=c"), ("k", "+%?é")]) =
      some ("/me/", params) ∧
      ∀ key, params key = lastValue key [("k", "a&b=c"), ("k", "+%?é")] :=
  splitPathAndQuery_urlEncodeForm.1 "/me/" [("k", "a&b=c"), ("k", "+%?é")] (by decide)

end Query

end Laye
