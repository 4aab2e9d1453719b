import Laye.Text
import Laye.Wire
import Laye.Lib.Utf8

/-!
# The hex codec on any text

Every key and every signature is text of `hex_lower` on the wire, and is read by `hex_decode`.
-/

namespace Laye

def HexDigit (c : Char) : Prop :=
  ('0' ≤ c ∧ c ≤ '9') ∨ ('a' ≤ c ∧ c ≤ 'f') ∨ ('A' ≤ c ∧ c ≤ 'F')

instance : DecidablePred HexDigit := fun _ => inferInstanceAs (Decidable (_ ∨ _))

/-! ### Digits -/

lemma hexNibble_isOk_iff {b : UInt8} :
    (∃ i, hexNibble b = .ok i) ↔ (48 ≤ b ∧ b ≤ 57) ∨ (97 ≤ b ∧ b ≤ 102) ∨ (65 ≤ b ∧ b ≤ 70) := by
  unfold hexNibble
  split_ifs <;> simp_all

/-- A digit that is read is written in lower case. -/
lemma hexChar_of_hexNibble {b i : UInt8} (h : hexNibble b = .ok i) :
    i.toNat < 16 ∧ hexChar i = (Char.ofNat b.toNat).toLower := by
  have hall : ∀ n : Fin 256, ((hexNibble (UInt8.ofNat n.val)).toOption.all fun i =>
      i.toNat < 16 && hexChar i == (Char.ofNat n.val).toLower) = true := by
    decide +kernel
  have hb := hall ⟨b.toNat, b.toNat_lt⟩
  rw [UInt8.ofNat_toNat, h] at hb
  simpa [Except.toOption] using hb

lemma nibbles_split {hi lo : UInt8} (hhi : hi.toNat < 16) (hlo : lo.toNat < 16) :
    ((hi <<< 4) ||| lo) >>> 4 = hi ∧ ((hi <<< 4) ||| lo) &&& 0x0f = lo := by
  have hall : ∀ m n : Fin 16,
      ((UInt8.ofNat m.val <<< 4) ||| UInt8.ofNat n.val) >>> 4 = UInt8.ofNat m.val ∧
        ((UInt8.ofNat m.val <<< 4) ||| UInt8.ofNat n.val) &&& 0x0f = UInt8.ofNat n.val := by
    decide
  simpa using hall ⟨hi.toNat, hhi⟩ ⟨lo.toNat, hlo⟩

lemma hexDecodeChunk_eq_ok {a b v : UInt8} :
    hexDecodeChunk [a, b] = .ok v ↔
      ∃ hi lo, hexNibble a = .ok hi ∧ hexNibble b = .ok lo ∧ (hi <<< 4) ||| lo = v := by
  simp [hexDecodeChunk, bind_eq_ok, pure, Except.pure]

/-! ### Pairs of digits -/

lemma mapM_cons_eq_ok {α β ε : Type} {f : α → Except ε β} {x : α} {xs : List α} {out : List β} :
    (x :: xs).mapM f = .ok out ↔ ∃ y ys, f x = .ok y ∧ xs.mapM f = .ok ys ∧ y :: ys = out := by
  simp [List.mapM_cons, bind_eq_ok, pure, Except.pure]

lemma even_rest {a b : UInt8} {rest : Bytes} (h : (a :: b :: rest).length % 2 = 0) :
    rest.length % 2 = 0 := by
  simp only [List.length_cons] at h
  omega

lemma chunks2_length {bytes : Bytes} (heven : bytes.length % 2 = 0) :
    ∀ chunk ∈ chunks2 bytes, chunk.length = 2 := by
  induction bytes using chunks2.induct with
  | case1 => simp [chunks2]
  | case2 a => simp at heven
  | case3 a b rest ih =>
    simp only [chunks2, List.forall_mem_cons]
    exact ⟨rfl, ih (even_rest heven)⟩

/-- An even number of bytes decodes when each is a digit. -/
lemma chunks_isOk_iff {bytes : Bytes} (heven : bytes.length % 2 = 0) :
    (∃ out, (chunks2 bytes).mapM hexDecodeChunk = .ok out) ↔
      ∀ b ∈ bytes, ∃ i, hexNibble b = .ok i := by
  induction bytes using chunks2.induct with
  | case1 => simp [chunks2, pure, Except.pure]
  | case2 a => simp at heven
  | case3 a b rest ih =>
    have ih := ih (even_rest heven)
    simp only [chunks2, List.forall_mem_cons, ← ih, mapM_cons_eq_ok, hexDecodeChunk_eq_ok]
    constructor
    · rintro ⟨-, v, vs, ⟨hi, lo, hhi, hlo, -⟩, hrest, -⟩
      exact ⟨⟨hi, hhi⟩, ⟨lo, hlo⟩, vs, hrest⟩
    · rintro ⟨⟨hi, hhi⟩, ⟨lo, hlo⟩, vs, hrest⟩
      exact ⟨_, _, vs, ⟨hi, lo, hhi, hlo, rfl⟩, hrest, rfl⟩

/-- What was decoded is written as the lower-case digits of what was read. -/
lemma chunks_toLower {bytes out : Bytes} (heven : bytes.length % 2 = 0)
    (h : (chunks2 bytes).mapM hexDecodeChunk = .ok out) :
    (hexLower out).toList = bytes.map (fun b => (Char.ofNat b.toNat).toLower) := by
  induction bytes using chunks2.induct generalizing out with
  | case1 =>
    cases h
    rfl
  | case2 a => simp at heven
  | case3 a b rest ih =>
    obtain ⟨v, vs, hv, hrest, rfl⟩ := mapM_cons_eq_ok.mp h
    obtain ⟨hi, lo, hhi, hlo, rfl⟩ := hexDecodeChunk_eq_ok.mp hv
    obtain ⟨hhi16, hhigh⟩ := hexChar_of_hexNibble hhi
    obtain ⟨hlo16, hlow⟩ := hexChar_of_hexNibble hlo
    obtain ⟨hleft, hright⟩ := nibbles_split hhi16 hlo16
    have ih := ih (even_rest heven) hrest
    rw [hexLower_toList] at ih ⊢
    rw [List.flatMap_cons, ih, hleft, hright, hhigh, hlow]
    rfl

/-! ### Characters -/

lemma hexDigit_iff_toNat {c : Char} :
    HexDigit c ↔ (48 ≤ c.toNat ∧ c.toNat ≤ 57) ∨ (97 ≤ c.toNat ∧ c.toNat ≤ 102) ∨
      (65 ≤ c.toNat ∧ c.toNat ≤ 70) := by
  simp only [HexDigit, Char.le_def, UInt32.le_iff_toNat_le]
  rfl

lemma HexDigit.lt {c : Char} (h : HexDigit c) : c.toNat < 128 := by
  rw [hexDigit_iff_toNat] at h
  omega

/-- No byte of a longer character is a digit. -/
lemma bytes_isOk_iff {c : Char} :
    (∀ b ∈ String.utf8EncodeChar c, ∃ i, hexNibble b = .ok i) ↔ HexDigit c := by
  simp only [hexNibble_isOk_iff, UInt8.le_iff_toNat_le]
  by_cases hc : c.toNat < 128
  · rw [Utf8.encodeChar_of_lt hc, List.forall_mem_singleton, hexDigit_iff_toNat, UInt8.toNat_ofNat',
      Nat.mod_eq_of_lt (by omega)]
    rfl
  · refine iff_of_false (fun hall => ?_) (fun h => hc h.lt)
    have hne : String.utf8EncodeChar c ≠ [] := List.ne_nil_of_length_pos (by
      rw [String.length_utf8EncodeChar]
      exact c.utf8Size_pos)
    obtain ⟨b, hb⟩ := List.exists_mem_of_ne_nil _ hne
    have hdigit := hall b hb
    have hlarge := Utf8.le_of_mem_encodeChar hc hb
    simp at hdigit
    omega

lemma intoBytes_of_digits {s : String} (h : ∀ c ∈ s.toList, HexDigit c) :
    intoBytes s = s.toList.map (fun c => UInt8.ofNat c.toNat) := by
  rw [intoBytes_eq, List.flatMap_congr fun c hc => Utf8.encodeChar_of_lt (h c hc).lt,
    List.map_eq_flatMap]

lemma hexDecode_eq_ok_iff {s : String} {bytes : Bytes} :
    hexDecode s = .ok bytes ↔
      (intoBytes s).length % 2 = 0 ∧ (chunks2 (intoBytes s)).mapM hexDecodeChunk = .ok bytes := by
  unfold hexDecode
  by_cases heven : (intoBytes s).length % 2 = 0 <;> simp [heven]

lemma digits_of_hexDecode {s : String} {bytes : Bytes} (h : hexDecode s = .ok bytes) :
    ∀ c ∈ s.toList, HexDigit c := by
  obtain ⟨heven, hok⟩ := hexDecode_eq_ok_iff.mp h
  have hall := (chunks_isOk_iff heven).mp ⟨bytes, hok⟩
  rw [intoBytes_eq, List.forall_mem_flatMap] at hall
  exact fun c hc => bytes_isOk_iff.mp (hall c hc)

lemma hexDecode_isOk_iff {s : String} :
    (∃ bytes, hexDecode s = .ok bytes) ↔
      s.toList.length % 2 = 0 ∧ ∀ c ∈ s.toList, HexDigit c := by
  constructor
  · rintro ⟨bytes, h⟩
    have hdigits := digits_of_hexDecode h
    obtain ⟨heven, -⟩ := hexDecode_eq_ok_iff.mp h
    rw [intoBytes_of_digits hdigits, List.length_map] at heven
    exact ⟨heven, hdigits⟩
  · rintro ⟨heven, hdigits⟩
    have hlen : (intoBytes s).length % 2 = 0 := by
      rw [intoBytes_of_digits hdigits, List.length_map]
      exact heven
    have hall : ∀ b ∈ intoBytes s, ∃ i, hexNibble b = .ok i := by
      rw [intoBytes_eq, List.forall_mem_flatMap]
      exact fun c hc => bytes_isOk_iff.mpr (hdigits c hc)
    obtain ⟨out, hout⟩ := (chunks_isOk_iff hlen).mpr hall
    exact ⟨out, hexDecode_eq_ok_iff.mpr ⟨hlen, hout⟩⟩

lemma hexLower_of_hexDecode {s : String} {bytes : Bytes} (h : hexDecode s = .ok bytes) :
    hexLower bytes = Str.toAsciiLowercase s := by
  have hdigits := digits_of_hexDecode h
  obtain ⟨heven, hok⟩ := hexDecode_eq_ok_iff.mp h
  apply String.toList_inj.mp
  rw [chunks_toLower heven hok, intoBytes_of_digits hdigits, List.map_map, Str.toAsciiLowercase,
    String.toList_ofList]
  refine List.map_congr_left fun c hc => ?_
  have hbyte : (UInt8.ofNat c.toNat).toNat = c.toNat := by
    have hlt := (hdigits c hc).lt
    rw [UInt8.toNat_ofNat']
    omega
  rw [Function.comp_apply, hbyte, Char.ofNat_toNat]

/-! ### Nothing goes wrong on the way -/

/-- `u8` addition where overflow is checked. -/
def u8Add (a b : UInt8) : Option UInt8 := if a.toNat + b.toNat < 256 then some (a + b) else none

/-- `u8` subtraction where overflow is checked. -/
def u8Sub (a b : UInt8) : Option UInt8 := if b ≤ a then some (a - b) else none

/-- `hex_nibble` with its arithmetic checked: `none` is a panic. -/
def hexNibbleChecked (c : UInt8) : ExceptT String Option UInt8 :=
  if 48 ≤ c ∧ c ≤ 57 then ExceptT.lift (u8Sub c 48)
  else if 97 ≤ c ∧ c ≤ 102 then ExceptT.lift (do u8Sub (← u8Add 10 c) 97)
  else if 65 ≤ c ∧ c ≤ 70 then ExceptT.lift (do u8Sub (← u8Add 10 c) 65)
  else
    let digits := hexLower [c]
    throw s!"non-hex byte: 0x{digits}"

/-- One turn of the decoder's loop, with its two indices checked. -/
def hexDecodeChunkChecked (chunk : Bytes) : ExceptT String Option UInt8 := do
  let hi ← hexNibbleChecked (← ExceptT.lift chunk[0]?)
  let lo ← hexNibbleChecked (← ExceptT.lift chunk[1]?)
  return (hi <<< 4) ||| lo

def hexDecodeChecked (s : String) : ExceptT String Option Bytes :=
  let len := (intoBytes s).length
  if len % 2 ≠ 0 then throw s!"hex length not even: {len}"
  else (chunks2 (intoBytes s)).mapM hexDecodeChunkChecked

/-- `hex_lower` with its indices checked. -/
def hexLowerChecked (bytes : Bytes) : Option String := do
  let digits ← bytes.mapM fun b : UInt8 => do
    return [← HEX[(b >>> 4).toNat]?, ← HEX[(b &&& 0x0f).toNat]?]
  return String.ofList digits.flatten

section Checked

variable {α β ε : Type}

lemma run_bind_some {x : ExceptT ε Option α} {y : Except ε α} {f : α → ExceptT ε Option β}
    {g : α → Except ε β} (hx : x.run = some y) (hf : ∀ a, (f a).run = some (g a)) :
    (x >>= f).run = some (y >>= g) := by
  rw [ExceptT.run_bind, hx]
  cases y with
  | error e => rfl
  | ok a => exact hf a

lemma run_mapM_some {f : α → ExceptT ε Option β} {g : α → Except ε β} {xs : List α}
    (h : ∀ x ∈ xs, (f x).run = some (g x)) : (xs.mapM f).run = some (xs.mapM g) := by
  induction xs with
  | nil => rfl
  | cons x xs ih =>
    obtain ⟨hx, hxs⟩ := List.forall_mem_cons.mp h
    rw [List.mapM_cons, List.mapM_cons]
    exact run_bind_some hx fun _ => run_bind_some (ih hxs) fun _ => rfl

end Checked

/-- The value of a letter: neither operation goes past a byte. -/
lemma letterChecked_eq {c first : UInt8} (hle : first ≤ c) (hlt : c ≤ 102) :
    (do u8Sub (← u8Add 10 c) first) = some (10 + c - first) := by
  rw [UInt8.le_iff_toNat_le] at hle hlt
  have hsum : (10 + c).toNat = 10 + c.toNat := by
    rw [UInt8.toNat_add]
    simp at hlt ⊢
    omega
  have hadd : u8Add 10 c = some (10 + c) := if_pos (by simp at hlt ⊢; omega)
  have hsub : u8Sub (10 + c) first = some (10 + c - first) :=
    if_pos (UInt8.le_iff_toNat_le.mpr (by omega))
  rw [hadd]
  exact hsub

lemma hexNibbleChecked_eq (c : UInt8) : (hexNibbleChecked c).run = some (hexNibble c) := by
  unfold hexNibbleChecked hexNibble
  by_cases hdigit : 48 ≤ c ∧ c ≤ 57
  · rw [if_pos hdigit, if_pos hdigit, u8Sub, if_pos hdigit.1]
    rfl
  · rw [if_neg hdigit, if_neg hdigit]
    by_cases hlower : 97 ≤ c ∧ c ≤ 102
    · rw [if_pos hlower, if_pos hlower, letterChecked_eq hlower.1 hlower.2]
      rfl
    · rw [if_neg hlower, if_neg hlower]
      by_cases hupper : 65 ≤ c ∧ c ≤ 70
      · have hlt : c ≤ 102 := UInt8.le_trans hupper.2 (by decide)
        rw [if_pos hupper, if_pos hupper, letterChecked_eq hupper.1 hlt]
        rfl
      · rw [if_neg hupper, if_neg hupper]
        rfl

lemma hexDecodeChunkChecked_eq {chunk : Bytes} (h : chunk.length = 2) :
    (hexDecodeChunkChecked chunk).run = some (hexDecodeChunk chunk) := by
  match chunk, h with
  | [a, b], _ =>
    have hindex : hexDecodeChunkChecked [a, b] =
        (hexNibbleChecked a >>= fun hi => hexNibbleChecked b >>= fun lo =>
          return (hi <<< 4) ||| lo) := rfl
    rw [hindex]
    exact run_bind_some (hexNibbleChecked_eq a) fun _ =>
      run_bind_some (hexNibbleChecked_eq b) fun _ => rfl

lemma hexDecodeChecked_eq (s : String) : (hexDecodeChecked s).run = some (hexDecode s) := by
  unfold hexDecodeChecked hexDecode
  by_cases heven : (intoBytes s).length % 2 = 0
  · simp only [heven, ne_eq, not_true_eq_false, if_false]
    exact run_mapM_some fun chunk hchunk =>
      hexDecodeChunkChecked_eq (chunks2_length heven chunk hchunk)
  · simp only [ne_eq, heven, not_false_eq_true, if_true]
    rfl

lemma getElem?_HEX {i : UInt8} (h : i.toNat < 16) : HEX[i.toNat]? = some (hexChar i) := by
  rw [hexChar, List.getD_eq_getElem _ _ h]
  exact List.getElem?_eq_getElem h

lemma hexLowerChecked_eq (bytes : Bytes) : hexLowerChecked bytes = some (hexLower bytes) := by
  have hpairs : (bytes.mapM fun b : UInt8 => do
      return [← HEX[(b >>> 4).toNat]?, ← HEX[(b &&& 0x0f).toNat]?] : Option (List (List Char))) =
      some (bytes.map fun b : UInt8 => [hexChar (b >>> 4), hexChar (b &&& 0x0f)]) := by
    induction bytes with
    | nil => rfl
    | cons b bytes ih =>
      rw [List.mapM_cons, ih, getElem?_HEX (high_nibble_lt b), getElem?_HEX (low_nibble_lt b)]
      rfl
  rw [hexLowerChecked, hpairs, hexLower, List.flatMap_def]
  rfl

/-- `hex_decode` takes what `hex_lower` writes, and every text of an even number of digits in either
case; it is read as what it says. No operation of the two can panic. -/
theorem hexCodec_exact (bytes : Bytes) (s : String) :
    hexDecode (hexLower bytes) = .ok bytes ∧
      ((∃ decoded, hexDecode s = .ok decoded) ↔
        s.toList.length % 2 = 0 ∧ ∀ c ∈ s.toList, HexDigit c) ∧
      (∀ decoded, hexDecode s = .ok decoded → hexLower decoded = Str.toAsciiLowercase s) ∧
      (hexDecodeChecked s).run = some (hexDecode s) ∧
      hexLowerChecked bytes = some (hexLower bytes) :=
  ⟨hexDecode_hexLower bytes, hexDecode_isOk_iff, fun _ => hexLower_of_hexDecode,
    hexDecodeChecked_eq s, hexLowerChecked_eq bytes⟩

/-! ### Fields on the wire -/

lemma hexBytesVec_eq_some_iff {s : String} {bytes : Bytes} :
    Json.hexBytesVec (some (.string s)) = some bytes ↔
      (∀ c ∈ s.toList, HexDigit c) ∧ Str.toAsciiLowercase s = hexLower bytes := by
  have hfield : Json.hexBytesVec (some (.string s)) = some bytes ↔ hexDecode s = .ok bytes := by
    cases hs : hexDecode s <;> simp [Json.hexBytesVec, Json.stringField, hs, Except.toOption]
  rw [hfield]
  constructor
  · intro h
    exact ⟨digits_of_hexDecode h, (hexLower_of_hexDecode h).symm⟩
  · rintro ⟨hdigits, hlower⟩
    have hlen := congrArg (fun t => t.toList.length) hlower
    simp only [Str.toAsciiLowercase, String.toList_ofList, List.length_map, hexLower_length] at hlen
    obtain ⟨decoded, hdecoded⟩ := hexDecode_isOk_iff.mpr ⟨by omega, hdigits⟩
    have hsame := (hexLower_of_hexDecode hdecoded).trans hlower
    rw [hdecoded, hexLower_inj.mp hsame]

/-- A key field is read from its 64 digits, in either case, and from nothing else. -/
theorem hexBytes32_eq_some_iff {s : String} {key : PubKey} :
    Json.hexBytes32 (some (.string s)) = some key ↔
      (∀ c ∈ s.toList, HexDigit c) ∧ Str.toAsciiLowercase s = hexLower key.bytes := by
  rw [← hexBytesVec_eq_some_iff]
  cases hs : Json.hexBytesVec (some (.string s)) with
  | none => simp [Json.hexBytes32, hs]
  | some bytes =>
    obtain ⟨keyBytes, hkey⟩ := key
    simp only [Json.hexBytes32, hs, Option.bind_eq_bind, Option.bind_some, Option.some.injEq]
    by_cases hlen : bytes.length = 32
    · simp [hlen]
    · rw [dif_neg hlen]
      refine iff_of_false (fun h => by cases h) ?_
      rintro rfl
      exact hlen hkey

end Laye
