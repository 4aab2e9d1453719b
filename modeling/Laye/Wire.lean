import Mathlib.Data.List.GetD
import Mathlib.Tactic.Common

/-!
# Bytes, hex and JSON documents

The byte strings, public keys and JSON documents that travel between browser peers and the
relay. The hex codec is the one of `crates/me`. The text of a JSON document is read and
written by `serde_json`, which is a parameter; what the derived decoders do with a document
once it is read is spelled out here.
-/

namespace Laye

abbrev Bytes := List UInt8

lemma bind_eq_ok {ε α β : Type} {x : Except ε α} {f : α → Except ε β} {b : β} :
    x >>= f = .ok b ↔ ∃ a, x = .ok a ∧ f a = .ok b := by
  cases x <;> simp [bind, Except.bind]

/-- `String::into_bytes`: the UTF-8 bytes of a string. -/
def intoBytes (s : String) : Bytes := s.toByteArray.data.toList

lemma intoBytes_inj {s t : String} : intoBytes s = intoBytes t ↔ s = t := by
  unfold intoBytes
  rw [Array.toList_inj, ← ByteArray.ext_iff, String.toByteArray_inj]

lemma intoBytes_eq (s : String) : intoBytes s = s.toList.flatMap String.utf8EncodeChar := by
  unfold intoBytes
  rw [← String.utf8Encode_toList]
  simp [List.utf8Encode]

lemma intoBytes_append (s t : String) : intoBytes (s ++ t) = intoBytes s ++ intoBytes t := by
  simp only [intoBytes_eq, String.toList_append, List.flatMap_append]

/-- `str::from_utf8` -/
def fromUtf8 (bytes : Bytes) : Option String := String.fromUTF8? ⟨bytes.toArray⟩

lemma fromUtf8_eq_some {bytes : Bytes} {s : String} : fromUtf8 bytes = some s ↔ intoBytes s = bytes := by
  unfold fromUtf8 String.fromUTF8? intoBytes
  constructor
  · intro h
    split at h
    · rw [← Option.some.inj h]
      rfl
    · cases h
  · rintro rfl
    rw [dif_pos s.isValidUTF8]
    rfl

/-- `[u8; 32]`. -/
structure PubKey where
  bytes : Bytes
  length_eq : bytes.length = 32
deriving DecidableEq

/-- The key `[b; 32]`. -/
def PubKey.replicate (b : UInt8) : PubKey := ⟨List.replicate 32 b, List.length_replicate⟩

/-! ### The hex codec of `crates/me` -/

def HEX : List Char :=
  ['0', '1', '2', '3', '4', '5', '6', '7', '8', '9', 'a', 'b', 'c', 'd', 'e', 'f']

/-- `HEX[i as usize]`; the callers' indices are nibbles. -/
def hexChar (i : UInt8) : Char := HEX.getD i.toNat '0'

def hexLower (bytes : Bytes) : String :=
  String.ofList (bytes.flatMap (fun b : UInt8 => [hexChar (b >>> 4), hexChar (b &&& 0x0f)]))

def hexNibble (c : UInt8) : Except String UInt8 :=
  if 48 ≤ c ∧ c ≤ 57 then .ok (c - 48)
  else if 97 ≤ c ∧ c ≤ 102 then .ok (10 + c - 97)
  else if 65 ≤ c ∧ c ≤ 70 then .ok (10 + c - 65)
  else
    let digits := hexLower [c]
    .error s!"non-hex byte: 0x{digits}"

/-- `slice::chunks(2)`: a last chunk of one element when the length is odd. -/
def chunks2 : Bytes → List Bytes
  | [] => []
  | [a] => [[a]]
  | a :: b :: rest => [a, b] :: chunks2 rest

/-- One turn of the decoder's loop. -/
def hexDecodeChunk (chunk : Bytes) : Except String UInt8 := do
  let hi ← hexNibble chunk[0]!
  let lo ← hexNibble chunk[1]!
  return (hi <<< 4) ||| lo

def hexDecode (s : String) : Except String Bytes :=
  let len := (intoBytes s).length
  if len % 2 ≠ 0 then .error s!"hex length not even: {len}"
  else (chunks2 (intoBytes s)).mapM hexDecodeChunk

lemma hexLower_toList (bytes : Bytes) :
    (hexLower bytes).toList =
      bytes.flatMap (fun b : UInt8 => [hexChar (b >>> 4), hexChar (b &&& 0x0f)]) := by
  simp [hexLower]

lemma hexChar_mem (i : UInt8) : hexChar i ∈ HEX := by
  unfold hexChar
  by_cases h : i.toNat < HEX.length
  · rw [List.getD_eq_getElem _ _ h]
    exact List.getElem_mem h
  · rw [List.getD_eq_default _ _ (Nat.le_of_not_lt h)]
    decide

/-- Hex text consists of hex digits only. -/
lemma mem_HEX_of_mem_hexLower {bytes : Bytes} {c : Char} (h : c ∈ (hexLower bytes).toList) :
    c ∈ HEX := by
  rw [hexLower_toList, List.mem_flatMap] at h
  obtain ⟨b, _, hb⟩ := h
  simp only [List.mem_cons, List.not_mem_nil, or_false] at hb
  rcases hb with rfl | rfl <;> exact hexChar_mem _

lemma length_flatMap_pair {α : Type} (f g : UInt8 → α) (bytes : Bytes) :
    (bytes.flatMap (fun b => [f b, g b])).length = 2 * bytes.length := by
  induction bytes with
  | nil => rfl
  | cons b bytes ih =>
    simp only [List.flatMap_cons, List.length_append, List.length_cons, List.length_nil, ih]
    omega

lemma hexLower_length (bytes : Bytes) : (hexLower bytes).toList.length = 2 * bytes.length := by
  rw [hexLower_toList, length_flatMap_pair]

lemma hexChar_inj {i j : UInt8} (hi : i.toNat < 16) (hj : j.toNat < 16)
    (h : hexChar i = hexChar j) : i = j := by
  have hdigits : ∀ m n : Fin 16, HEX.getD m.val '0' = HEX.getD n.val '0' → m = n := by decide
  have hij := hdigits ⟨i.toNat, hi⟩ ⟨j.toNat, hj⟩ h
  exact UInt8.toNat_inj.mp (Fin.mk.inj hij)

lemma toNat_high_nibble (b : UInt8) : (b >>> 4).toNat = b.toNat / 16 := by
  rw [UInt8.toNat_shiftRight, Nat.shiftRight_eq_div_pow]
  rfl

lemma toNat_low_nibble (b : UInt8) : (b &&& 0x0f).toNat = b.toNat % 16 := by
  rw [UInt8.toNat_and]
  exact Nat.and_two_pow_sub_one_eq_mod b.toNat 4

lemma high_nibble_lt (b : UInt8) : (b >>> 4).toNat < 16 := by
  have hb := b.toNat_lt
  rw [toNat_high_nibble]
  omega

lemma low_nibble_lt (b : UInt8) : (b &&& 0x0f).toNat < 16 := by
  rw [toNat_low_nibble]
  omega

/-- The two digits of a byte determine it. -/
lemma hexChar_pair_inj {a b : UInt8} (hhi : hexChar (a >>> 4) = hexChar (b >>> 4))
    (hlo : hexChar (a &&& 0x0f) = hexChar (b &&& 0x0f)) : a = b := by
  have h1 := congrArg UInt8.toNat (hexChar_inj (high_nibble_lt a) (high_nibble_lt b) hhi)
  have h2 := congrArg UInt8.toNat (hexChar_inj (low_nibble_lt a) (low_nibble_lt b) hlo)
  rw [toNat_high_nibble, toNat_high_nibble] at h1
  rw [toNat_low_nibble, toNat_low_nibble] at h2
  apply UInt8.toNat_inj.mp
  omega

lemma hexLower_inj {a b : Bytes} : hexLower a = hexLower b ↔ a = b := by
  constructor
  · intro h
    have hchars := congrArg String.toList h
    rw [hexLower_toList, hexLower_toList] at hchars
    induction a generalizing b with
    | nil =>
      cases b with
      | nil => rfl
      | cons y b => simp at hchars
    | cons x a ih =>
      cases b with
      | nil => simp at hchars
      | cons y b =>
        simp only [List.flatMap_cons, List.cons_append, List.nil_append, List.cons.injEq] at hchars
        obtain ⟨hhi, hlo, hrest⟩ := hchars
        have hab : a = b := ih (by rw [← String.toList_inj, hexLower_toList, hexLower_toList, hrest])
          hrest
        rw [hexChar_pair_inj hhi hlo, hab]
  · rintro rfl
    rfl

/-- The one byte of a hex digit in UTF-8. -/
def hexByte (i : UInt8) : UInt8 := UInt8.ofNat (hexChar i).toNat

lemma utf8EncodeChar_hexChar (i : UInt8) : String.utf8EncodeChar (hexChar i) = [hexByte i] := by
  have hascii : HEX.all (fun c => String.utf8EncodeChar c == [UInt8.ofNat c.toNat]) = true := by
    decide
  exact eq_of_beq (List.all_eq_true.mp hascii _ (hexChar_mem i))

lemma intoBytes_hexLower (bytes : Bytes) :
    intoBytes (hexLower bytes) =
      bytes.flatMap (fun b : UInt8 => [hexByte (b >>> 4), hexByte (b &&& 0x0f)]) := by
  rw [intoBytes_eq, hexLower_toList, List.flatMap_assoc]
  simp only [List.flatMap_cons, List.flatMap_nil, utf8EncodeChar_hexChar, List.cons_append,
    List.nil_append]

lemma hexNibble_hexByte {i : UInt8} (h : i.toNat < 16) : hexNibble (hexByte i) = .ok i := by
  have hall : ∀ n : Fin 16, (hexNibble (hexByte (UInt8.ofNat n.val))).toOption =
      some (UInt8.ofNat n.val) := by decide
  have hi := hall ⟨i.toNat, h⟩
  rw [UInt8.ofNat_toNat] at hi
  cases hn : hexNibble (hexByte i) with
  | error e => simp [hn, Except.toOption] at hi
  | ok v => simpa [hn, Except.toOption] using hi

lemma nibbles_join (b : UInt8) : ((b >>> 4) <<< 4) ||| (b &&& 0x0f) = b := by
  have hall : ∀ v : BitVec 8, ((v >>> 4) <<< 4) ||| (v &&& 0x0f#8) = v := by decide
  apply UInt8.toBitVec_inj.mp
  simpa using hall b.toBitVec

lemma chunks2_pairs (bytes : Bytes) (f g : UInt8 → UInt8) :
    chunks2 (bytes.flatMap (fun b => [f b, g b])) = bytes.map (fun b => [f b, g b]) := by
  induction bytes with
  | nil => rfl
  | cons b bytes ih => simp [chunks2, ih]

lemma hexDecodeChunk_pair (b : UInt8) :
    hexDecodeChunk [hexByte (b >>> 4), hexByte (b &&& 0x0f)] = .ok b := by
  have hhi : hexNibble (hexByte (b >>> 4)) = .ok (b >>> 4) :=
    hexNibble_hexByte (high_nibble_lt b)
  have hlo : hexNibble (hexByte (b &&& 0x0f)) = .ok (b &&& 0x0f) :=
    hexNibble_hexByte (low_nibble_lt b)
  simp only [hexDecodeChunk, List.getElem!_cons_zero, List.getElem!_cons_succ, hhi, hlo]
  exact congrArg Except.ok (nibbles_join b)

/-- Decoding undoes encoding. -/
theorem hexDecode_hexLower (bytes : Bytes) : hexDecode (hexLower bytes) = .ok bytes := by
  have hlen : (intoBytes (hexLower bytes)).length = 2 * bytes.length := by
    rw [intoBytes_hexLower, length_flatMap_pair]
  have hmap : (bytes.map (fun b : UInt8 => [hexByte (b >>> 4), hexByte (b &&& 0x0f)])).mapM
      hexDecodeChunk = .ok bytes := by
    clear hlen
    induction bytes with
    | nil => rfl
    | cons b bytes ih =>
      rw [List.map_cons, List.mapM_cons, hexDecodeChunk_pair, ih]
      rfl
  unfold hexDecode
  simp only [hlen, Nat.mul_mod_right, ne_eq, not_true_eq_false, if_false]
  rw [intoBytes_hexLower, chunks2_pairs, hmap]

/-! ### JSON documents -/

/-- `serde_json::Number`. -/
inductive JsonNumber
  | posInt (n : UInt64)
  | negInt (n : Int)
  | float (text : String)
deriving DecidableEq

/-- `serde_json::Value`. An object keeps its members as the text lists them. -/
inductive Json
  | null
  | bool (b : Bool)
  | number (n : JsonNumber)
  | string (s : String)
  | array (items : List Json)
  | object (members : List (String × Json))

namespace Json

/-- `Value::get` on an object: of members with one name the last is kept. -/
def get (key : String) : Json → Option Json
  | .object members => (members.reverse.find? (fun m => m.1 == key)).map Prod.snd
  | _ => none

def asStr : Json → Option String
  | .string s => some s
  | _ => none

def asArray : Json → Option (List Json)
  | .array items => some items
  | _ => none

/-- The members a derived `Deserialize` reads for the fields `names`: unknown members are
skipped, a repeated field is an error. A struct may also be written as an array of its fields,
of which the first `required` must be there. -/
def structFields (names : List String) (required : Nat) : Json → Option (List (Option Json))
  | .object members => names.mapM fun name =>
    match members.filter (fun m => m.1 == name) with
    | [] => some none
    | [m] => some (some m.2)
    | _ => none
  | .array items =>
    if required ≤ items.length ∧ items.length ≤ names.length then
      some (items.map some ++ List.replicate (names.length - items.length) none)
    else none
  | _ => none

def stringField : Option Json → Option String
  | some (.string s) => some s
  | _ => none

/-- An `Option<String>` field may be absent or `null`. -/
def optionStringField : Option Json → Option (Option String)
  | none => some none
  | some .null => some none
  | some (.string s) => some (some s)
  | _ => none

def u64Field : Option Json → Option UInt64
  | some (.number (.posInt n)) => some n
  | _ => none

/-- `hex_bytes_vec::deserialize`. -/
def hexBytesVec (field : Option Json) : Option Bytes := do
  let s ← stringField field
  (hexDecode s).toOption

/-- `hex_bytes_32::deserialize`. -/
def hexBytes32 (field : Option Json) : Option PubKey := do
  let bytes ← hexBytesVec field
  if h : bytes.length = 32 then some ⟨bytes, h⟩ else none

@[simp] lemma hexBytesVec_hexLower (bytes : Bytes) :
    hexBytesVec (some (.string (hexLower bytes))) = some bytes := by
  simp [hexBytesVec, stringField, hexDecode_hexLower, Except.toOption]

@[simp] lemma hexBytes32_hexLower (key : PubKey) :
    hexBytes32 (some (.string (hexLower key.bytes))) = some key := by
  simp [hexBytes32, key.length_eq]

end Json

/-- What the code uses of `serde_json`: writing a document, reading one, and the text of the
error a typed read reports on a document of another shape. -/
structure SerdeJson where
  toVec : Json → Bytes
  fromSlice : Bytes → Except String Json
  shapeError : Bytes → String

/-- `serde_json::from_slice::<T>` for the derived decoder `decode` of `T`. -/
def SerdeJson.read {α : Type} (serde : SerdeJson) (decode : Json → Option α) (bytes : Bytes) :
    Except String α :=
  match serde.fromSlice bytes with
  | .error e => .error e
  | .ok doc =>
    match decode doc with
    | some value => .ok value
    | none => .error (serde.shapeError bytes)

/-- A `serde_json` that has met one text, with the document it holds. -/
def SerdeJson.single (text : Bytes) (doc : Json) : SerdeJson where
  toVec _ := text
  fromSlice bytes := if bytes = text then .ok doc else .error "expected value"
  shapeError _ := "invalid type"

lemma SerdeJson.read_single {α : Type} {decode : Json → Option α} {text : Bytes} {doc : Json}
    {value : α} (h : decode doc = some value) :
    (SerdeJson.single text doc).read decode text = .ok value := by
  simp [SerdeJson.read, SerdeJson.single, h]

/-- A `serde_json` that knows the documents of some texts. -/
def SerdeJson.ofTexts (texts : List (Bytes × Json)) : SerdeJson where
  toVec _ := []
  fromSlice bytes := (texts.lookup bytes).elim (.error "expected value") .ok
  shapeError _ := "invalid type"

lemma SerdeJson.read_ofTexts {α : Type} {decode : Json → Option α} {texts : List (Bytes × Json)}
    {text : Bytes} {doc : Json} {value : α} (htext : texts.lookup text = some doc)
    (h : decode doc = some value) : (SerdeJson.ofTexts texts).read decode text = .ok value := by
  simp [SerdeJson.read, SerdeJson.ofTexts, htext, h]

end Laye
