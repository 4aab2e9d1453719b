import Laye.Wire
import Laye.Lib.Utf8

/-!
# The text of a JSON document

What is relied on of `serde_json`: it reads back what it writes, and it writes an object without
any space between its members. A writer and a reader that keep to both.
-/

namespace Laye

/-- A document with at most `levels` arrays and objects around one another and only such numbers. -/
inductive Json.Within (numbers : JsonNumber → Prop) : Nat → Json → Prop
  | null (levels : Nat) : Within numbers levels .null
  | bool (levels : Nat) (b : Bool) : Within numbers levels (.bool b)
  | number (levels : Nat) (n : JsonNumber) (h : numbers n) : Within numbers levels (.number n)
  | string (levels : Nat) (s : String) : Within numbers levels (.string s)
  | array {levels : Nat} (items : List Json) (h : ∀ item ∈ items, Within numbers levels item) :
      Within numbers (levels + 1) (.array items)
  | object {levels : Nat} (members : List (String × Json))
      (h : ∀ m ∈ members, Within numbers levels m.2) : Within numbers (levels + 1) (.object members)

/-- `serde_json` reads documents of that depth back that have only such numbers; it refuses to read
very deep ones. -/
def SerdeJson.ReadsBack (serde : SerdeJson) (numbers : JsonNumber → Prop) (levels : Nat) : Prop :=
  ∀ doc : Json, doc.Within numbers levels → serde.fromSlice (serde.toVec doc) = .ok doc

lemma Json.Within.mono {numbers numbers' : JsonNumber → Prop} (hsub : ∀ n, numbers n → numbers' n)
    {levels : Nat} {doc : Json} (h : doc.Within numbers levels) : doc.Within numbers' levels := by
  induction h with
  | null levels => exact .null levels
  | bool levels b => exact .bool levels b
  | number levels n h => exact .number levels n (hsub n h)
  | string levels s => exact .string levels s
  | array items _ ih => exact .array items ih
  | object members _ ih => exact .object members ih

lemma Json.Within.deeper {numbers : JsonNumber → Prop} {levels levels' : Nat} {doc : Json}
    (h : doc.Within numbers levels) (hle : levels ≤ levels') : doc.Within numbers levels' := by
  induction h generalizing levels' with
  | null levels => exact .null levels'
  | bool levels b => exact .bool levels' b
  | number levels n h => exact .number levels' n h
  | string levels s => exact .string levels' s
  | array items _ ih =>
    obtain ⟨k, rfl⟩ := Nat.exists_eq_add_one.mpr (Nat.zero_lt_of_lt hle)
    exact .array items fun item hitem => ih item hitem (Nat.le_of_succ_le_succ hle)
  | object members _ ih =>
    obtain ⟨k, rfl⟩ := Nat.exists_eq_add_one.mpr (Nat.zero_lt_of_lt hle)
    exact .object members fun m hm => ih m hm (Nat.le_of_succ_le_succ hle)

lemma SerdeJson.ReadsBack.mono {serde : SerdeJson} {numbers numbers' : JsonNumber → Prop}
    {levels : Nat} (hsub : ∀ n, numbers n → numbers' n) (h : serde.ReadsBack numbers' levels) :
    serde.ReadsBack numbers levels := fun doc hdoc => h doc (hdoc.mono hsub)

lemma SerdeJson.ReadsBack.read {serde : SerdeJson} {numbers : JsonNumber → Prop} {levels : Nat}
    (h : serde.ReadsBack numbers levels) {α : Type} {decode : Json → Option α} {doc : Json} {value : α}
    (hwithin : doc.Within numbers levels) (hdecode : decode doc = some value) :
    serde.read decode (serde.toVec doc) = .ok value := by
  simp [SerdeJson.read, h doc hwithin, hdecode]

def JsonNumber.Unsigned (n : JsonNumber) : Prop := ∃ k, n = .posInt k

/-- A plain document has neither floating-point nor negative numbers. -/
abbrev Json.PlainWithin (levels : Nat) (doc : Json) : Prop := doc.Within JsonNumber.Unsigned levels

/-- `serde_json` reads plain documents of that depth back. -/
abbrev SerdeJson.RoundTripsWithin (serde : SerdeJson) (levels : Nat) : Prop :=
  serde.ReadsBack JsonNumber.Unsigned levels

/-- Nothing in the text needs an escape in a JSON string. -/
def Unescaped (s : String) : Prop := ∀ b ∈ intoBytes s, 32 ≤ b ∧ b ≠ 34 ∧ b ≠ 92

instance (s : String) : Decidable (Unescaped s) := List.decidableBAll _ (intoBytes s)

/-- The compact form of `serde_json::to_vec`. -/
structure SerdeJson.Compact (serde : SerdeJson) : Prop where
  string : ∀ s, Unescaped s → serde.toVec (.string s) = 34 :: intoBytes s ++ [34]
  object : ∀ members, serde.toVec (.object members) = 123 ::
    ([44].intercalate (members.map fun m => serde.toVec (.string m.1) ++ 58 :: serde.toVec m.2) ++
      [125])

/-- `serde_json::to_vec` writes what `to_string` does, in UTF-8. -/
def SerdeJson.WritesText (serde : SerdeJson) : Prop := ∀ doc, ∃ text, serde.toVec doc = intoBytes text

namespace JsonText

/-! ### Writing -/

/-- The bytes with an escape of two bytes, and the second of these. -/
def ESCAPES : List (UInt8 × UInt8) :=
  [(34, 34), (92, 92), (8, 98), (9, 116), (10, 110), (12, 102), (13, 114)]

def escapeByte (b : UInt8) : Bytes :=
  match ESCAPES.lookup b with
  | some c => [92, c]
  | none => if b < 32 then [92, 117, 48, 48, hexByte (b >>> 4), hexByte (b &&& 0x0f)] else [b]

def writeString (s : String) : Bytes := 34 :: ((intoBytes s).flatMap escapeByte ++ [34])

mutual

def write : Json → Bytes
  | .null => intoBytes "null"
  | .bool b => intoBytes (toString b)
  | .number (.posInt n) => intoBytes (toString n)
  | .number (.negInt n) => intoBytes (toString n)
  | .number (.float text) => intoBytes text
  | .string s => writeString s
  | .array [] => [91, 93]
  | .array (item :: items) => 91 :: (write item ++ writeItems items)
  | .object [] => [123, 125]
  | .object ((name, value) :: members) =>
    123 :: (writeString name ++ 58 :: (write value ++ writeMembers members))

def writeItems : List Json → Bytes
  | [] => [93]
  | item :: items => 44 :: (write item ++ writeItems items)

def writeMembers : List (String × Json) → Bytes
  | [] => [125]
  | (name, value) :: members =>
    44 :: (writeString name ++ 58 :: (write value ++ writeMembers members))

end

/-! ### Reading -/

def unescape (c : UInt8) : Option UInt8 := (ESCAPES.find? (fun e => e.2 == c)).map Prod.fst

/-- The bytes of a string up to its closing quote, and what follows. -/
def readString : Bytes → Option (Bytes × Bytes)
  | [] => none
  | b :: rest =>
    if b = 34 then some ([], rest)
    else if b = 92 then
      match rest with
      | [] => none
      | c :: rest =>
        if c = 117 then
          match rest with
          | _ :: _ :: hi :: lo :: rest => do
            let hi ← (hexNibble hi).toOption
            let lo ← (hexNibble lo).toOption
            let (bytes, rest) ← readString rest
            some (((hi <<< 4) ||| lo) :: bytes, rest)
          | _ => none
        else do
          let b ← unescape c
          let (bytes, rest) ← readString rest
          some (b :: bytes, rest)
    else do
      let (bytes, rest) ← readString rest
      some (b :: bytes, rest)

def readText (bytes : Bytes) : Option (String × Bytes) := do
  let (text, rest) ← readString bytes
  let s ← fromUtf8 text
  some (s, rest)

def isDigit (b : UInt8) : Bool := 48 ≤ b && b ≤ 57

/-- The digits of a number and its point. -/
def isNumeral (b : UInt8) : Bool := isDigit b || b == 46

/-- Digits on both sides of one point. -/
def isDecimal (numeral : Bytes) : Bool :=
  numeral.count 46 == 1 && numeral.head? != some 46 && numeral.getLast? != some 46

def readNumber (bytes : Bytes) : Option (Json × Bytes) :=
  let numeral := bytes.takeWhile isNumeral
  let rest := bytes.dropWhile isNumeral
  let n := Nat.ofDigitChars 10 (numeral.map fun b => Char.ofNat b.toNat) 0
  if isDecimal numeral then (fromUtf8 numeral).map fun text => (.number (.float text), rest)
  else if numeral ≠ [] ∧ 46 ∉ numeral ∧ n < UInt64.size then
    some (.number (.posInt (UInt64.ofNat n)), rest)
  else none

def readWord (word : String) (doc : Json) (bytes : Bytes) : Option (Json × Bytes) :=
  if intoBytes word <+: bytes then some (doc, bytes.drop (intoBytes word).length) else none

mutual

/-- The document at the start of the bytes, and what follows. -/
def readValue : Nat → Bytes → Option (Json × Bytes)
  | 0, _ => none
  | _ + 1, [] => none
  | fuel + 1, b :: rest =>
    if b = 110 then readWord "null" .null (b :: rest)
    else if b = 116 then readWord "true" (.bool true) (b :: rest)
    else if b = 102 then readWord "false" (.bool false) (b :: rest)
    else if b = 34 then do
      let (s, rest) ← readText rest
      some (.string s, rest)
    else if b = 91 then
      match readValue fuel rest with
      | some (item, rest) => do
        let (items, rest) ← readItems fuel rest
        some (.array (item :: items), rest)
      | none => if rest.head? = some 93 then some (.array [], rest.tail) else none
    else if b = 123 then
      if rest.head? = some 125 then some (.object [], rest.tail)
      else do
        let (m, rest) ← readMember fuel rest
        let (members, rest) ← readMembers fuel rest
        some (.object (m :: members), rest)
    else readNumber (b :: rest)

def readMember : Nat → Bytes → Option ((String × Json) × Bytes)
  | 0, _ => none
  | fuel + 1, bytes =>
    if bytes.head? = some 34 then do
      let (name, rest) ← readText bytes.tail
      if rest.head? = some 58 then
        let (value, rest) ← readValue fuel rest.tail
        some ((name, value), rest)
      else none
    else none

def readItems : Nat → Bytes → Option (List Json × Bytes)
  | 0, _ => none
  | fuel + 1, bytes =>
    if bytes.head? = some 93 then some ([], bytes.tail)
    else if bytes.head? = some 44 then do
      let (item, rest) ← readValue fuel bytes.tail
      let (items, rest) ← readItems fuel rest
      some (item :: items, rest)
    else none

def readMembers : Nat → Bytes → Option (List (String × Json) × Bytes)
  | 0, _ => none
  | fuel + 1, bytes =>
    if bytes.head? = some 125 then some ([], bytes.tail)
    else if bytes.head? = some 44 then do
      let (m, rest) ← readMember fuel bytes.tail
      let (members, rest) ← readMembers fuel rest
      some (m :: members, rest)
    else none

end

end JsonText

/-- A `serde_json` for documents whose numbers are unsigned or decimal. -/
def SerdeJson.compact : SerdeJson where
  toVec := JsonText.write
  fromSlice bytes :=
    match JsonText.readValue bytes.length bytes with
    | some (doc, []) => .ok doc
    | _ => .error "expected value"
  shapeError _ := "invalid type"

namespace JsonText

/-! ### Reading back what was written -/

lemma escape_cases {e : UInt8 × UInt8} (h : e ∈ ESCAPES) :
    (e.1 = 34 ∨ e.1 = 92 ∨ e.1 < 32) ∧ unescape e.2 = some e.1 ∧ e.2 ≠ 117 := by
  simp only [ESCAPES, List.mem_cons, List.not_mem_nil, or_false] at h
  rcases h with rfl | rfl | rfl | rfl | rfl | rfl | rfl
  all_goals exact ⟨by decide, rfl, by decide⟩

lemma unescape_of_lookup {b c : UInt8} (h : ESCAPES.lookup b = some c) :
    unescape c = some b ∧ c ≠ 117 := by
  obtain ⟨l₁, l₂, heq, -⟩ := List.lookup_eq_some_iff.mp h
  exact (escape_cases (e := (b, c)) (by rw [heq]; simp)).2

lemma readString_escapeByte (b : UInt8) (tail : Bytes) :
    readString (escapeByte b ++ tail) = (readString tail).map (fun r => (b :: r.1, r.2)) := by
  have hback : (92 : UInt8) ≠ 34 := by decide
  unfold escapeByte
  cases hlookup : ESCAPES.lookup b with
  | some c =>
    obtain ⟨hc, hne⟩ := unescape_of_lookup hlookup
    rw [List.cons_append, List.cons_append, List.nil_append, readString.eq_def]
    simp only [if_neg hback, if_true, if_neg hne, hc]
    cases readString tail <;> rfl
  | none =>
    by_cases hlt : b < 32
    · have hhi : hexNibble (hexByte (b >>> 4)) = .ok (b >>> 4) :=
        hexNibble_hexByte (by have := b.toNat_lt; rw [toNat_high_nibble]; omega)
      have hlo : hexNibble (hexByte (b &&& 0x0f)) = .ok (b &&& 0x0f) :=
        hexNibble_hexByte (by rw [toNat_low_nibble]; omega)
      simp only [if_pos hlt, List.cons_append, List.nil_append]
      rw [readString.eq_def]
      simp only [if_neg hback, if_true, hhi, hlo, Except.toOption]
      cases readString tail with
      | none => rfl
      | some r => exact congrArg (fun x => some (x :: r.1, r.2)) (nibbles_join b)
    · have hquote : b ≠ 34 := by
        rintro rfl
        cases hlookup
      have hbackslash : b ≠ 92 := by
        rintro rfl
        cases hlookup
      rw [if_neg hlt, List.cons_append, List.nil_append, readString.eq_def]
      simp only [if_neg hquote, if_neg hbackslash]
      cases readString tail <;> rfl

lemma readString_flatMap (bytes tail : Bytes) :
    readString (bytes.flatMap escapeByte ++ 34 :: tail) = some (bytes, tail) := by
  induction bytes with
  | nil =>
    rw [List.flatMap_nil, List.nil_append, readString.eq_def]
    exact if_pos rfl
  | cons b bytes ih => rw [List.flatMap_cons, List.append_assoc, readString_escapeByte, ih, Option.map_some]

lemma readText_writeString (s : String) (tail : Bytes) :
    ∃ text, writeString s ++ tail = 34 :: text ∧ readText text = some (s, tail) := by
  refine ⟨(intoBytes s).flatMap escapeByte ++ 34 :: tail, by simp [writeString], ?_⟩
  rw [readText, readString_flatMap]
  simp [fromUtf8_eq_some.mpr rfl]

/-- What follows a number in a document. -/
def NoNumeral (bytes : Bytes) : Prop := ∀ b ∈ bytes.head?, isNumeral b = false

lemma NoNumeral.stops {tail : Bytes} (h : NoNumeral tail) :
    tail.takeWhile isNumeral = [] ∧ tail.dropWhile isNumeral = tail := by
  cases tail with
  | nil => exact ⟨rfl, rfl⟩
  | cons b rest =>
    have hb : isNumeral b = false := h b rfl
    simp [hb]

lemma isNumeral_of_isDigit {b : UInt8} (h : isDigit b = true) : isNumeral b = true := by
  rw [isNumeral, h, Bool.true_or]

lemma ne_point_of_isDigit {b : UInt8} (h : isDigit b = true) : b ≠ 46 := by
  rintro rfl
  cases h

lemma digit_byte {n : Nat} {c : Char} (hc : c ∈ Nat.toDigits 10 n) :
    c.toNat < 128 ∧ isDigit (UInt8.ofNat c.toNat) = true ∧
      Char.ofNat (UInt8.ofNat c.toNat).toNat = c := by
  have hall : ∀ k < 10, (Char.ofNat (k + 48)).toNat < 128 ∧
      isDigit (UInt8.ofNat (Char.ofNat (k + 48)).toNat) = true ∧
      Char.ofNat (UInt8.ofNat (Char.ofNat (k + 48)).toNat).toNat = Char.ofNat (k + 48) := by decide
  have hdigit : c.isDigit = true := Nat.isDigit_of_mem_toDigits (by decide) (by decide) hc
  have hrange : 48 ≤ c.toNat ∧ c.toNat ≤ 57 := Char.isDigit_iff_toNat.mp hdigit
  have hchar : Char.ofNat (c.toNat - 48 + 48) = c := by
    rw [Nat.sub_add_cancel hrange.1, Char.ofNat_toNat]
  have hlt : c.toNat - 48 < 10 := by omega
  have h := hall _ hlt
  rwa [hchar] at h

lemma intoBytes_u64 (n : UInt64) : intoBytes (toString n) =
    (Nat.toDigits 10 n.toNat).map fun c => UInt8.ofNat c.toNat := by
  have htext : (toString n).toList = Nat.toDigits 10 n.toNat := Nat.toList_repr
  rw [intoBytes_eq, htext, List.map_eq_flatMap, List.flatMap, List.flatMap]
  congr 1
  exact List.map_congr_left fun c hc => Utf8.encodeChar_of_lt (digit_byte hc).1

lemma isDecimal_of_digits {digits : Bytes} (h : ∀ b ∈ digits, isDigit b = true) :
    46 ∉ digits ∧ isDecimal digits = false := by
  have hpoint : 46 ∉ digits := fun hmem => ne_point_of_isDigit (h 46 hmem) rfl
  refine ⟨hpoint, ?_⟩
  rw [isDecimal, List.count_eq_zero_of_not_mem hpoint]
  rfl

lemma readNumber_u64 (n : UInt64) {tail : Bytes} (htail : NoNumeral tail) :
    readNumber (intoBytes (toString n) ++ tail) = some (.number (.posInt n), tail) := by
  obtain ⟨digits, hdigits⟩ : ∃ digits, Nat.toDigits 10 n.toNat = digits := ⟨_, rfl⟩
  have hall : ∀ b ∈ digits.map (fun c => UInt8.ofNat c.toNat), isDigit b = true := by
    intro b hb
    obtain ⟨c, hc, rfl⟩ := List.mem_map.mp hb
    exact (digit_byte (hdigits ▸ hc)).2.1
  have hnumeral : ∀ b ∈ digits.map (fun c => UInt8.ofNat c.toNat), isNumeral b = true :=
    fun b hb => isNumeral_of_isDigit (hall b hb)
  have hchars : (digits.map fun c => UInt8.ofNat c.toNat).map (fun b => Char.ofNat b.toNat) = digits := by
    rw [List.map_map]
    conv_rhs => rw [← List.map_id digits]
    exact List.map_congr_left fun c hc => (digit_byte (hdigits ▸ hc)).2.2
  have hvalue : Nat.ofDigitChars 10 digits 0 = n.toNat := by
    rw [← hdigits]
    exact Nat.ofDigitChars_ten_toDigits
  have hne : digits ≠ [] := by
    rw [← hdigits]
    exact Nat.toDigits_ne_nil
  obtain ⟨hpoint, hdecimal⟩ := isDecimal_of_digits hall
  rw [readNumber, intoBytes_u64, hdigits, List.takeWhile_append_of_pos hnumeral, htail.stops.1,
    List.dropWhile_append_of_pos hnumeral, htail.stops.2, List.append_nil, hchars, hvalue, hdecimal]
  rw [if_neg Bool.false_ne_true, if_pos ⟨by simpa using hne, hpoint, n.toNat_lt_size⟩,
    UInt64.ofNat_toNat]

/-- The text of a number with a point. -/
def Decimal (text : String) : Prop :=
  (∀ b ∈ intoBytes text, isNumeral b = true) ∧ isDecimal (intoBytes text) = true

instance (text : String) : Decidable (Decimal text) := inferInstanceAs (Decidable (_ ∧ _))

lemma readNumber_float {text : String} (h : Decimal text) {tail : Bytes} (htail : NoNumeral tail) :
    readNumber (intoBytes text ++ tail) = some (.number (.float text), tail) := by
  rw [readNumber, List.takeWhile_append_of_pos h.1, htail.stops.1, List.dropWhile_append_of_pos h.1,
    htail.stops.2, List.append_nil, h.2, if_pos rfl, fromUtf8_eq_some.mpr rfl, Option.map_some]

/-- The numbers that are read back. -/
inductive Readable : JsonNumber → Prop
  | unsigned (n : UInt64) : Readable (.posInt n)
  | decimal {text : String} (h : Decimal text) : Readable (.float text)

/-- The document is read back with whatever may follow it. -/
def ReadBack (doc : Json) : Prop :=
  ∀ fuel tail, (write doc).length ≤ fuel → NoNumeral tail →
    readValue fuel (write doc ++ tail) = some (doc, tail)

lemma noNumeral_cons {b : UInt8} (h : isNumeral b = false) (tail : Bytes) : NoNumeral (b :: tail) := by
  intro c hc
  obtain rfl : b = c := Option.some.inj hc
  exact h

lemma readMember_write {name : String} {value : Json} (hvalue : ReadBack value) {fuel : Nat}
    {tail : Bytes} (hfuel : (write value).length < fuel) (htail : NoNumeral tail) :
    readMember fuel (writeString name ++ 58 :: (write value ++ tail)) =
      some ((name, value), tail) := by
  obtain ⟨text, htext, hread⟩ := readText_writeString name (58 :: (write value ++ tail))
  cases fuel with
  | zero => omega
  | succ fuel =>
    have hback := hvalue fuel tail (by omega) htail
    rw [htext, readMember]
    simp [hread, hback]

lemma noNumeral_writeItems (items : List Json) (tail : Bytes) : NoNumeral (writeItems items ++ tail) := by
  cases items with
  | nil =>
    rw [writeItems]
    exact noNumeral_cons rfl _
  | cons item items =>
    rw [writeItems]
    exact noNumeral_cons rfl _

lemma readItems_write {items : List Json} (hitems : ∀ item ∈ items, ReadBack item) {fuel : Nat}
    {tail : Bytes} (hfuel : (writeItems items).length ≤ fuel) :
    readItems fuel (writeItems items ++ tail) = some (items, tail) := by
  induction items generalizing fuel with
  | nil =>
    rw [writeItems] at hfuel ⊢
    cases fuel with
    | zero => simp at hfuel
    | succ fuel => simp [readItems]
  | cons item items ih =>
    rw [writeItems] at hfuel ⊢
    rw [List.length_cons, List.length_append] at hfuel
    cases fuel with
    | zero => omega
    | succ fuel =>
      have hitem := hitems item List.mem_cons_self fuel (writeItems items ++ tail) (by omega)
        (noNumeral_writeItems items tail)
      have hrest : readItems fuel (writeItems items ++ tail) = some (items, tail) :=
        ih (fun item' hmem => hitems item' (List.mem_cons_of_mem _ hmem)) (by omega)
      simp [readItems, hitem, hrest]

lemma noNumeral_writeMembers (members : List (String × Json)) (tail : Bytes) :
    NoNumeral (writeMembers members ++ tail) := by
  cases members with
  | nil =>
    rw [writeMembers]
    exact noNumeral_cons rfl _
  | cons m members =>
    rw [writeMembers]
    exact noNumeral_cons rfl _

lemma readMembers_write {members : List (String × Json)} (hmembers : ∀ m ∈ members, ReadBack m.2)
    {fuel : Nat} {tail : Bytes} (hfuel : (writeMembers members).length ≤ fuel) :
    readMembers fuel (writeMembers members ++ tail) = some (members, tail) := by
  induction members generalizing fuel with
  | nil =>
    rw [writeMembers] at hfuel ⊢
    cases fuel with
    | zero => simp at hfuel
    | succ fuel => simp [readMembers]
  | cons m members ih =>
    obtain ⟨name, value⟩ := m
    rw [writeMembers] at hfuel ⊢
    simp only [List.length_cons, List.length_append] at hfuel
    cases fuel with
    | zero => omega
    | succ fuel =>
      have hvalue : ReadBack value := hmembers (name, value) List.mem_cons_self
      have hmember : readMember fuel (writeString name ++ 58 :: (write value ++
          (writeMembers members ++ tail))) = some ((name, value), writeMembers members ++ tail) :=
        readMember_write hvalue (by omega) (noNumeral_writeMembers members tail)
      have hrest : readMembers fuel (writeMembers members ++ tail) = some (members, tail) :=
        ih (fun m hmem => hmembers m (List.mem_cons_of_mem _ hmem)) (by omega)
      simp [readMembers, hmember, hrest]

lemma readWord_append (word : String) (doc : Json) (tail : Bytes) :
    readWord word doc (intoBytes word ++ tail) = some (doc, tail) := by
  rw [readWord, if_pos (List.prefix_append _ _), List.drop_left]

/-- A number starts with a digit, and nothing else does. -/
lemma readValue_digit {b : UInt8} (hb : isDigit b = true) (fuel : Nat) (rest : Bytes) :
    readValue (fuel + 1) (b :: rest) = readNumber (b :: rest) := by
  have hne : ∀ c, isDigit c = false → b ≠ c := by
    rintro c hc rfl
    rw [hb] at hc
    cases hc
  rw [readValue, if_neg (hne 110 rfl), if_neg (hne 116 rfl), if_neg (hne 102 rfl),
    if_neg (hne 34 rfl), if_neg (hne 91 rfl), if_neg (hne 123 rfl)]

/-- What is written of a number starts with a digit. -/
lemma write_number {n : JsonNumber} (h : Readable n) :
    ∃ b rest, write (.number n) = b :: rest ∧ isDigit b = true ∧ ∀ tail, NoNumeral tail →
      readNumber (b :: rest ++ tail) = some (.number n, tail) := by
  cases h with
  | unsigned n =>
    obtain ⟨c, digits, hdigits⟩ : ∃ c digits, Nat.toDigits 10 n.toNat = c :: digits :=
      List.exists_cons_of_ne_nil Nat.toDigits_ne_nil
    have hbytes : intoBytes (toString n) =
        UInt8.ofNat c.toNat :: digits.map fun c => UInt8.ofNat c.toNat := by
      rw [intoBytes_u64, hdigits, List.map_cons]
    refine ⟨UInt8.ofNat c.toNat, digits.map fun c => UInt8.ofNat c.toNat, by rw [write, hbytes],
      (digit_byte (hdigits ▸ List.mem_cons_self)).2.1, fun tail htail => ?_⟩
    rw [← hbytes, readNumber_u64 n htail]
  | @decimal text h =>
    cases hbytes : intoBytes text with
    | nil =>
      have hdecimal := h.2
      rw [hbytes] at hdecimal
      cases hdecimal
    | cons b rest =>
      refine ⟨b, rest, by rw [write, hbytes], ?_, fun tail htail => ?_⟩
      · have hb : isNumeral b = true := h.1 b (by rw [hbytes]; exact List.mem_cons_self)
        have hpoint : b ≠ 46 := by
          rintro rfl
          have hdecimal := h.2
          rw [hbytes, isDecimal, List.head?_cons] at hdecimal
          simp at hdecimal
        rcases Bool.or_eq_true_iff.mp hb with hdigit | heq
        · exact hdigit
        · exact absurd (beq_iff_eq.mp heq) hpoint
      · rw [← hbytes, readNumber_float h htail]

lemma readBack_number {n : JsonNumber} (h : Readable n) : ReadBack (.number n) := by
  intro fuel tail hfuel htail
  obtain ⟨b, rest, hwrite, hb, hread⟩ := write_number h
  rw [hwrite] at hfuel ⊢
  cases fuel with
  | zero => simp at hfuel
  | succ fuel => rw [List.cons_append, readValue_digit hb, ← List.cons_append, hread tail htail]

lemma readBack_word {word : String} {doc : Json} {b : UInt8} {rest : Bytes}
    (hwrite : write doc = intoBytes word) (hword : intoBytes word = b :: rest)
    (hread : ∀ fuel rest, readValue (fuel + 1) (b :: rest) = readWord word doc (b :: rest)) :
    ReadBack doc := by
  intro fuel tail hfuel htail
  have happend := readWord_append word doc tail
  rw [hwrite] at hfuel ⊢
  rw [hword] at hfuel happend ⊢
  cases fuel with
  | zero => simp at hfuel
  | succ fuel => rw [List.cons_append, hread, ← List.cons_append, happend]

lemma readBack_null : ReadBack .null := by
  have hword : intoBytes "null" = [110, 117, 108, 108] := by decide
  refine readBack_word rfl hword (fun fuel rest => ?_)
  rw [readValue, if_pos rfl]

lemma readBack_bool (b : Bool) : ReadBack (.bool b) := by
  have htrue : intoBytes "true" = [116, 114, 117, 101] := by decide
  have hfalse : intoBytes "false" = [102, 97, 108, 115, 101] := by decide
  cases b
  · refine readBack_word rfl hfalse (fun fuel rest => ?_)
    rw [readValue, if_neg (by decide), if_neg (by decide), if_pos rfl]
    rfl
  · refine readBack_word rfl htrue (fun fuel rest => ?_)
    rw [readValue, if_neg (by decide), if_pos rfl]
    rfl

lemma write_string (s : String) : write (.string s) = writeString s := by rw [write]

lemma readBack_string (s : String) : ReadBack (.string s) := by
  intro fuel tail hfuel htail
  obtain ⟨text, htext, hread⟩ := readText_writeString s tail
  rw [write_string] at hfuel ⊢
  rw [htext]
  cases fuel with
  | zero => simp [writeString] at hfuel
  | succ fuel => simp [readValue, hread]

lemma readValue_end (fuel : Nat) (tail : Bytes) : readValue fuel (93 :: tail) = none := by
  cases fuel with
  | zero => rw [readValue]
  | succ fuel => simp [readValue, readNumber, isNumeral, isDigit, isDecimal]

lemma readBack_array {items : List Json} (h : ∀ item ∈ items, ReadBack item) :
    ReadBack (.array items) := by
  intro fuel tail hfuel htail
  cases items with
  | nil =>
    rw [write] at hfuel ⊢
    cases fuel with
    | zero => simp at hfuel
    | succ fuel => simp [readValue, readValue_end]
  | cons item items =>
    rw [write] at hfuel ⊢
    simp only [List.length_cons, List.length_append] at hfuel
    cases fuel with
    | zero => omega
    | succ fuel =>
      have hitem := h item List.mem_cons_self fuel (writeItems items ++ tail) (by omega)
        (noNumeral_writeItems items tail)
      have hitems : readItems fuel (writeItems items ++ tail) = some (items, tail) :=
        readItems_write (fun item' hmem => h item' (List.mem_cons_of_mem _ hmem)) (by omega)
      simp [readValue, hitem, hitems]

lemma readBack_object {members : List (String × Json)} (h : ∀ m ∈ members, ReadBack m.2) :
    ReadBack (.object members) := by
  intro fuel tail hfuel htail
  cases members with
  | nil =>
    rw [write] at hfuel ⊢
    cases fuel with
    | zero => simp at hfuel
    | succ fuel => simp [readValue]
  | cons m members =>
    obtain ⟨name, value⟩ := m
    rw [write] at hfuel ⊢
    simp only [List.length_cons, List.length_append] at hfuel
    cases fuel with
    | zero => omega
    | succ fuel =>
      have hvalue : ReadBack value := h (name, value) List.mem_cons_self
      have hmember : readMember fuel (writeString name ++ 58 :: (write value ++
          (writeMembers members ++ tail))) = some ((name, value), writeMembers members ++ tail) :=
        readMember_write hvalue (by omega) (noNumeral_writeMembers members tail)
      have hmembers : readMembers fuel (writeMembers members ++ tail) = some (members, tail) :=
        readMembers_write (fun m hmem => h m (List.mem_cons_of_mem _ hmem)) (by omega)
      have hhead : (writeString name ++ 58 :: (write value ++ (writeMembers members ++ tail))).head? =
          some 34 := rfl
      simp only [List.cons_append, List.append_assoc]
      rw [readValue, if_neg (by decide), if_neg (by decide), if_neg (by decide), if_neg (by decide),
        if_neg (by decide), if_pos rfl, hhead, if_neg (by decide), hmember]
      simp [hmembers]

/-- Documents are read back as they were written. -/
theorem readBack_of_within {levels : Nat} {doc : Json} (h : doc.Within Readable levels) :
    ReadBack doc := by
  induction h with
  | null levels => exact readBack_null
  | bool levels b => exact readBack_bool b
  | number levels n h => exact readBack_number h
  | string levels s => exact readBack_string s
  | array items h ih => exact readBack_array ih
  | object members h ih => exact readBack_object ih

lemma writeString_of_unescaped {s : String} (h : Unescaped s) :
    writeString s = 34 :: intoBytes s ++ [34] := by
  have hplain : ∀ b ∈ intoBytes s, escapeByte b = [b] := by
    intro b hb
    obtain ⟨hlow, hquote, hback⟩ := h b hb
    have hlookup : ESCAPES.lookup b = none := by
      rw [List.lookup_eq_none_iff]
      intro e he
      rw [bne_iff_ne]
      rintro rfl
      rcases (escape_cases he).1 with h34 | h92 | hlt
      · exact hquote h34
      · exact hback h92
      · exact absurd hlow (UInt8.not_le.mpr hlt)
    have hlt : ¬b < 32 := UInt8.not_lt.mpr hlow
    simp only [escapeByte, hlookup, if_neg hlt]
  have hflat : (intoBytes s).flatMap escapeByte = intoBytes s := by
    rw [List.flatMap, List.map_congr_left hplain, ← List.flatMap, List.flatMap_singleton']
  rw [writeString, hflat, List.cons_append]

/-- The text of a member. -/
def writeMember (m : String × Json) : Bytes := writeString m.1 ++ 58 :: write m.2

lemma writeMembers_eq (members : List (String × Json)) :
    writeMembers members = members.flatMap (fun m => 44 :: writeMember m) ++ [125] := by
  induction members with
  | nil =>
    rw [writeMembers]
    rfl
  | cons m members ih =>
    rw [writeMembers, ih]
    simp [writeMember]

lemma intercalate_cons (sep x : Bytes) (xs : List Bytes) :
    sep.intercalate (x :: xs) = x ++ xs.flatMap (fun y => sep ++ y) := by
  induction xs generalizing x with
  | nil => simp
  | cons y ys ih =>
    rw [List.intercalate_cons_cons, ih, List.flatMap_cons]
    simp only [List.append_assoc]

lemma write_object (members : List (String × Json)) :
    write (.object members) = 123 :: ([44].intercalate (members.map writeMember) ++ [125]) := by
  cases members with
  | nil =>
    rw [write]
    rfl
  | cons m members =>
    rw [write, writeMembers_eq, List.map_cons, intercalate_cons]
    simp [writeMember, List.flatMap_map]

/-! ### What is written is text -/

/-- The bytes are UTF-8. -/
def IsText (bytes : Bytes) : Prop := ∃ text, bytes = intoBytes text

lemma IsText.append {a b : Bytes} (ha : IsText a) (hb : IsText b) : IsText (a ++ b) := by
  obtain ⟨s, rfl⟩ := ha
  obtain ⟨t, rfl⟩ := hb
  exact ⟨s ++ t, (intoBytes_append s t).symm⟩

lemma isText_of_lt {bytes : Bytes} (h : ∀ b ∈ bytes, b.toNat < 128) : IsText bytes := by
  induction bytes with
  | nil => exact ⟨"", rfl⟩
  | cons b bytes ih =>
    obtain ⟨hb, hrest⟩ := List.forall_mem_cons.mp h
    have hone : ∀ n : Fin 128, intoBytes (String.singleton (Char.ofNat n.val)) = [UInt8.ofNat n.val] := by
      decide
    have htext : IsText [b] := by
      have hbyte := hone ⟨b.toNat, hb⟩
      rw [UInt8.ofNat_toNat] at hbyte
      exact ⟨_, hbyte.symm⟩
    exact htext.append (ih hrest)

lemma IsText.cons {b : UInt8} {bytes : Bytes} (hb : b.toNat < 128) (h : IsText bytes) :
    IsText (b :: bytes) := by
  have hone : IsText [b] := isText_of_lt (by simpa using hb)
  exact hone.append h

/-- ASCII bytes are escaped by ASCII bytes, all others stay. -/
lemma escapeByte_spec (b : UInt8) :
    (b.toNat < 128 → ∀ e ∈ escapeByte b, e.toNat < 128) ∧ (128 ≤ b.toNat → escapeByte b = [b]) := by
  have hall : ∀ n : Fin 256, ((UInt8.ofNat n.val).toNat < 128 →
      ∀ e ∈ escapeByte (UInt8.ofNat n.val), e.toNat < 128) ∧
      (128 ≤ (UInt8.ofNat n.val).toNat → escapeByte (UInt8.ofNat n.val) = [UInt8.ofNat n.val]) := by
    decide +kernel
  have hb := hall ⟨b.toNat, b.toNat_lt⟩
  rwa [UInt8.ofNat_toNat] at hb

lemma isText_escaped (cs : List Char) :
    IsText ((cs.flatMap String.utf8EncodeChar).flatMap escapeByte) := by
  induction cs with
  | nil => exact ⟨"", rfl⟩
  | cons c cs ih =>
    rw [List.flatMap_cons, List.flatMap_append]
    refine IsText.append ?_ ih
    by_cases hc : c.toNat < 128
    · apply isText_of_lt
      intro e he
      have hbyte : (UInt8.ofNat c.toNat).toNat < 128 := by
        rw [UInt8.toNat_ofNat']
        omega
      rw [Utf8.encodeChar_of_lt hc, List.flatMap_cons, List.flatMap_nil, List.append_nil] at he
      exact (escapeByte_spec _).1 hbyte e he
    · have hkept : (String.utf8EncodeChar c).flatMap escapeByte = String.utf8EncodeChar c := by
        rw [List.flatMap_congr fun b hb => (escapeByte_spec b).2 (Utf8.le_of_mem_encodeChar hc hb),
          List.flatMap_singleton']
      rw [hkept]
      exact ⟨String.singleton c, by simp [intoBytes_eq]⟩

lemma isText_writeString (s : String) : IsText (writeString s) := by
  have hquote : IsText [34] := isText_of_lt (by simp)
  have hescaped := isText_escaped s.toList
  rw [← intoBytes_eq] at hescaped
  exact IsText.cons (by decide) (hescaped.append hquote)

mutual

lemma isText_write : ∀ doc : Json, IsText (write doc)
  | .null => ⟨_, rfl⟩
  | .bool b => ⟨_, rfl⟩
  | .number (.posInt n) => ⟨_, rfl⟩
  | .number (.negInt n) => ⟨_, rfl⟩
  | .number (.float text) => ⟨_, rfl⟩
  | .string s => isText_writeString s
  | .array [] => by
    rw [write]
    exact isText_of_lt (by simp)
  | .array (item :: items) => by
    rw [write]
    exact IsText.cons (by decide) ((isText_write item).append (isText_writeItems items))
  | .object [] => by
    rw [write]
    exact isText_of_lt (by simp)
  | .object ((name, value) :: members) => by
    rw [write]
    exact IsText.cons (by decide) ((isText_writeString name).append
      (IsText.cons (by decide) ((isText_write value).append (isText_writeMembers members))))

lemma isText_writeItems : ∀ items : List Json, IsText (writeItems items)
  | [] => by
    rw [writeItems]
    exact isText_of_lt (by simp)
  | item :: items => by
    rw [writeItems]
    exact IsText.cons (by decide) ((isText_write item).append (isText_writeItems items))

lemma isText_writeMembers : ∀ members : List (String × Json), IsText (writeMembers members)
  | [] => by
    rw [writeMembers]
    exact isText_of_lt (by simp)
  | (name, value) :: members => by
    rw [writeMembers]
    exact IsText.cons (by decide) ((isText_writeString name).append
      (IsText.cons (by decide) ((isText_write value).append (isText_writeMembers members))))

end

end JsonText

lemma SerdeJson.readsBack_compact (levels : Nat) :
    SerdeJson.compact.ReadsBack JsonText.Readable levels := by
  intro doc hdoc
  have hread := JsonText.readBack_of_within hdoc (JsonText.write doc).length [] (Nat.le_refl _)
    (fun b hb => by cases hb)
  rw [List.append_nil] at hread
  simp only [SerdeJson.compact, hread]

lemma SerdeJson.roundTrips_compact (levels : Nat) : SerdeJson.compact.RoundTripsWithin levels := by
  refine (readsBack_compact levels).mono ?_
  rintro n ⟨k, rfl⟩
  exact .unsigned k

lemma SerdeJson.compact_writes : SerdeJson.compact.Compact where
  string s h := (JsonText.write_string s).trans (JsonText.writeString_of_unescaped h)
  object := JsonText.write_object

lemma SerdeJson.compact_writesText : SerdeJson.compact.WritesText := JsonText.isText_write

end Laye
