import Laye.Http
import Laye.Lib.Utf8

/-!
# What a client reads

How an HTTP client takes the bytes of a response apart, when the connection is closed after them.
-/

namespace Laye

/-- What a line of a head may hold: no control character but a tab. -/
def isHeadChar (c : Char) : Bool := c.toNat == 9 || (32 ≤ c.toNat && c.toNat != 127)

/-- What is no part of a value at its ends. -/
def isBlank (c : Char) : Bool := c == ' ' || c == '\t'

def trimBlanks (s : String) : String := Str.trimEndChars isBlank (Str.trimStartChars isBlank s)

/-- The value of the first header line with this name. -/
def fieldValue (name : String) : List String → Option String
  | [] => none
  | line :: lines =>
    match Str.splitOnce line ':' with
    | none => fieldValue name lines
    | some (key, value) =>
      if Str.eqIgnoreAsciiCase key name then some (trimBlanks value) else fieldValue name lines

structure ResponseRead where
  statusLine : String
  fields : List String
  body : Bytes

/-- The head ends at the first blank line, its lines at each CR LF. A CR or a LF elsewhere in it, or
another control character, makes it no head. -/
def readResponse (out : Bytes) : Option ResponseRead := do
  let headEnd ← findDoubleCrlf out
  let head ← fromUtf8 (out.take headEnd)
  let lines := Str.splitCrlf head
  guard (lines.all fun line => line.toList.all isHeadChar)
  let statusLine ← lines.head?
  return ⟨statusLine, lines.tail, out.drop (headEnd + 4)⟩

namespace ResponseRead

/-- The three digits of the status line. -/
def status (r : ResponseRead) : Option Nat :=
  match Str.splitn 3 ' ' r.statusLine with
  | [version, code, _] => if version = "HTTP/1.1" ∧ code.length = 3 then Str.parseUsize code else none
  | _ => none

/-- The status and as many bytes of the body as the head declares, if all of them came. -/
def message (r : ResponseRead) : Option (Nat × Bytes) := do
  let status ← r.status
  let length ← Str.parseUsize (← fieldValue "Content-Length" r.fields)
  guard (length ≤ r.body.length)
  return (status, r.body.take length)

end ResponseRead

/-! ### Heads of lines -/

/-- Some lines, a blank line and a body. -/
def response (lines : List String) (body : Bytes) : Bytes :=
  CRLF.intercalate (lines.map intoBytes) ++ 13 :: 10 :: 13 :: 10 :: body

/-- A line that can stand in a head. -/
def HeadLine (line : String) : Prop := line ≠ "" ∧ line.toList.all isHeadChar = true

instance : DecidablePred HeadLine :=
  fun line => inferInstanceAs (Decidable (line ≠ "" ∧ line.toList.all isHeadChar = true))

lemma mem_intoBytes_iff {c : Char} (hc : c.toNat < 128) (s : String) :
    UInt8.ofNat c.toNat ∈ intoBytes s ↔ c ∈ s.toList := by
  rw [intoBytes_eq, Utf8.mem_encode_iff hc]

section Head

variable {lines : List String} {line : String} {body : Bytes}

lemma HeadLine.cr_not_mem (h : HeadLine line) : '\r' ∉ line.toList :=
  fun hcr => absurd (List.all_eq_true.mp h.2 '\r' hcr) (by decide)

lemma HeadLine.bytes (h : HeadLine line) : intoBytes line ≠ [] ∧ ¬CRLF <:+: intoBytes line := by
  have hcr : 13 ∉ intoBytes line := by
    rw [show (13 : UInt8) = UInt8.ofNat '\r'.toNat from rfl, mem_intoBytes_iff (by decide)]
    exact h.cr_not_mem
  constructor
  · intro hnil
    exact h.1 (intoBytes_inj.mp (hnil.trans (by decide)))
  · exact fun hin => hcr (hin.subset List.mem_cons_self)

lemma flatMap_intercalate {α β : Type} (f : α → List β) (sep : List α) (pieces : List (List α)) :
    (sep.intercalate pieces).flatMap f =
      (sep.flatMap f).intercalate (pieces.map (List.flatMap f)) := by
  induction pieces with
  | nil => rfl
  | cons piece pieces ih =>
    cases pieces with
    | nil => simp
    | cons piece' pieces =>
      rw [List.intercalate_cons_cons, List.flatMap_append, List.flatMap_append, ih]
      simp only [List.map_cons, List.intercalate_cons_cons]

/-- The text of a head. -/
def headText (lines : List String) : String :=
  String.ofList (['\r', '\n'].intercalate (lines.map String.toList))

lemma intoBytes_headText (lines : List String) :
    intoBytes (headText lines) = CRLF.intercalate (lines.map intoBytes) := by
  have hcrlf : ['\r', '\n'].flatMap String.utf8EncodeChar = CRLF := by decide
  have hline : intoBytes = List.flatMap String.utf8EncodeChar ∘ String.toList := by
    funext line
    exact intoBytes_eq line
  rw [headText, intoBytes_eq, String.toList_ofList, flatMap_intercalate, hcrlf, List.map_map, hline]

lemma splitCrlf_headText (hne : lines ≠ []) (hlines : ∀ line ∈ lines, HeadLine line) :
    Str.splitCrlf (headText lines) = lines := by
  have hcut : Search.splitPair '\r' '\n' (['\r', '\n'].intercalate (lines.map String.toList)) =
      lines.map String.toList := by
    apply Search.splitPair_intercalate (by decide)
    · simpa using hne
    · intro l hl
      obtain ⟨line, hline, rfl⟩ := List.mem_map.mp hl
      exact fun hin => (hlines line hline).cr_not_mem (hin.subset List.mem_cons_self)
  rw [Str.splitCrlf, headText, String.toList_ofList, hcut, List.map_map]
  simp [Function.comp_def]

/-- The head of a response ends at its blank line. -/
lemma findDoubleCrlf_response (hne : lines ≠ []) (hlines : ∀ line ∈ lines, HeadLine line) :
    findDoubleCrlf (response lines body) = some (intoBytes (headText lines)).length := by
  rw [intoBytes_headText]
  apply Search.position_blank_line (by decide)
  · simpa using hne
  · intro bytes hbytes
    obtain ⟨line, hline, rfl⟩ := List.mem_map.mp hbytes
    exact (hlines line hline).bytes

lemma response_eq (lines : List String) (body : Bytes) :
    response lines body = intoBytes (headText lines) ++ (CRLF ++ CRLF ++ body) := by
  rw [response, intoBytes_headText]
  rfl

/-- A client finds the lines and the body that a response is made of. -/
theorem readResponse_response (hne : lines ≠ []) (hlines : ∀ line ∈ lines, HeadLine line) :
    readResponse (response lines body) = some ⟨lines.head hne, lines.tail, body⟩ := by
  obtain ⟨head, hhead⟩ : ∃ head, intoBytes (headText lines) = head := ⟨_, rfl⟩
  have hfind : findDoubleCrlf (response lines body) = some head.length :=
    hhead ▸ findDoubleCrlf_response hne hlines
  have htake : (response lines body).take head.length = head := by
    rw [response_eq, hhead, List.take_left]
  have hdrop : (response lines body).drop (head.length + 4) = body := by
    rw [response_eq, hhead, ← List.drop_drop, List.drop_left]
    rfl
  have hutf8 : fromUtf8 head = some (headText lines) := fromUtf8_eq_some.mpr hhead
  have hall : (lines.all fun line => line.toList.all isHeadChar) = true :=
    List.all_eq_true.mpr fun line hline => (hlines line hline).2
  simp only [readResponse, hfind, htake, hutf8, splitCrlf_headText hne hlines, hall, hdrop, guard,
    if_true, List.head?_eq_some_head hne, Option.bind_eq_bind, Option.bind_some, pure]

/-- What a client reads has no control character in its lines. -/
lemma isHeadChar_of_readResponse {out : Bytes} {r : ResponseRead} (h : readResponse out = some r)
    (hline : line ∈ r.statusLine :: r.fields) {c : Char} (hc : c ∈ line.toList) :
    isHeadChar c = true := by
  simp only [readResponse, Option.bind_eq_bind, Option.bind_eq_some_iff, pure, Option.some.injEq] at h
  obtain ⟨headEnd, -, head, -, _, hguard, statusLine, hstatus, rfl⟩ := h
  have hall : ((Str.splitCrlf head).all fun line => line.toList.all isHeadChar) = true := by
    by_contra hnot
    rw [guard, if_neg hnot] at hguard
    cases hguard
  have hmem : line ∈ Str.splitCrlf head := by
    rw [← List.cons_head?_tail hstatus]
    exact hline
  exact List.all_eq_true.mp (List.all_eq_true.mp hall line hmem) c hc

end Head

/-! ### Values -/

lemma trimBlanks_eq {value : String} (hfirst : ∀ c, value.toList.head? = some c → isBlank c = false) :
    trimBlanks (" " ++ value) = String.ofList (value.toList.rdropWhile isBlank) := by
  have hspace : (" " ++ value).toList = ' ' :: value.toList := by simp
  have hstart : value.toList.dropWhile isBlank = value.toList := by
    cases hvalue : value.toList with
    | nil => rfl
    | cons c cs =>
      rw [hvalue] at hfirst
      rw [List.dropWhile_cons_of_neg]
      rw [hfirst c rfl]
      exact Bool.false_ne_true
  rw [trimBlanks, Str.trimEndChars, Str.trimStartChars, String.toList_ofList, hspace,
    List.dropWhile_cons_of_pos (by decide), hstart]

/-- The line declares another field. -/
def OtherField (name line : String) : Bool :=
  (Str.splitOnce line ':').all fun field => !Str.eqIgnoreAsciiCase field.1 name

section Fields

variable {name line : String} {lines : List String}

lemma fieldValue_skip (h : OtherField name line = true) :
    fieldValue name (line :: lines) = fieldValue name lines := by
  rw [fieldValue]
  split
  · rfl
  · rename_i key value hsplit
    have hkey : Str.eqIgnoreAsciiCase key name = false := by simpa [OtherField, hsplit] using h
    rw [hkey, if_neg Bool.false_ne_true]

lemma fieldValue_append {before : List String} (h : ∀ line ∈ before, OtherField name line = true) :
    fieldValue name (before ++ lines) = fieldValue name lines := by
  induction before with
  | nil => rfl
  | cons line before ih =>
    obtain ⟨hline, hrest⟩ := List.forall_mem_cons.mp h
    rw [List.cons_append, fieldValue_skip hline, ih hrest]

lemma splitOnce_field (hname : ':' ∉ name.toList) (value : String) :
    Str.splitOnce (name ++ ": " ++ value) ':' = some (name, " " ++ value) := by
  apply Str.splitOnce_eq_some_iff.mpr
  refine ⟨?_, hname⟩
  have hcolon : ": ".toList = ':' :: " ".toList := by decide
  rw [String.toList_append, String.toList_append, hcolon, String.toList_append]
  simp

lemma fieldValue_field (hname : ':' ∉ name.toList) {value : String}
    (hfirst : ∀ c, value.toList.head? = some c → isBlank c = false) :
    fieldValue name ((name ++ ": " ++ value) :: lines) =
      some (String.ofList (value.toList.rdropWhile isBlank)) := by
  rw [fieldValue, splitOnce_field hname]
  simp only [Str.eqIgnoreAsciiCase, beq_self_eq_true, if_true]
  rw [trimBlanks_eq hfirst]

lemma otherField_field {key : String} (hkey : ':' ∉ key.toList)
    (hne : Str.eqIgnoreAsciiCase key name = false) (value : String) :
    OtherField name (key ++ ": " ++ value) = true := by
  rw [OtherField, splitOnce_field hkey, Option.all_some, hne]
  rfl

end Fields

/-! ### The length they declare -/

lemma decimal_toDigits (n : Nat) : Str.decimal (Nat.toDigits 10 n) = n :=
  Nat.ofDigitChars_ten_toDigits

lemma toList_toString (n : Nat) : (toString n).toList = Nat.toDigits 10 n := Nat.toList_repr

lemma mem_toString {c : Char} {n : Nat} (h : c ∈ (toString n).toList) : c.isDigit = true := by
  rw [toList_toString] at h
  exact Nat.isDigit_of_mem_toDigits (by decide) (by decide) h

lemma parseUsize_toString {n : Nat} (hn : n < 2 ^ 64) : Str.parseUsize (toString n) = some n := by
  have hplus : (toString n).toList.head? ≠ some '+' := by
    intro hhead
    exact absurd (mem_toString (List.mem_of_mem_head? hhead)) (by decide)
  have hall : (Nat.toDigits 10 n).all Char.isDigit = true := by
    rw [← toList_toString]
    exact List.all_eq_true.mpr fun c hc => mem_toString hc
  have hsize : n < UInt64.size := hn
  rw [Str.parseUsize, if_neg hplus, toList_toString, decimal_toDigits,
    if_pos ⟨Nat.toDigits_ne_nil, hall, hsize⟩]

lemma isBlank_of_digit {c : Char} (h : c.isDigit = true) : isBlank c = false := by
  unfold isBlank
  rw [Bool.or_eq_false_iff, beq_eq_false_iff_ne, beq_eq_false_iff_ne]
  constructor <;> rintro rfl <;> exact absurd h (by decide)

lemma isHeadChar_of_digit {c : Char} (h : c.isDigit = true) : isHeadChar c = true := by
  have hrange : 48 ≤ c.toNat ∧ c.toNat ≤ 57 := Char.isDigit_iff_toNat.mp h
  have hle : 32 ≤ c.toNat := by omega
  have hne : c.toNat ≠ 127 := by omega
  simp [isHeadChar, hle, hne]

lemma headLine_contentLength (n : Nat) : HeadLine ("Content-Length: " ++ toString n) := by
  have hname : "Content-Length: ".toList.all isHeadChar = true := by decide
  refine ⟨by simp, ?_⟩
  rw [String.toList_append, List.all_append, hname, Bool.true_and]
  exact List.all_eq_true.mpr fun c hc => isHeadChar_of_digit (mem_toString hc)

lemma fieldValue_contentLength (n : Nat) (lines : List String) :
    fieldValue "Content-Length" (("Content-Length: " ++ toString n) :: lines) = some (toString n) := by
  have hsplit : "Content-Length: " = "Content-Length" ++ ": " := by decide
  have hname : ':' ∉ "Content-Length".toList := by decide
  have hdigits : ∀ c ∈ (toString n).toList, isBlank c = false :=
    fun c hc => isBlank_of_digit (mem_toString hc)
  have hend : (toString n).toList.rdropWhile isBlank = (toString n).toList := by
    refine List.rdropWhile_eq_self_iff.mpr fun hne => ?_
    rw [hdigits _ (List.getLast_mem hne)]
    exact Bool.false_ne_true
  rw [hsplit, fieldValue_field hname fun c hc => hdigits c (List.mem_of_mem_head? hc), hend,
    String.ofList_toList]

end Laye
