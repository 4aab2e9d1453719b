import Mathlib.Data.List.DropRight
import Laye.Http
import Laye.Lib.Utf8

/-!
# Which connections are WebSocket upgrades

`classify_ws_upgrade` of `crates/relaye/src/gateway.rs` and the peek of `handle_conn` in
`crates/relaye/src/status_page.rs`: the first bytes of a connection are searched for the text of an
upgrade header.
-/

namespace Laye

inductive WsUpgradeRoute
  | libp2p
  | gateway (topic : String)
  | unknownPath
  | notUpgrade
deriving DecidableEq

def GATEWAY_ALLOW_LIST : List String :=
  ["rave-positions/v1", "rave-chat/v1", "laye-chat/v1", "laye-identity/v1"]

/-- The size of `peek_buf`. -/
def PEEK_BYTES : Nat := 8192

/-- `u8::to_ascii_lowercase` -/
def toAsciiLowercase (b : UInt8) : UInt8 := if 65 ≤ b ∧ b ≤ 90 then b + 32 else b

/-- `upgrade: websocket`, on both sides of its colon. -/
def UPGRADE : Bytes := [117, 112, 103, 114, 97, 100, 101]

def WEBSOCKET : Bytes := [119, 101, 98, 115, 111, 99, 107, 101, 116]

def UPGRADE_NEEDLE : Bytes := UPGRADE ++ 58 :: 32 :: WEBSOCKET

def looksLikeWebsocketUpgrade (bytes : Bytes) : Bool :=
  (Search.position UPGRADE_NEEDLE (bytes.map toAsciiLowercase)).isSome

def parseRequestTarget (peek : Bytes) : Option String := do
  let firstCrlf ← Search.position CRLF peek
  let line ← fromUtf8 (peek.take firstCrlf)
  match Str.splitn 3 ' ' line with
  | _method :: target :: _version :: _ => some target
  | _ => none

/-- The route of a target that is upgraded. -/
def routeOfTarget (allowList : List String) (target : String) : WsUpgradeRoute :=
  if target = "/" then .libp2p
  else
    match Str.strip "/ws/" target with
    | some topic => if topic ∈ allowList then .gateway topic else .unknownPath
    | none => .unknownPath

def classifyWsUpgrade (peek : Bytes) (allowList : List String) : WsUpgradeRoute :=
  if looksLikeWebsocketUpgrade peek = false then .notUpgrade
  else
    match parseRequestTarget peek with
    | none => .notUpgrade
    | some target => routeOfTarget allowList target

/-- Where `handle_conn` sends a connection by what it peeks; a peek of nothing ends it. -/
def handleConn (peek : Bytes) : Option WsUpgradeRoute :=
  if peek = [] then none else some (classifyWsUpgrade peek GATEWAY_ALLOW_LIST)

example : UPGRADE_NEEDLE = intoBytes "upgrade: websocket" := by decide

lemma routeOfTarget_ne (allowList : List String) (target : String) :
    routeOfTarget allowList target ≠ .notUpgrade := by
  unfold routeOfTarget
  split
  · nofun
  · split
    · split <;> nofun
    · nofun

/-- What makes a peek an upgrade. -/
lemma classifyWsUpgrade_eq_iff {peek : Bytes} {allowList : List String} :
    classifyWsUpgrade peek allowList ≠ .notUpgrade ↔
      looksLikeWebsocketUpgrade peek = true ∧ (parseRequestTarget peek).isSome = true := by
  unfold classifyWsUpgrade
  cases hlooks : looksLikeWebsocketUpgrade peek with
  | false => simp
  | true =>
    cases htarget : parseRequestTarget peek with
    | none => simp
    | some target => simp [routeOfTarget_ne]

/-! ### Longer and longer peeks -/

section Peek

variable {peek : Bytes}

lemma looksLikeWebsocketUpgrade_iff :
    looksLikeWebsocketUpgrade peek = true ↔ UPGRADE_NEEDLE <:+: peek.map toAsciiLowercase :=
  Search.position_isSome

lemma looksLikeWebsocketUpgrade_append (h : looksLikeWebsocketUpgrade peek = true) (more : Bytes) :
    looksLikeWebsocketUpgrade (peek ++ more) = true := by
  rw [looksLikeWebsocketUpgrade_iff] at h ⊢
  rw [List.map_append]
  exact h.trans (List.prefix_append _ _).isInfix

lemma parseRequestTarget_append {target : String} (h : parseRequestTarget peek = some target)
    (more : Bytes) : parseRequestTarget (peek ++ more) = some target := by
  simp only [parseRequestTarget, bind, Option.bind_eq_some_iff] at h ⊢
  obtain ⟨firstCrlf, hcrlf, line, hline, hparts⟩ := h
  have hfits := Search.position_fits hcrlf
  refine ⟨firstCrlf, Search.position_append hcrlf more, line, ?_, hparts⟩
  rw [List.take_append_of_le_length (by omega)]
  exact hline

/-- A peek that is an upgrade has the route of every longer one. -/
theorem classifyWsUpgrade_append {allowList : List String}
    (h : classifyWsUpgrade peek allowList ≠ .notUpgrade) (more : Bytes) :
    classifyWsUpgrade (peek ++ more) allowList = classifyWsUpgrade peek allowList := by
  obtain ⟨hlooks, htarget⟩ := classifyWsUpgrade_eq_iff.mp h
  obtain ⟨target, htarget⟩ := Option.isSome_iff_exists.mp htarget
  have hlooks' := looksLikeWebsocketUpgrade_append hlooks more
  have htarget' := parseRequestTarget_append htarget more
  simp only [classifyWsUpgrade, hlooks, hlooks', htarget, htarget']

end Peek

/-- A peek of the stream, as the kernel may cut it. -/
def PeekOf (stream peek : Bytes) : Prop := peek <+: stream ∧ peek ≠ [] ∧ peek.length ≤ PEEK_BYTES

lemma not_looksLike_of_short {peek : Bytes} (h : peek.length < UPGRADE_NEEDLE.length) :
    looksLikeWebsocketUpgrade peek = false := by
  rw [Bool.eq_false_iff, Ne, looksLikeWebsocketUpgrade_iff]
  intro hin
  have hle := hin.length_le
  rw [List.length_map] at hle
  omega

/-- The routes of all peeks agree exactly when even the longest is no upgrade. -/
theorem handleConn_segmentation_iff (stream : Bytes) :
    (∀ p q, PeekOf stream p → PeekOf stream q → handleConn p = handleConn q) ↔
      looksLikeWebsocketUpgrade (stream.take PEEK_BYTES) = false ∨
        parseRequestTarget (stream.take PEEK_BYTES) = none := by
  have hlongest : (looksLikeWebsocketUpgrade (stream.take PEEK_BYTES) = false ∨
      parseRequestTarget (stream.take PEEK_BYTES) = none) ↔
        classifyWsUpgrade (stream.take PEEK_BYTES) GATEWAY_ALLOW_LIST = .notUpgrade := by
    rw [← not_iff_not, ← Ne, classifyWsUpgrade_eq_iff, not_or, Bool.not_eq_false,
      Option.isSome_iff_ne_none]
  have hpeek : ∀ p, PeekOf stream p → p <+: stream.take PEEK_BYTES :=
    fun p ⟨hpre, _, hlength⟩ => List.prefix_take_iff.mpr ⟨hpre, hlength⟩
  rw [hlongest]
  constructor
  · intro hsame
    by_cases hempty : stream = []
    · rw [hempty]
      decide
    · have hone : PeekOf stream (stream.take 1) := by
        refine ⟨List.take_prefix _ _, ?_, ?_⟩
        · simp [hempty]
        · exact (List.length_take_le 1 stream).trans (by decide)
      have hmost : PeekOf stream (stream.take PEEK_BYTES) := by
        refine ⟨List.take_prefix _ _, ?_, List.length_take_le _ _⟩
        simp [hempty, PEEK_BYTES]
      have hshort : looksLikeWebsocketUpgrade (stream.take 1) = false :=
        not_looksLike_of_short ((List.length_take_le 1 stream).trans_lt (by decide))
      have heq := hsame _ _ hmost hone
      rw [handleConn, if_neg hmost.2.1, handleConn, if_neg hone.2.1, Option.some.injEq] at heq
      rw [heq, classifyWsUpgrade, if_pos hshort]
  · intro hnot
    have hall : ∀ p, PeekOf stream p → handleConn p = some .notUpgrade := by
      intro p hp
      obtain ⟨more, hmore⟩ := hpeek p hp
      rw [handleConn, if_neg hp.2.1]
      by_contra hne
      have hupgrade : classifyWsUpgrade p GATEWAY_ALLOW_LIST ≠ .notUpgrade :=
        fun h => hne (congrArg some h)
      have happend := classifyWsUpgrade_append hupgrade more
      rw [hmore, hnot] at happend
      exact hupgrade happend.symm
    intro p q hp hq
    rw [hall p hp, hall q hq]

/-- A handshake whose upgrade header comes in a second segment. -/
def handshakeStart : Bytes := intoBytes "GET / HTTP/1.1\r\nHost: a\r\n"

def handshakeRest : Bytes := intoBytes "Upgrade: websocket\r\n\r\n"

lemma parseRequestTarget_handshake : parseRequestTarget (handshakeStart ++ handshakeRest) = some "/" := by
  have hcrlf : Search.position CRLF (handshakeStart ++ handshakeRest) = some 14 := by decide
  have hline : fromUtf8 ((handshakeStart ++ handshakeRest).take 14) = some "GET / HTTP/1.1" :=
    fromUtf8_eq_some.mpr (by decide)
  simp only [parseRequestTarget, hcrlf, bind, Option.bind, hline]
  decide

/-- The first segment goes to the HTTP router, the whole to libp2p. -/
theorem handleConn_segmented_handshake :
    ¬∀ stream p q, PeekOf stream p → PeekOf stream q → handleConn p = handleConn q := by
  intro h
  have hwhole : handleConn (handshakeStart ++ handshakeRest) = some .libp2p := by
    have hlooks : looksLikeWebsocketUpgrade (handshakeStart ++ handshakeRest) = true := by decide
    rw [handleConn, if_neg (by decide), classifyWsUpgrade, hlooks, parseRequestTarget_handshake]
    decide
  have hstart : handleConn handshakeStart = some .notUpgrade := by
    have hlooks : looksLikeWebsocketUpgrade handshakeStart = false := by decide
    rw [handleConn, if_neg (by decide), classifyWsUpgrade, if_pos hlooks]
  have hsame := h (handshakeStart ++ handshakeRest) handshakeStart (handshakeStart ++ handshakeRest)
    ⟨List.prefix_append _ _, by decide, by decide⟩ ⟨List.prefix_refl _, by decide, by decide⟩
  rw [hstart, hwhole] at hsame
  cases hsame

/-! ### Complete requests -/

/-- A line has neither CR nor LF. -/
def LineBytes (bytes : Bytes) : Prop := 13 ∉ bytes ∧ 10 ∉ bytes

/-- A header line `name:value`, its value with the blanks around it. -/
structure HeaderField where
  name : Bytes
  value : Bytes
  name_line : LineBytes name
  name_colon : 58 ∉ name
  value_line : LineBytes value

def HeaderField.line (f : HeaderField) : Bytes := f.name ++ 58 :: f.value

/-- The head of a request: a request line in three parts and header lines. -/
structure RequestHead where
  method : Bytes
  target : Bytes
  version : Bytes
  fields : List HeaderField
  method_line : LineBytes method
  method_space : 32 ∉ method
  target_line : LineBytes target
  target_space : 32 ∉ target
  version_line : LineBytes version

namespace RequestHead

def requestLine (head : RequestHead) : Bytes := head.method ++ 32 :: head.target ++ 32 :: head.version

/-- The bytes of the head, with the blank line. -/
def bytes (head : RequestHead) : Bytes :=
  head.requestLine ++ CRLF ++ (head.fields.flatMap fun f => f.line ++ CRLF) ++ CRLF

end RequestHead

/-- A space or a tab. -/
def isOws (b : UInt8) : Bool := b == 32 || b == 9

def trimOws (bytes : Bytes) : Bytes := (bytes.dropWhile isOws).rdropWhile isOws

/-- The field says `upgrade: websocket`, in any case and with any blanks around the value. -/
def HeaderField.IsUpgrade (f : HeaderField) : Prop :=
  f.name.map toAsciiLowercase = UPGRADE ∧ trimOws (f.value.map toAsciiLowercase) = WEBSOCKET

def RequestHead.HasUpgrade (head : RequestHead) : Prop := ∃ f ∈ head.fields, f.IsUpgrade

/-- One space stands between the colon and what comes first in the value. -/
def HeaderField.OneSpace (f : HeaderField) : Prop :=
  32 :: WEBSOCKET <+: f.value.map toAsciiLowercase

/-- The text of an upgrade header stands in another field: across its colon, or in its value. -/
def HeaderField.Misleads (f : HeaderField) : Prop :=
  ¬f.IsUpgrade ∧ ((UPGRADE <:+ f.name.map toAsciiLowercase ∧ f.OneSpace) ∨
    UPGRADE_NEEDLE <:+: f.value.map toAsciiLowercase)

/-- The text stands where it is no upgrade header. -/
def StrayText (head : RequestHead) (body : Bytes) : Prop :=
  UPGRADE_NEEDLE <:+: head.requestLine.map toAsciiLowercase ∨
    (∃ f ∈ head.fields, f.Misleads) ∨ UPGRADE_NEEDLE <:+: body.map toAsciiLowercase

/-- The request line is UTF-8. -/
def RequestHead.ReadableLine (head : RequestHead) : Prop := ∃ line, fromUtf8 head.requestLine = some line

/-! ### Where the text can stand -/

/-- Lower-casing goes from letters to letters. -/
lemma toAsciiLowercase_of_lt {b : UInt8} (h : toAsciiLowercase b < 97) : toAsciiLowercase b = b := by
  unfold toAsciiLowercase at h ⊢
  split_ifs at h ⊢ with hupper
  · simp only [UInt8.le_iff_toNat_le, UInt8.lt_iff_toNat_lt, UInt8.toNat_add] at h hupper
    simp at h hupper
    omega
  · rfl

/-- Nothing else becomes a CR, an LF or a colon in lower case. -/
lemma not_mem_lowercase {c : UInt8} (hc : c = 13 ∨ c = 10 ∨ c = 58) {bytes : Bytes} (h : c ∉ bytes) :
    c ∉ bytes.map toAsciiLowercase := by
  rw [List.mem_map]
  rintro ⟨b, hb, rfl⟩
  have hlt : toAsciiLowercase b < 97 := by
    rcases hc with hc | hc | hc <;> rw [hc] <;> decide
  rw [toAsciiLowercase_of_lt hlt] at h
  exact h hb

/-- The text does not reach from one line into the next. -/
lemma infix_line_iff {line rest : Bytes} :
    UPGRADE_NEEDLE <:+: (line ++ CRLF ++ rest).map toAsciiLowercase ↔
      UPGRADE_NEEDLE <:+: line.map toAsciiLowercase ∨
        UPGRADE_NEEDLE <:+: rest.map toAsciiLowercase := by
  have hne : UPGRADE_NEEDLE ≠ [] := by decide
  have hcr : (13 : UInt8) ∉ UPGRADE_NEEDLE := by decide
  have hlf : (10 : UInt8) ∉ UPGRADE_NEEDLE := by decide
  have hcut : (line ++ CRLF ++ rest).map toAsciiLowercase =
      line.map toAsciiLowercase ++ 13 :: ([] ++ 10 :: rest.map toAsciiLowercase) := by
    rw [List.map_append, List.map_append, List.append_assoc]
    rfl
  rw [hcut, Search.infix_append_cons_iff hne hcr, Search.infix_append_cons_iff hne hlf,
    List.infix_nil]
  simp [hne]

lemma infix_fields_iff (fields : List HeaderField) (rest : Bytes) :
    UPGRADE_NEEDLE <:+: ((fields.flatMap fun f => f.line ++ CRLF) ++ rest).map toAsciiLowercase ↔
      (∃ f ∈ fields, UPGRADE_NEEDLE <:+: f.line.map toAsciiLowercase) ∨
        UPGRADE_NEEDLE <:+: rest.map toAsciiLowercase := by
  induction fields with
  | nil => simp
  | cons f fields ih =>
    rw [List.flatMap_cons, List.append_assoc, infix_line_iff, ih]
    simp only [List.mem_cons, exists_eq_or_imp, or_assoc]

lemma infix_request_iff (head : RequestHead) (body : Bytes) :
    UPGRADE_NEEDLE <:+: (head.bytes ++ body).map toAsciiLowercase ↔
      UPGRADE_NEEDLE <:+: head.requestLine.map toAsciiLowercase ∨
        (∃ f ∈ head.fields, UPGRADE_NEEDLE <:+: f.line.map toAsciiLowercase) ∨
          UPGRADE_NEEDLE <:+: body.map toAsciiLowercase := by
  have hbytes : head.bytes ++ body = head.requestLine ++ CRLF ++
      ((head.fields.flatMap fun f => f.line ++ CRLF) ++ ([] ++ CRLF ++ body)) := by
    simp only [RequestHead.bytes, List.append_assoc, List.nil_append]
  have hnil : ¬UPGRADE_NEEDLE <:+: ([] : Bytes).map toAsciiLowercase := by decide
  rw [hbytes, infix_line_iff, infix_fields_iff, infix_line_iff, or_iff_right hnil]

lemma mem_trimOws {b : UInt8} {bytes : Bytes} (hb : isOws b = false) (h : b ∈ bytes) :
    b ∈ trimOws bytes := by
  have hcut := bytes.takeWhile_append_dropWhile (p := isOws)
  have hdropped : b ∈ bytes.dropWhile isOws := by
    rw [← hcut, List.mem_append] at h
    rcases h with hfirst | hlater
    · have hows := List.mem_takeWhile_imp hfirst
      rw [hb] at hows
      cases hows
    · exact hlater
  have hcut' : trimOws bytes ++ (bytes.dropWhile isOws).rtakeWhile isOws = bytes.dropWhile isOws :=
    List.rdropWhile_append_rtakeWhile
  rw [← hcut', List.mem_append] at hdropped
  rcases hdropped with hkept | hlast
  · exact hkept
  · have hows := List.mem_rtakeWhile_imp hlast
    rw [hb] at hows
    cases hows

/-- An upgrade field has the text only around its colon. -/
lemma not_infix_value {f : HeaderField} (h : f.IsUpgrade) :
    ¬UPGRADE_NEEDLE <:+: f.value.map toAsciiLowercase := by
  intro hin
  have hu : (117 : UInt8) ∈ f.value.map toAsciiLowercase := hin.subset (by decide)
  have htrim := mem_trimOws (by decide) hu
  rw [h.2] at htrim
  exact absurd htrim (by decide)

lemma infix_field_iff (f : HeaderField) :
    UPGRADE_NEEDLE <:+: f.line.map toAsciiLowercase ↔ (f.IsUpgrade ∧ f.OneSpace) ∨ f.Misleads := by
  have hcolon : (58 : UInt8) ∉ UPGRADE := by decide
  have hline : f.line.map toAsciiLowercase =
      f.name.map toAsciiLowercase ++ 58 :: f.value.map toAsciiLowercase := by
    rw [HeaderField.line, List.map_append, List.map_cons]
    rfl
  have hname := not_mem_lowercase (Or.inr (Or.inr rfl)) f.name_colon
  have haround := Search.infix_around_iff hcolon hname (32 :: WEBSOCKET)
    (f.value.map toAsciiLowercase)
  rw [hline, UPGRADE_NEEDLE, haround]
  by_cases hupgrade : f.IsUpgrade
  · have hsuffix : UPGRADE <:+ f.name.map toAsciiLowercase := by rw [hupgrade.1]
    have hvalue := not_infix_value hupgrade
    rw [UPGRADE_NEEDLE] at hvalue
    simp only [HeaderField.Misleads, HeaderField.OneSpace, hupgrade, hsuffix, hvalue, true_and,
      or_false, not_true_eq_false, false_and]
  · simp only [HeaderField.Misleads, HeaderField.OneSpace, UPGRADE_NEEDLE, hupgrade, false_and,
      false_or, not_false_eq_true, true_and]

/-- What the scan finds: an upgrade field with one space, or stray text. -/
lemma looksLikeWebsocketUpgrade_request (head : RequestHead) (body : Bytes) :
    looksLikeWebsocketUpgrade (head.bytes ++ body) = true ↔
      (∃ f ∈ head.fields, f.IsUpgrade ∧ f.OneSpace) ∨ StrayText head body := by
  rw [looksLikeWebsocketUpgrade_iff, infix_request_iff]
  simp only [infix_field_iff, StrayText, and_or_left, exists_or]
  rw [or_assoc, or_left_comm]

/-! ### The request line -/

lemma line_requestLine (head : RequestHead) : 13 ∉ head.requestLine := by
  have hmethod := head.method_line.1
  have htarget := head.target_line.1
  have hversion := head.version_line.1
  simp [RequestHead.requestLine, hmethod, htarget, hversion]

/-- A text with two separators has three parts. -/
lemma splitn_three_parts {s : String} {c : Char} (h : 2 ≤ s.toList.count c) :
    ∃ first second third, Str.splitn 3 c s = [first, second, third] := by
  have hlength := Str.length_splitn 2 c s
  rw [Nat.min_eq_left h] at hlength
  exact List.length_eq_three.mp hlength

/-- The target is the second of three parts of the first line, whatever comes after the line. -/
lemma parseRequestTarget_line_iff {line : Bytes} (hnot : ¬[13, 10] <:+: line) (rest : Bytes)
    {target : String} :
    parseRequestTarget (line ++ 13 :: 10 :: rest) = some target ↔
      ∃ text method version, fromUtf8 line = some text ∧
        Str.splitn 3 ' ' text = [method, target, version] := by
  have hcrlf : Search.position CRLF (line ++ 13 :: 10 :: rest) = some line.length :=
    Search.position_pair (by decide) hnot
  have htake : (line ++ 13 :: 10 :: rest).take line.length = line := List.take_left
  simp only [parseRequestTarget, hcrlf, htake, bind, Option.bind_some]
  constructor
  · intro h
    obtain ⟨text, hutf8, hparts⟩ := Option.bind_eq_some_iff.mp h
    split at hparts
    case h_1 method target version more hsplit =>
      have hlength := Str.length_splitn 2 ' ' text
      rw [hsplit] at hlength
      simp only [List.length_cons] at hlength
      obtain rfl : more = [] := List.eq_nil_of_length_eq_zero (by omega)
      cases hparts
      exact ⟨text, method, version, hutf8, hsplit⟩
    case h_2 => cases hparts
  · rintro ⟨text, method, version, hutf8, hsplit⟩
    rw [hutf8, Option.bind_some, hsplit]

/-- The target of a complete request is read exactly when the request line is UTF-8. -/
lemma parseRequestTarget_request (head : RequestHead) (body : Bytes) :
    (parseRequestTarget (head.bytes ++ body)).isSome = true ↔ head.ReadableLine := by
  have hbytes : head.bytes ++ body = head.requestLine ++ 13 :: 10 ::
      ((head.fields.flatMap fun f => f.line ++ CRLF) ++ CRLF ++ body) := by
    simp only [RequestHead.bytes, CRLF, List.append_assoc, List.cons_append, List.nil_append]
  have hnot : ¬[13, 10] <:+: head.requestLine :=
    fun hin => line_requestLine head (hin.subset List.mem_cons_self)
  rw [hbytes, Option.isSome_iff_exists]
  simp only [parseRequestTarget_line_iff hnot]
  constructor
  · rintro ⟨target, line, method, version, hline, hparts⟩
    exact ⟨line, hline⟩
  · rintro ⟨line, hline⟩
    have hspaces : 2 ≤ line.toList.count ' ' := by
      have hcount := Utf8.count_encode (c := ' ') (by decide) line.toList
      rw [← intoBytes_eq, fromUtf8_eq_some.mp hline] at hcount
      have htwo : 2 ≤ head.requestLine.count 32 := by
        simp only [RequestHead.requestLine, List.count_append, List.count_cons_self]
        omega
      rw [← hcount]
      exact htwo
    obtain ⟨method, target, version, hparts⟩ := splitn_three_parts hspaces
    exact ⟨target, line, method, version, hline, hparts⟩

lemma classifyWsUpgrade_request (head : RequestHead) (body : Bytes) (allowList : List String) :
    classifyWsUpgrade (head.bytes ++ body) allowList ≠ .notUpgrade ↔
      ((∃ f ∈ head.fields, f.IsUpgrade ∧ f.OneSpace) ∨ StrayText head body) ∧ head.ReadableLine := by
  rw [classifyWsUpgrade_eq_iff, looksLikeWebsocketUpgrade_request, parseRequestTarget_request]

/-- Exactly when the scan recognises the upgrade header of a complete request. -/
theorem classifyWsUpgrade_iff_header (head : RequestHead) (body : Bytes) (allowList : List String) :
    (classifyWsUpgrade (head.bytes ++ body) allowList ≠ .notUpgrade ↔ head.HasUpgrade) ↔
      (head.HasUpgrade ∧ head.ReadableLine ∧
        ((∃ f ∈ head.fields, f.IsUpgrade ∧ f.OneSpace) ∨ StrayText head body)) ∨
      (¬head.HasUpgrade ∧ ¬(head.ReadableLine ∧ StrayText head body)) := by
  have hspelled : (∃ f ∈ head.fields, f.IsUpgrade ∧ f.OneSpace) → head.HasUpgrade :=
    fun ⟨f, hf, hupgrade, _⟩ => ⟨f, hf, hupgrade⟩
  rw [classifyWsUpgrade_request]
  by_cases hheader : head.HasUpgrade
  · simp only [hheader, iff_true, true_and, not_true_eq_false, false_and, or_false]
    exact and_comm
  · have hnone : ¬∃ f ∈ head.fields, f.IsUpgrade ∧ f.OneSpace := fun h => hheader (hspelled h)
    simp only [hheader, iff_false, false_and, false_or, not_false_eq_true, true_and, hnone]
    rw [and_comm]

/-- A request for a signature with no upgrade header. -/
def signRequest : RequestHead where
  method := intoBytes "POST"
  target := intoBytes "/me/sign/mastodon"
  version := intoBytes "HTTP/1.1"
  fields := [⟨intoBytes "Host", intoBytes " a", ⟨by decide, by decide⟩, by decide,
    ⟨by decide, by decide⟩⟩]
  method_line := ⟨by decide, by decide⟩
  method_space := by decide
  target_line := ⟨by decide, by decide⟩
  target_space := by decide
  version_line := ⟨by decide, by decide⟩

/-- Text in its body makes it an upgrade. -/
theorem classifyWsUpgrade_text_in_body :
    ¬∀ (head : RequestHead) (body : Bytes) (allowList : List String),
      classifyWsUpgrade (head.bytes ++ body) allowList ≠ .notUpgrade ↔ head.HasUpgrade := by
  intro h
  have hstray : StrayText signRequest (intoBytes "\x7b\"note\":\"upgrade: websocket\"\x7d") := by
    refine Or.inr (Or.inr ?_)
    rw [← looksLikeWebsocketUpgrade_iff]
    decide
  have hline : signRequest.ReadableLine :=
    ⟨"POST /me/sign/mastodon HTTP/1.1", fromUtf8_eq_some.mpr (by decide)⟩
  have hupgrade := (classifyWsUpgrade_request _ _ GATEWAY_ALLOW_LIST).mpr ⟨Or.inr hstray, hline⟩
  obtain ⟨f, hf, hname, -⟩ := (h _ _ _).mp hupgrade
  obtain rfl := List.mem_singleton.mp hf
  exact absurd hname (by decide)

end Laye
