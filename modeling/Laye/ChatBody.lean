import Laye.InternalTopics
import Laye.Lib.Utf8

/-!
# What a chat message may hold

The input field takes any text; what is signed is its longest front of whole characters that fits
the limit.
-/

namespace Laye

/-! ### The cut -/

lemma boundaryFrom_isCharBoundary (body : String) (n : Nat) :
    Str.isCharBoundary body (boundaryFrom body n) = true := by
  induction n with
  | zero => exact Str.isCharBoundary_zero body
  | succ n ih =>
    unfold boundaryFrom
    by_cases h : Str.isCharBoundary body (n + 1) = true
    · rw [if_pos h]
      exact h
    · rw [if_neg h]
      exact ih

lemma boundaryFrom_le (body : String) (n : Nat) : boundaryFrom body n ≤ n := by
  induction n with
  | zero => exact Nat.le_refl 0
  | succ n ih =>
    unfold boundaryFrom
    split
    · exact Nat.le_refl _
    · omega

/-- The loop stops at the first boundary it meets. -/
lemma le_boundaryFrom {body : String} {n k : Nat} (hk : k ≤ n)
    (hboundary : Str.isCharBoundary body k = true) : k ≤ boundaryFrom body n := by
  induction n with
  | zero => exact hk
  | succ n ih =>
    unfold boundaryFrom
    by_cases h : Str.isCharBoundary body (n + 1) = true
    · rw [if_pos h]
      exact hk
    · rw [if_neg h]
      have hne : k ≠ n + 1 := by
        rintro rfl
        exact h hboundary
      exact ih (by omega)

/-- The loop of `trim_to_char_boundary` with `fuel` turns to go, where `end` cannot go below zero. -/
def trimLoop (body : String) : Nat → Nat → Except Fault Nat
  | 0, _ => .error .outOfFuel
  | fuel + 1, stop =>
    if Str.isCharBoundary body stop then .ok stop
    else if stop = 0 then .error .panic
    else trimLoop body fuel (stop - 1)

/-- `trim_to_char_boundary` with every way it could fail. -/
def trimChecked (body : String) (maxBytes : Nat) : Except Fault String :=
  if Str.len body ≤ maxBytes then .ok body
  else do
    let stop ← trimLoop body (maxBytes + 1) maxBytes
    match Str.sliceTo body stop with
    | some cut => .ok cut
    | none => .error .panic

/-- Zero is a boundary, so the loop gets no further. -/
lemma trimLoop_eq (body : String) (n : Nat) : trimLoop body (n + 1) n = .ok (boundaryFrom body n) := by
  induction n with
  | zero =>
    rw [trimLoop, if_pos (Str.isCharBoundary_zero body)]
    rfl
  | succ n ih =>
    rw [trimLoop, boundaryFrom]
    by_cases h : Str.isCharBoundary body (n + 1) = true
    · rw [if_pos h, if_pos h]
    · rw [if_neg h, if_neg h, if_neg (Nat.succ_ne_zero n)]
      exact ih

/-- A longest cut of `body` with at most `maxBytes` bytes: none of the texts whose bytes `body`
begins with is longer. -/
structure LongestCut (body : String) (maxBytes : Nat) (cut : String) : Prop where
  front : cut.toList <+: body.toList
  fits : Str.len cut ≤ maxBytes
  longest : ∀ text : String, intoBytes text <+: intoBytes body → Str.len text ≤ maxBytes →
    text.toList <+: cut.toList

lemma front_of_bytes {text body : String} (h : intoBytes text <+: intoBytes body) :
    text.toList <+: body.toList := by
  rw [intoBytes_eq, intoBytes_eq] at h
  exact Utf8.prefix_of_encode_prefix h

lemma trimToCharBoundary_of_lt {body : String} {maxBytes : Nat} (h : ¬Str.len body ≤ maxBytes) :
    Str.sliceTo body (boundaryFrom body maxBytes) = some (trimToCharBoundary body maxBytes) := by
  have hsome := boundaryFrom_isCharBoundary body maxBytes
  rw [Str.isCharBoundary, Option.isSome_iff_exists] at hsome
  obtain ⟨cut, hcut⟩ := hsome
  rw [trimToCharBoundary, if_neg h, hcut]
  rfl

lemma longestCut_trim (body : String) (maxBytes : Nat) :
    LongestCut body maxBytes (trimToCharBoundary body maxBytes) := by
  by_cases h : Str.len body ≤ maxBytes
  · have htrim : trimToCharBoundary body maxBytes = body := by rw [trimToCharBoundary, if_pos h]
    rw [htrim]
    exact ⟨List.prefix_refl _, h, fun text hfront _ => front_of_bytes hfront⟩
  · obtain ⟨hfront, hlen⟩ := Str.sliceTo_eq_some_iff.mp (trimToCharBoundary_of_lt h)
    refine ⟨hfront, hlen ▸ boundaryFrom_le body maxBytes, fun text hbytes hfits => ?_⟩
    have htext := front_of_bytes hbytes
    have hle := le_boundaryFrom hfits (Str.isCharBoundary_iff.mpr ⟨text, htext, rfl⟩)
    rw [← hlen, Str.len_eq, Str.len_eq] at hle
    exact Str.prefix_of_width_le htext hfront hle

example : trimToCharBoundary "aa€bb" 4 = "aa" := by decide

/-- A body has one longest cut. -/
lemma LongestCut.eq {body cut cut' : String} {maxBytes : Nat} (h : LongestCut body maxBytes cut)
    (h' : LongestCut body maxBytes cut') : cut = cut' := by
  have hbytes : ∀ text : String, text.toList <+: body.toList → intoBytes text <+: intoBytes body := by
    intro text hfront
    obtain ⟨rest, hrest⟩ := hfront
    rw [intoBytes_eq, intoBytes_eq, ← hrest, List.flatMap_append]
    exact List.prefix_append _ _
  have hle := h'.longest cut (hbytes cut h.front) h.fits
  have hge := h.longest cut' (hbytes cut' h'.front) h'.fits
  exact String.toList_inj.mp (hle.eq_of_length (Nat.le_antisymm hle.length_le hge.length_le))

lemma trimChecked_eq (body : String) (maxBytes : Nat) :
    trimChecked body maxBytes = .ok (trimToCharBoundary body maxBytes) := by
  unfold trimChecked
  by_cases h : Str.len body ≤ maxBytes
  · rw [if_pos h, trimToCharBoundary, if_pos h]
  · rw [if_neg h, trimLoop_eq]
    simp only [bind, Except.bind, trimToCharBoundary_of_lt h]

lemma trimToCharBoundary_trim (body : String) (maxBytes : Nat) :
    trimToCharBoundary (trimToCharBoundary body maxBytes) maxBytes = trimToCharBoundary body maxBytes := by
  rw [trimToCharBoundary, if_pos (longestCut_trim body maxBytes).fits]

/-! ### What is signed -/

namespace AppState

variable {lib : Libp2pIdentity} (deps : Deps lib)

/-- The message of the input field goes out signed as it was cut. -/
def OwnCut (deps : Deps lib) (st : AppState lib) (value : String) (now : UInt64) (topic : String)
    (bytes : Bytes) : Prop :=
  topic = CHAT_TOPIC ∧ ∃ net, st.net = some net ∧
    buildSignedWire lib deps.serde net.keypair (trimToCharBoundary value MAX_BODY_BYTES) now =
      some bytes

lemma submits_sendChat (st : AppState lib) (value : String) (now : UInt64) :
    Submits (OwnCut deps st value now) st (sendChat deps st value now) :=
  submits_acts (acts_sendChat st value now (fun net _ hnet hwire => ⟨rfl, net, hnet, hwire⟩))

/-- A chat payload comes from a message in the input field. -/
lemma submitted_chat (dom : DomContext) (ops : List (ClientOp lib)) (st : AppState lib)
    (h : run deps (start dom) ops = .ok st) {s : Outbox.Submission Bytes}
    (hs : s ∈ submittedFor CHAT_TOPIC st.log) :
    ∃ before value now after, Call deps (start dom) ops before (.sendChat value now) after ∧
      OwnCut deps before value now CHAT_TOPIC s.payload := by
  rcases run_submits deps h hs with hstart | ⟨before, op, after, hcall, ⟨new, hlog, hnew⟩, hmay⟩
  · simp [start, submittedFor] at hstart
  · cases op with
    | sendChat value now =>
      have hstep : sendChat deps before value now = after := Except.ok.inj hcall.step
      obtain ⟨new', hlog', hcut⟩ := submits_sendChat deps before value now CHAT_TOPIC
      rw [hstep, hlog] at hlog'
      rw [List.append_cancel_left hlog'] at hnew
      exact ⟨before, value, now, after, hcall, hcut s hnew⟩
    | publish topic bytes =>
      obtain ⟨rfl, -, hnot⟩ := hmay
      exact absurd hnot (by decide)
    | login json => exact absurd hmay.1 (by decide)
    | init configJson answers => exact absurd hmay.1 (by decide)
    | subscribeOpaque | pendingBytes | recvBytes | emitError | dismissError | driveEnded =>
      exact hmay.elim

/-- `trim_to_char_boundary` never fails, its result is the longest cut and a cut stays as it is. So
whatever is typed, every chat payload of a client is signed over a text of at most
`MAX_BODY_BYTES` bytes of UTF-8. -/
theorem chat_bodies_cut (body : String) (maxBytes : Nat) :
    trimChecked body maxBytes = .ok (trimToCharBoundary body maxBytes) ∧
    LongestCut body maxBytes (trimToCharBoundary body maxBytes) ∧
    trimToCharBoundary (trimToCharBoundary body maxBytes) maxBytes = trimToCharBoundary body maxBytes ∧
    ∀ (dom : DomContext) (ops : List (ClientOp lib)) (st : AppState lib),
      run deps (start dom) ops = .ok st → ∀ s ∈ submittedFor CHAT_TOPIC st.log,
      ∃ before net signed now, before.net = some net ∧
        buildSignedWire lib deps.serde net.keypair signed now = some s.payload ∧
        (∃ value after, Call deps (start dom) ops before (.sendChat value now) after ∧
          LongestCut value MAX_BODY_BYTES signed) ∧
        (intoBytes signed).length ≤ MAX_BODY_BYTES ∧ fromUtf8 (intoBytes signed) = some signed ∧
        trimToCharBoundary signed MAX_BODY_BYTES = signed := by
  refine ⟨trimChecked_eq body maxBytes, longestCut_trim body maxBytes,
    trimToCharBoundary_trim body maxBytes, ?_⟩
  intro dom ops st h s hs
  obtain ⟨before, value, now, after, hcall, -, net, hnet, hwire⟩ := submitted_chat deps dom ops st h hs
  have hcut := longestCut_trim value MAX_BODY_BYTES
  refine ⟨before, net, _, now, hnet, hwire, ⟨value, after, hcall, hcut⟩, ?_, ?_, ?_⟩
  · exact hcut.fits
  · exact fromUtf8_eq_some.mpr rfl
  · exact trimToCharBoundary_trim value MAX_BODY_BYTES

/-- A text of three bytes a character. -/
def euros (n : Nat) : String := String.ofList (List.replicate n '€')

lemma toList_euros (n : Nat) : (euros n).toList = List.replicate n '€' := String.toList_ofList

lemma len_euros (n : Nat) : Str.len (euros n) = 3 * n := by
  have hone : '€'.utf8Size = 3 := by decide
  rw [Str.len_eq, toList_euros]
  induction n with
  | zero => rfl
  | succ n ih =>
    rw [List.replicate_succ, Str.width, ih, hone]
    omega

lemma eq_euros {text : String} {n : Nat} (h : text.toList <+: List.replicate n '€') :
    ∃ k ≤ n, text = euros k := by
  obtain ⟨hle, hall⟩ := List.prefix_replicate_iff.mp h
  exact ⟨text.toList.length, hle, String.toList_inj.mp (hall.trans (toList_euros _).symm)⟩

lemma longestCut_euros {n k limit : Nat} (hk : k ≤ n) (hfits : 3 * k ≤ limit)
    (hlimit : limit < 3 * (k + 1)) : LongestCut (euros n) limit (euros k) := by
  have hfront : ∀ {k n : Nat}, k ≤ n → List.replicate k '€' <+: List.replicate n '€' := fun h =>
    List.prefix_replicate_iff.mpr ⟨by simpa using h, by simp⟩
  refine ⟨?_, (len_euros k).trans_le hfits, fun text hbytes hlen => ?_⟩
  · rw [toList_euros, toList_euros]
    exact hfront hk
  · have hbegins := front_of_bytes hbytes
    rw [toList_euros] at hbegins
    obtain ⟨j, -, rfl⟩ := eq_euros hbegins
    rw [len_euros] at hlen
    rw [toList_euros, toList_euros]
    exact hfront (by omega)

/-- The last character of the message crosses the limit, and goes. -/
theorem chat_bodies_cut_euros :
    let lib := Libp2pIdentity.recorded []
    let config := Json.object [("bootstrap_addrs", .array [])]
    let deps : Deps lib := .plain (.ofTexts [(intoBytes "config", config)]) (fun _ => none)
    let ops := [.init "config" (.firstVisit (PubKey.replicate 7)), .sendChat (euros 171) 1]
    Str.len (euros 171) = MAX_BODY_BYTES + 1 ∧
      ∃ st s, run deps (start .document) ops = .ok st ∧ submittedFor CHAT_TOPIC st.log = [s] ∧
        ∃ (before : AppState lib) (net : Net lib) (now : UInt64), before.net = some net ∧
          buildSignedWire lib deps.serde net.keypair (euros 170) now = some s.payload := by
  intro lib config deps ops
  have hsome : euros 171 ≠ "" := fun h => absurd (h ▸ len_euros 171) (by decide)
  have hsends : ∀ value : String, value ≠ "" →
      ∃ s, submittedFor CHAT_TOPIC (sendChat deps (init deps (start .document) "config"
        (.firstVisit (PubKey.replicate 7))) value 1).log = [s] := by
    intro value hvalue
    rw [sendChat, if_neg hvalue]
    exact ⟨_, rfl⟩
  obtain ⟨st, s, hrun, hsubmitted⟩ : ∃ st s, run deps (start .document) ops = .ok st ∧
      submittedFor CHAT_TOPIC st.log = [s] := by
    obtain ⟨s, hs⟩ := hsends (euros 171) hsome
    exact ⟨_, s, rfl, hs⟩
  have hmem : s ∈ submittedFor CHAT_TOPIC st.log := hsubmitted ▸ List.mem_singleton_self s
  obtain ⟨-, -, -, hsigned⟩ := chat_bodies_cut deps (euros 171) MAX_BODY_BYTES
  obtain ⟨before, net, signed, now, hnet, hwire, ⟨value, after, hcall, hvalue⟩, -⟩ :=
    hsigned .document ops st hrun s hmem
  obtain ⟨pre, post, hops, -⟩ := hcall.place
  have hin : ClientOp.sendChat value now ∈ ops := by simp [hops]
  obtain rfl : value = euros 171 := by
    simp only [ops, List.mem_cons, reduceCtorEq, ClientOp.sendChat.injEq, List.not_mem_nil, or_false,
      false_or] at hin
    exact hin.1
  have hcut : LongestCut (euros 171) MAX_BODY_BYTES (euros 170) :=
    longestCut_euros (by decide) (by decide) (by decide)
  rw [hvalue.eq hcut] at hwire
  exact ⟨len_euros 171, st, s, hrun, hsubmitted, before, net, now, hnet, hwire⟩

end AppState

end Laye
