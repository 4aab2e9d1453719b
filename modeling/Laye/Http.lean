import Mathlib.Algebra.Ring.Nat
import Mathlib.Data.Option.Basic
import Laye.Text
import Laye.Wire

/-!
# Reading an HTTP request

`read_full_request` of `crates/relaye/src/status_page.rs`: a buffer that grows with every read of
the socket, searched for the blank line each time.
-/

namespace Laye

def MAX_HTTP_REQUEST_BYTES : Nat := 64 * 1024

/-- The size of `tmp`. -/
def READ_BYTES : Nat := 4096

/-- What one `read` of an open socket gives. -/
structure Read where
  bytes : Bytes
  nonempty : bytes ≠ []
  fits : bytes.length ≤ READ_BYTES

/-- The error of `read_full_request`, or a panic: a slice out of range, an overflow. -/
inductive ReadError
  | sizeLimit
  | panicked
deriving DecidableEq

structure ParsedRequest where
  method : String
  path : String
  body : Bytes
deriving DecidableEq

/-- `&bytes[start..stop]` -/
def slice (bytes : Bytes) (start stop : Nat) : Except ReadError Bytes :=
  if start ≤ stop ∧ stop ≤ bytes.length then .ok ((bytes.take stop).drop start)
  else .error .panicked

/-- `a + b` on `usize`, which has 64 bits. -/
def usizeAdd (a b : Nat) : Except ReadError Nat :=
  if a + b < 2 ^ 64 then .ok (a + b) else .error .panicked

def CRLF : Bytes := [13, 10]

def findDoubleCrlf (buf : Bytes) : Option Nat := Search.position (CRLF ++ CRLF) buf

/-- The loop of `parse_content_length`. A line is cut at its first colon. -/
def contentLengthIn : List String → Option Nat
  | [] => none
  | line :: lines =>
    match Str.splitOnce line ':' with
    | none => contentLengthIn lines
    | some (name, value) =>
      if Str.eqIgnoreAsciiCase (Str.trim name) "content-length" then Str.parseUsize (Str.trim value)
      else contentLengthIn lines

def parseContentLength (head : Bytes) : Option Nat := do
  let headStr ← fromUtf8 head
  contentLengthIn (Str.splitCrlf headStr)

/-- The method and the path of the first line of a head. -/
def requestLine (head : Bytes) : Option (String × String) := do
  let headStr ← fromUtf8 head
  let first ← (Str.splitCrlf headStr).head?
  match Str.splitn 3 ' ' first with
  | method :: path :: _ => some (method, path)
  | _ => none

def parseRequest (buf : Bytes) (headEnd bodyStart bodyLen : Nat) :
    Except ReadError (Option ParsedRequest) := do
  let head ← slice buf 0 headEnd
  match requestLine head with
  | none => return none
  | some (method, path) =>
    let stop ← usizeAdd bodyStart bodyLen
    let body ← slice buf bodyStart stop
    return some { method, path, body }

/-- What one turn of the loop does with the buffer: it returns, fails, or goes on (`none`). -/
def readTurn (buf : Bytes) : Except ReadError (Option (Option ParsedRequest)) := do
  if let some headEnd := findDoubleCrlf buf then
    let contentLength := parseContentLength (← slice buf 0 headEnd)
    let bodyStart ← usizeAdd headEnd 4
    let need := contentLength.getD 0
    if buf.length - bodyStart ≥ need then
      return some (← parseRequest buf headEnd bodyStart need)
  if buf.length > MAX_HTTP_REQUEST_BYTES then throw .sizeLimit
  return none

/-- The loop, from a buffer on. The socket ends after the reads. -/
def readLoop (buf : Bytes) : List Read → Except ReadError (Option ParsedRequest)
  | [] => .ok none
  | tmp :: reads => do
    let buf := buf ++ tmp.bytes
    match ← readTurn buf with
    | some request => return request
    | none => readLoop buf reads

def readFullRequest (reads : List Read) : Except ReadError (Option ParsedRequest) :=
  readLoop [] reads

/-- The bytes of some reads. -/
def streamOf (reads : List Read) : Bytes := reads.flatMap Read.bytes

/-! ### The first request of a stream -/

/-- The line of the head that comes first. -/
def firstLine (head : List Char) : List Char :=
  head.take ((Search.position ['\r', '\n'] head).getD head.length)

/-- What stands before the first space, and what between it and the next. -/
def methodAndPath (line : List Char) : Option (String × String) :=
  if ' ' ∈ line then
    let afterMethod := (line.dropWhile (· != ' ')).drop 1
    some (String.ofList (line.takeWhile (· != ' ')), String.ofList (afterMethod.takeWhile (· != ' ')))
  else none

/-- Where the first request ends, if its head does: head, blank line and declared body. -/
def requestEnd (stream : Bytes) : Option Nat :=
  (findDoubleCrlf stream).map fun headEnd =>
    headEnd + 4 + (parseContentLength (stream.take headEnd)).getD 0

/-- The first request, where the stream has all of it, its head is UTF-8 and its first line has a
space. -/
def firstRequest (stream : Bytes) : Option ParsedRequest := do
  let headEnd ← findDoubleCrlf stream
  let need := (parseContentLength (stream.take headEnd)).getD 0
  let rest := stream.drop (headEnd + 4)
  guard (need ≤ rest.length)
  let head ← fromUtf8 (stream.take headEnd)
  let (method, path) ← methodAndPath (firstLine head.toList)
  return { method, path, body := rest.take need }

/-- The first two parts of `splitn(3, ' ')`. -/
lemma splitn_three (line : List Char) :
    (match Str.splitn 3 ' ' (String.ofList line) with
      | method :: path :: _ => some (method, path)
      | _ => none) = methodAndPath line := by
  by_cases hspace : ' ' ∈ line
  · have hfirst : Str.splitOnce (String.ofList line) ' ' =
        some (String.ofList (line.takeWhile (· != ' ')),
          String.ofList ((line.dropWhile (· != ' ')).drop 1)) := by
      simp [Str.splitOnce, Str.containsChar, hspace]
    rw [Str.splitn, hfirst, methodAndPath, if_pos hspace]
    obtain ⟨after, hafter⟩ : ∃ after, (line.dropWhile (· != ' ')).drop 1 = after := ⟨_, rfl⟩
    simp only [hafter, Str.splitn]
    by_cases hmore : ' ' ∈ after
    · simp [Str.splitOnce, Str.containsChar, hmore]
    · have hwhole : after.takeWhile (· != ' ') = after := by
        apply List.takeWhile_eq_self_iff.mpr
        intro c hc
        exact bne_iff_ne.mpr fun hspace => hmore (hspace ▸ hc)
      simp [Str.splitOnce, Str.containsChar, hmore, hwhole]
  · simp [Str.splitn, Str.splitOnce, Str.containsChar, methodAndPath, hspace]

lemma head?_splitCrlf (s : String) :
    (Str.splitCrlf s).head? = some (String.ofList (firstLine s.toList)) := by
  rw [Str.splitCrlf, List.head?_map, Search.head?_splitPair]
  rfl

lemma requestLine_eq (head : Bytes) :
    requestLine head = (fromUtf8 head).bind fun s => methodAndPath (firstLine s.toList) := by
  unfold requestLine
  cases fromUtf8 head with
  | none => rfl
  | some s =>
    simp only [bind, Option.bind, head?_splitCrlf]
    exact splitn_three _

lemma slice_eq {bytes : Bytes} {start stop : Nat} (hstart : start ≤ stop)
    (hstop : stop ≤ bytes.length) : slice bytes start stop = .ok ((bytes.take stop).drop start) :=
  if_pos ⟨hstart, hstop⟩

lemma usizeAdd_eq {a b bound : Nat} (h : a + b ≤ bound) (hbound : bound < 2 ^ 64) :
    usizeAdd a b = .ok (a + b) := if_pos (by omega)

/-! ### Growing buffers -/

section Buffer

variable {buf more : Bytes} {headEnd stop : Nat}

/-- The buffer holds all of the first request. -/
def Complete (buf : Bytes) : Prop := ∃ stop, requestEnd buf = some stop ∧ stop ≤ buf.length

lemma findDoubleCrlf_fits (h : findDoubleCrlf buf = some headEnd) : headEnd + 4 ≤ buf.length :=
  Search.position_fits h

lemma take_head_append (h : findDoubleCrlf buf = some headEnd) (more : Bytes) :
    (buf ++ more).take headEnd = buf.take headEnd := by
  have hfits := findDoubleCrlf_fits h
  exact List.take_append_of_le_length (by omega)

lemma requestEnd_eq (h : findDoubleCrlf buf = some headEnd) :
    requestEnd buf = some (headEnd + 4 + (parseContentLength (buf.take headEnd)).getD 0) := by
  rw [requestEnd, h, Option.map_some]

/-- A head that has arrived says where its request ends, whatever comes after it. -/
lemma requestEnd_append (h : requestEnd buf = some stop) (more : Bytes) :
    requestEnd (buf ++ more) = some stop := by
  obtain ⟨headEnd, hhead, rfl⟩ := Option.map_eq_some_iff.mp h
  have hhead' : findDoubleCrlf (buf ++ more) = some headEnd := Search.position_append hhead more
  rw [requestEnd_eq hhead', take_head_append hhead]

lemma Complete.append (h : Complete buf) (more : Bytes) : Complete (buf ++ more) := by
  obtain ⟨stop, hstop, hle⟩ := h
  exact ⟨stop, requestEnd_append hstop more, by rw [List.length_append]; omega⟩

/-- Whether a part of a stream is complete depends on its length alone. -/
lemma complete_iff (hstop : requestEnd (buf ++ more) = some stop) :
    Complete buf ↔ stop ≤ buf.length := by
  constructor
  · rintro ⟨stop', hstop', hle⟩
    rw [requestEnd_append hstop' more] at hstop
    rwa [← Option.some.inj hstop]
  · intro hle
    obtain ⟨headEnd, hhead, hend⟩ := Option.map_eq_some_iff.mp hstop
    have hhead' : findDoubleCrlf buf = some headEnd := by
      apply Search.position_append_iff.mp
      refine ⟨hhead, ?_⟩
      change headEnd + 4 ≤ buf.length
      omega
    refine ⟨stop, ?_, hle⟩
    rw [requestEnd_eq hhead', ← take_head_append hhead' more, hend]

/-- What comes after the first request does not change it. -/
lemma firstRequest_append (h : Complete buf) (more : Bytes) :
    firstRequest (buf ++ more) = firstRequest buf := by
  obtain ⟨stop, hstop, hle⟩ := h
  obtain ⟨headEnd, hhead, rfl⟩ := Option.map_eq_some_iff.mp hstop
  have hhead' : findDoubleCrlf (buf ++ more) = some headEnd := Search.position_append hhead more
  have hfits := findDoubleCrlf_fits hhead
  have hbody : (parseContentLength (buf.take headEnd)).getD 0 ≤ (buf.drop (headEnd + 4)).length := by
    rw [List.length_drop]
    omega
  have hbody' : (parseContentLength (buf.take headEnd)).getD 0 ≤
      (buf.drop (headEnd + 4) ++ more).length := by
    rw [List.length_append]
    omega
  have hrest : (buf ++ more).drop (headEnd + 4) = buf.drop (headEnd + 4) ++ more :=
    List.drop_append_of_le_length hfits
  simp only [firstRequest, hhead, hhead', take_head_append hhead, hrest, guard, if_pos hbody,
    if_pos hbody', List.take_append_of_le_length hbody, bind, Option.bind]

lemma firstRequest_of_incomplete (h : ¬Complete buf) : firstRequest buf = none := by
  cases hhead : findDoubleCrlf buf with
  | none => simp [firstRequest, hhead]
  | some headEnd =>
    have hfits := findDoubleCrlf_fits hhead
    have hshort : ¬(parseContentLength (buf.take headEnd)).getD 0 ≤
        (buf.drop (headEnd + 4)).length := by
      intro hle
      rw [List.length_drop] at hle
      exact h ⟨_, requestEnd_eq hhead, by omega⟩
    simp only [firstRequest, hhead, guard, if_neg hshort, bind, Option.bind]
    rfl

/-! ### One turn -/

lemma slice_head (h : findDoubleCrlf buf = some headEnd) :
    slice buf 0 headEnd = .ok (buf.take headEnd) := by
  have hfits := findDoubleCrlf_fits h
  rw [slice_eq (Nat.zero_le _) (by omega), List.drop_zero]

/-- Where the body has arrived, the request is its line and its body. -/
lemma parseRequest_eq {need : Nat} (hlen : buf.length < 2 ^ 64) (hhead : findDoubleCrlf buf = some headEnd)
    (hneed : headEnd + 4 + need ≤ buf.length) :
    parseRequest buf headEnd (headEnd + 4) need =
      .ok ((requestLine (buf.take headEnd)).map fun parts =>
        ⟨parts.1, parts.2, (buf.drop (headEnd + 4)).take need⟩) := by
  have hend : usizeAdd (headEnd + 4) need = .ok (headEnd + 4 + need) := usizeAdd_eq hneed hlen
  have hbody : slice buf (headEnd + 4) (headEnd + 4 + need) =
      .ok ((buf.drop (headEnd + 4)).take need) := by
    rw [slice_eq (by omega) hneed, List.drop_take, Nat.add_sub_cancel_left]
  rw [parseRequest, slice_head hhead]
  cases hline : requestLine (buf.take headEnd) with
  | none => simp [bind, Except.bind, hline, pure, Except.pure]
  | some parts => simp [bind, Except.bind, hline, hend, hbody, pure, Except.pure]

lemma firstRequest_eq {need : Nat} (hhead : findDoubleCrlf buf = some headEnd)
    (hlength : (parseContentLength (buf.take headEnd)).getD 0 = need)
    (hneed : headEnd + 4 + need ≤ buf.length) :
    firstRequest buf = (requestLine (buf.take headEnd)).map fun parts =>
      ⟨parts.1, parts.2, (buf.drop (headEnd + 4)).take need⟩ := by
  have hguard : need ≤ (buf.drop (headEnd + 4)).length := by
    rw [List.length_drop]
    omega
  rw [requestLine_eq]
  simp only [firstRequest, hhead, hlength, guard, if_pos hguard, bind, Option.bind, pure]
  cases fromUtf8 (buf.take headEnd) with
  | none => rfl
  | some head =>
    simp only
    cases methodAndPath (firstLine head.toList) <;> rfl

lemma readTurn_of_complete (hlen : buf.length < 2 ^ 64) (h : Complete buf) :
    readTurn buf = .ok (some (firstRequest buf)) := by
  obtain ⟨stop, hstop, hle⟩ := h
  obtain ⟨headEnd, hhead, rfl⟩ := Option.map_eq_some_iff.mp hstop
  obtain ⟨need, hneed⟩ : ∃ need, (parseContentLength (buf.take headEnd)).getD 0 = need := ⟨_, rfl⟩
  rw [hneed] at hle
  have hstart : usizeAdd headEnd 4 = .ok (headEnd + 4) :=
    usizeAdd_eq (findDoubleCrlf_fits hhead) hlen
  have hhave : buf.length - (headEnd + 4) ≥ need := by omega
  have hturn : readTurn buf = (parseRequest buf headEnd (headEnd + 4) need).map some := by
    simp only [readTurn, hhead, slice_head hhead, hstart, hneed, if_pos hhave, bind, Except.bind]
    cases parseRequest buf headEnd (headEnd + 4) need <;> rfl
  rw [hturn, parseRequest_eq hlen hhead hle, firstRequest_eq hhead hneed hle]
  rfl

lemma readTurn_of_incomplete (hlen : buf.length < 2 ^ 64) (h : ¬Complete buf) :
    readTurn buf =
      if MAX_HTTP_REQUEST_BYTES < buf.length then .error .sizeLimit else .ok none := by
  have hsize : (do
      if buf.length > MAX_HTTP_REQUEST_BYTES then throw .sizeLimit
      return none : Except ReadError (Option (Option ParsedRequest))) =
        if MAX_HTTP_REQUEST_BYTES < buf.length then .error .sizeLimit else .ok none := by
    by_cases hlong : MAX_HTTP_REQUEST_BYTES < buf.length
    · simp only [gt_iff_lt, if_pos hlong]
      rfl
    · simp only [gt_iff_lt, if_neg hlong]
      rfl
  rw [← hsize]
  cases hhead : findDoubleCrlf buf with
  | none => simp only [readTurn, hhead]
  | some headEnd =>
    have hfits := findDoubleCrlf_fits hhead
    have hstart : usizeAdd headEnd 4 = .ok (headEnd + 4) := usizeAdd_eq hfits hlen
    have hhave : ¬buf.length - (headEnd + 4) ≥ (parseContentLength (buf.take headEnd)).getD 0 := by
      intro hle
      exact h ⟨_, requestEnd_eq hhead, by omega⟩
    simp only [readTurn, hhead, slice_head hhead, hstart, if_neg hhave, bind, Except.bind]

end Buffer

/-! ### The loop -/

lemma streamOf_cons (tmp : Read) (reads : List Read) :
    streamOf (tmp :: reads) = tmp.bytes ++ streamOf reads := List.flatMap_cons

lemma streamOf_take_append (reads : List Read) (k : Nat) :
    streamOf (reads.take k) ++ streamOf (reads.drop k) = streamOf reads := by
  rw [streamOf, streamOf, ← List.flatMap_append, List.take_append_drop, streamOf]

/-- After some reads the buffer is longer than the limit and not complete. -/
def Overruns (buf : Bytes) (reads : List Read) : Prop :=
  ∃ k, MAX_HTTP_REQUEST_BYTES < (buf ++ streamOf (reads.take k)).length ∧
    ¬Complete (buf ++ streamOf (reads.take k))

lemma overruns_cons {buf : Bytes} {tmp : Read} {reads : List Read}
    (hbuf : buf.length ≤ MAX_HTTP_REQUEST_BYTES) :
    Overruns buf (tmp :: reads) ↔ Overruns (buf ++ tmp.bytes) reads := by
  have hgrown : ∀ k, buf ++ streamOf ((tmp :: reads).take (k + 1)) =
      buf ++ tmp.bytes ++ streamOf (reads.take k) := by
    intro k
    rw [List.take_succ_cons, streamOf_cons, List.append_assoc]
  constructor
  · rintro ⟨k, hlong, hopen⟩
    cases k with
    | zero =>
      rw [List.take_zero, streamOf, List.flatMap_nil, List.append_nil] at hlong
      omega
    | succ k => exact ⟨k, by rwa [← hgrown], by rwa [← hgrown]⟩
  · rintro ⟨k, hlong, hopen⟩
    exact ⟨k + 1, by rwa [hgrown], by rwa [hgrown]⟩

/-- The loop gives up where a read leaves too much of an unfinished request, and otherwise returns
the first request of the stream. -/
theorem readLoop_eq (reads : List Read) {buf : Bytes} (hbuf : buf.length ≤ MAX_HTTP_REQUEST_BYTES)
    (hopen : ¬Complete buf) :
    (Overruns buf reads → readLoop buf reads = .error .sizeLimit) ∧
    (¬Overruns buf reads → readLoop buf reads = .ok (firstRequest (buf ++ streamOf reads))) := by
  induction reads generalizing buf with
  | nil =>
    constructor
    · rintro ⟨k, hlong, -⟩
      rw [List.take_nil, streamOf, List.flatMap_nil, List.append_nil] at hlong
      omega
    · intro _
      rw [streamOf, List.flatMap_nil, List.append_nil, firstRequest_of_incomplete hopen]
      rfl
  | cons tmp reads ih =>
    have hfits := tmp.fits
    have hlen : (buf ++ tmp.bytes).length < 2 ^ 64 := by
      rw [List.length_append]
      simp only [MAX_HTTP_REQUEST_BYTES, READ_BYTES] at hbuf hfits
      omega
    rw [overruns_cons hbuf, streamOf_cons, ← List.append_assoc, readLoop]
    by_cases hcomplete : Complete (buf ++ tmp.bytes)
    · rw [readTurn_of_complete hlen hcomplete, firstRequest_append hcomplete]
      refine ⟨?_, fun _ => rfl⟩
      rintro ⟨k, -, hopen'⟩
      exact absurd (hcomplete.append _) hopen'
    · rw [readTurn_of_incomplete hlen hcomplete]
      by_cases hlong : MAX_HTTP_REQUEST_BYTES < (buf ++ tmp.bytes).length
      · rw [if_pos hlong]
        refine ⟨fun _ => rfl, fun hwithin => absurd ⟨0, ?_⟩ hwithin⟩
        rw [List.take_zero, streamOf, List.flatMap_nil, List.append_nil]
        exact ⟨hlong, hcomplete⟩
      · rw [if_neg hlong]
        exact ih (Nat.le_of_not_lt hlong) hcomplete

lemma not_complete_nil : ¬Complete [] := by
  rintro ⟨stop, hstop, -⟩
  cases hstop

theorem readFullRequest_eq (reads : List Read) :
    (Overruns [] reads → readFullRequest reads = .error .sizeLimit) ∧
    (¬Overruns [] reads → readFullRequest reads = .ok (firstRequest (streamOf reads))) :=
  readLoop_eq reads (Nat.zero_le _) not_complete_nil

/-- No slice is out of range, and nothing overflows. -/
theorem readFullRequest_ne_panicked (reads : List Read) : readFullRequest reads ≠ .error .panicked := by
  intro hpanicked
  obtain ⟨hover, hwithin⟩ := readFullRequest_eq reads
  by_cases h : Overruns [] reads
  · rw [hover h] at hpanicked
    cases hpanicked
  · rw [hwithin h] at hpanicked
    cases hpanicked

/-- The first request of the stream ends within the limit, or the stream does before its head. -/
def EndsWithinLimit (stream : Bytes) : Prop :=
  (requestEnd stream).getD stream.length ≤ MAX_HTTP_REQUEST_BYTES

lemma not_overruns_of_within {reads : List Read} (h : EndsWithinLimit (streamOf reads)) :
    ¬Overruns [] reads := by
  rintro ⟨k, hlong, hopen⟩
  have hsplit := streamOf_take_append reads k
  have hlength := congrArg List.length hsplit
  rw [List.length_append] at hlength
  rw [List.nil_append] at hlong hopen
  unfold EndsWithinLimit at h
  cases hstop : requestEnd (streamOf reads) with
  | none =>
    rw [hstop, Option.getD_none] at h
    omega
  | some stop =>
    rw [hstop, Option.getD_some] at h
    rw [← hsplit] at hstop
    exact hopen ((complete_iff hstop).mpr (by omega))

/-- The head of the first request is UTF-8 and has a space in its first line. -/
def HeadReads (stream : Bytes) : Prop :=
  ∃ headEnd head, findDoubleCrlf stream = some headEnd ∧
    fromUtf8 (stream.take headEnd) = some head ∧ ' ' ∈ firstLine head.toList

lemma firstRequest_eq_some_iff {stream : Bytes} :
    (∃ request, firstRequest stream = some request) ↔ Complete stream ∧ HeadReads stream := by
  constructor
  · rintro ⟨request, hrequest⟩
    have hcomplete : Complete stream := by
      by_contra hopen
      rw [firstRequest_of_incomplete hopen] at hrequest
      cases hrequest
    refine ⟨hcomplete, ?_⟩
    simp only [firstRequest, Option.bind_eq_bind, Option.bind_eq_some_iff] at hrequest
    obtain ⟨headEnd, hhead, -, -, head, hutf8, parts, hparts, -⟩ := hrequest
    refine ⟨headEnd, head, hhead, hutf8, ?_⟩
    by_contra hspace
    rw [methodAndPath, if_neg hspace] at hparts
    cases hparts
  · rintro ⟨⟨stop, hstop, hle⟩, headEnd, head, hhead, hutf8, hspace⟩
    rw [requestEnd_eq hhead, Option.some.injEq] at hstop
    have hguard : (parseContentLength (stream.take headEnd)).getD 0 ≤
        (stream.drop (headEnd + 4)).length := by
      rw [List.length_drop]
      omega
    apply Option.isSome_iff_exists.mp
    simp only [firstRequest, hhead, hutf8, methodAndPath, if_pos hspace, guard, if_pos hguard, bind,
      Option.bind, pure]
    rfl

lemma overruns_iff {reads : List Read} {stop : Nat}
    (hstop : requestEnd (streamOf reads) = some stop) :
    Overruns [] reads ↔ ∃ k, MAX_HTTP_REQUEST_BYTES < (streamOf (reads.take k)).length ∧
      (streamOf (reads.take k)).length < stop := by
  apply exists_congr
  intro k
  rw [← streamOf_take_append reads k] at hstop
  rw [List.nil_append, complete_iff hstop, Nat.not_le]

/-- A request past the limit is accepted whenever it arrives and reads as one, unless a read ends
between the limit and its end. -/
lemma oversized_accepted_iff {reads : List Read} {stop : Nat}
    (hstop : requestEnd (streamOf reads) = some stop) :
    (∃ request, readFullRequest reads = .ok (some request)) ↔
      stop ≤ (streamOf reads).length ∧ HeadReads (streamOf reads) ∧
        ¬∃ k, MAX_HTTP_REQUEST_BYTES < (streamOf (reads.take k)).length ∧
          (streamOf (reads.take k)).length < stop := by
  have hstop' : requestEnd (streamOf reads ++ []) = some stop := by rwa [List.append_nil]
  have hcomplete := complete_iff hstop'
  rw [← overruns_iff hstop, ← hcomplete]
  obtain ⟨hover, hwithin⟩ := readFullRequest_eq reads
  by_cases h : Overruns [] reads
  · rw [hover h]
    simp [h]
  · rw [hwithin h]
    simp only [Except.ok.injEq, firstRequest_eq_some_iff, h, not_false_eq_true, and_true]

/-- Exactly when a request is refused, in particular one past the limit. -/
theorem oversized_refused_iff (reads : List Read) (stop : Nat)
    (hstop : requestEnd (streamOf reads) = some stop) :
    (∀ request, readFullRequest reads ≠ .ok (some request)) ↔
      (streamOf reads).length < stop ∨ ¬HeadReads (streamOf reads) ∨
        ∃ k, MAX_HTTP_REQUEST_BYTES < (streamOf (reads.take k)).length ∧
          (streamOf (reads.take k)).length < stop := by
  have haccepted := not_congr (oversized_accepted_iff hstop)
  rw [not_and_or, not_and_or, not_not, not_exists, Nat.not_le] at haccepted
  exact haccepted

/-- The head of a request that declares a body of 64 KiB. -/
def longHead : Read :=
  ⟨intoBytes "POST / HTTP/1.1\r\nContent-Length: 65536\r\n\r\n", by decide, by decide⟩

lemma findDoubleCrlf_longHead : findDoubleCrlf longHead.bytes = some 38 := by decide

lemma fromUtf8_longHead : fromUtf8 (longHead.bytes.take 38) =
    some "POST / HTTP/1.1\r\nContent-Length: 65536" := fromUtf8_eq_some.mpr (by decide)

lemma requestEnd_longHead : requestEnd longHead.bytes = some 65578 := by
  have hlength : parseContentLength (longHead.bytes.take 38) = some 65536 := by
    rw [parseContentLength, fromUtf8_longHead]
    decide
  rw [requestEnd_eq findDoubleCrlf_longHead, hlength]
  rfl

theorem longHead_without_body : (streamOf [longHead]).length < 65578 ∧
    ∀ request, readFullRequest [longHead] ≠ .ok (some request) := by
  have hstream : streamOf [longHead] = longHead.bytes := List.append_nil _
  have hstop : requestEnd (streamOf [longHead]) = some 65578 := by rw [hstream, requestEnd_longHead]
  have hshort : (streamOf [longHead]).length < 65578 := by decide
  exact ⟨hshort, (oversized_refused_iff [longHead] 65578 hstop).mpr (Or.inl hshort)⟩

/-- A read that fills `tmp`. -/
def fullRead : Read :=
  ⟨List.replicate READ_BYTES 0, List.ne_nil_of_length_pos (by rw [List.length_replicate]; decide),
    Nat.le_of_eq List.length_replicate⟩

lemma length_streamOf_fullReads (n : Nat) :
    (streamOf (List.replicate n fullRead)).length = n * READ_BYTES := by
  induction n with
  | zero => rfl
  | succ n ih =>
    have hread : fullRead.bytes.length = READ_BYTES := List.length_replicate
    rw [List.replicate_succ, streamOf_cons, List.length_append, ih, hread, Nat.succ_mul, Nat.add_comm]

/-- A request of 65578 bytes goes through: the sixteenth read ends before the limit, the last one
with the request. -/
theorem oversized_accepted :
    ¬∀ reads stop, requestEnd (streamOf reads) = some stop → MAX_HTTP_REQUEST_BYTES < stop →
      ∀ request, readFullRequest reads ≠ .ok (some request) := by
  intro hclaim
  obtain ⟨reads, hreads⟩ : ∃ reads, longHead :: List.replicate 16 fullRead = reads := ⟨_, rfl⟩
  have hstream : streamOf reads = longHead.bytes ++ streamOf (List.replicate 16 fullRead) := by
    rw [← hreads, streamOf_cons]
  have hstop : requestEnd (streamOf reads) = some 65578 := by
    rw [hstream, requestEnd_append requestEnd_longHead]
  have hhead : HeadReads (streamOf reads) := by
    refine ⟨38, "POST / HTTP/1.1\r\nContent-Length: 65536", ?_, ?_, by decide⟩
    · rw [hstream]
      exact Search.position_append findDoubleCrlf_longHead _
    · rw [hstream, take_head_append findDoubleCrlf_longHead, fromUtf8_longHead]
  have hlonghead : longHead.bytes.length = 42 := by decide
  have hlength : (streamOf reads).length = 65578 := by
    rw [hstream, List.length_append, hlonghead, length_streamOf_fullReads]
    rfl
  have hreadsEnd : ¬∃ k, MAX_HTTP_REQUEST_BYTES < (streamOf (reads.take k)).length ∧
      (streamOf (reads.take k)).length < 65578 := by
    rintro ⟨k, hpast, hbefore⟩
    cases k with
    | zero =>
      rw [List.take_zero] at hpast
      exact absurd hpast (by decide)
    | succ k =>
      rw [← hreads, List.take_succ_cons, streamOf_cons, List.take_replicate, List.length_append,
        hlonghead, length_streamOf_fullReads] at hpast hbefore
      simp only [MAX_HTTP_REQUEST_BYTES, READ_BYTES] at hpast hbefore
      omega
  obtain ⟨request, hrequest⟩ :=
    (oversized_accepted_iff hstop).mpr ⟨Nat.le_of_eq hlength.symm, hhead, hreadsEnd⟩
  exact hclaim reads 65578 hstop (by decide) request hrequest

end Laye
