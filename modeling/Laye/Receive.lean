import Laye.Client

/-!
# Nothing received is lost

Payloads pass from network events through a topic's queue and an output buffer to the reader on
the other side, whole and in order, whatever the buffer sizes.
-/

namespace Laye

/-- The payloads of the messages on a topic, in order. -/
def messagesFor (topic : String) (events : List NetEvent) : List Bytes :=
  events.filterMap fun
    | .message t _ bytes _ => if t = topic then some bytes else none
    | _ => none

lemma messagesFor_append (topic : String) (as bs : List NetEvent) :
    messagesFor topic (as ++ bs) = messagesFor topic as ++ messagesFor topic bs :=
  List.filterMap_append

namespace RxState

lemma queue_ingestEvent (rx : RxState) (e : NetEvent) (topic : String) :
    (rx.ingestEvent e).queue topic = rx.queue topic ++ messagesFor topic [e] := by
  cases e with
  | message t peer bytes atMs =>
    by_cases ht : t = topic
    · subst ht
      simp [ingestEvent, queue, messagesFor]
    · have hne : topic ≠ t := fun h => ht h.symm
      simp [ingestEvent, queue, messagesFor, ht, HashMap.insert_of_ne _ _ hne]
  | _ => simp [ingestEvent, messagesFor]

lemma queue_ingest (rx : RxState) (events : List NetEvent) (topic : String) :
    (rx.ingest events).queue topic = rx.queue topic ++ messagesFor topic events := by
  induction events generalizing rx with
  | nil => simp [ingest, messagesFor]
  | cons e events ih =>
    rw [ingest, List.foldl_cons]
    change ((rx.ingestEvent e).ingest events).queue topic = _
    rw [ih, queue_ingestEvent, List.append_assoc, ← messagesFor_append, List.singleton_append]

/-- What a drain does: the written prefix is a prefix of the queue, framed, and what did not fit
stays. -/
theorem drainInto_spec (rx : RxState) (topic : String) (out : Bytes)
    (h : rx.queuedBytes topic < 2 ^ 32) :
    ∃ sent rest rx' out' written, rx.drainInto topic out = .ok (rx', out', written) ∧
      rx.queue topic = sent ++ rest ∧ rx'.queue topic = rest ∧ out'.length = out.length ∧
      written.toNat = framedSize sent ∧ framedSize sent ≤ out.length ∧
      out'.take written.toNat = u32Header.encode sent ∧
      ∀ b ∈ rest.head?, out.length < framedSize sent + (4 + b.length) := by
  unfold drainInto
  cases hq : rx.queues topic with
  | none => exact ⟨[], [], rx, out, 0, rfl, by simp [queue, hq], by simp [queue, hq], rfl, rfl,
      Nat.zero_le _, rfl, by simp⟩
  | some q =>
    have hqueue : rx.queue topic = q := by simp [queue, hq]
    rw [queuedBytes, hqueue] at h
    obtain ⟨sent, rest, out', written, hsplit, hloop, hlen, hwritten, htake, hrest⟩ :=
      drainLoop_spec q out 0 (by simpa using h) (Nat.zero_le _)
    simp only [UInt32.reduceToNat, Nat.zero_add, List.take_zero, List.nil_append] at hwritten htake
    have hfits : framedSize sent ≤ out.length := by
      have hl := congrArg List.length htake
      rw [List.length_take, hlen, encode_length, hwritten] at hl
      omega
    refine ⟨sent, rest, ⟨rx.queues.insert topic rest⟩, out', written, ?_, by rw [hqueue, hsplit],
      by simp [queue], hlen, hwritten, hfits, htake, by rw [← hwritten]; exact hrest⟩
    simp only [hloop, bind, Except.bind, pure, Except.pure]

lemma drainInto_frame {rx rx' : RxState} {topic t : String} {out out' : Bytes} {written : UInt32}
    (h : rx.drainInto topic out = .ok (rx', out', written)) (ht : t ≠ topic) :
    rx'.queues t = rx.queues t := by
  unfold drainInto at h
  split at h
  · cases h
    rfl
  · simp only [bind, Except.bind, pure, Except.pure] at h
    split at h
    · cases h
    · cases h
      exact HashMap.insert_of_ne _ _ ht

end RxState

/-! ### Runs -/

inductive RxOp
  | ingest (events : List NetEvent)
  | drain (topic : String) (out : Slice)

/-- The written prefix of one drain's output. -/
structure Written where
  topic : String
  bytes : Bytes

namespace RxState

def runOp (rx : RxState) : RxOp → Except Fault (RxState × List Written)
  | .ingest events => .ok (rx.ingest events, [])
  | .drain topic out => do
    let (rx, out, written) ← rx.drainInto topic out.bytes
    return (rx, [⟨topic, out.take written.toNat⟩])

def runOps : RxState → List RxOp → Except Fault (RxState × List Written)
  | rx, [] => .ok (rx, [])
  | rx, op :: ops => do
    let (rx, written) ← rx.runOp op
    let (rx, rest) ← rx.runOps ops
    return (rx, written ++ rest)

/-- A topic is drained only while fewer than `2 ^ 32` bytes are queued for it. -/
def WithinBounds : RxState → List RxOp → Prop
  | _, [] => True
  | rx, op :: ops =>
    (∀ topic out, op = .drain topic out → rx.queuedBytes topic < 2 ^ 32) ∧
      ∀ rx' written, rx.runOp op = .ok (rx', written) → rx'.WithinBounds ops

end RxState

/-- What the reader gets out of the written prefixes of a topic, one after the other. -/
def readBack (topic : String) : List Written → Except Fault (List Bytes)
  | [] => .ok []
  | w :: rest =>
    if w.topic = topic then do
      let frames ← splitFrames w.bytes
      let more ← readBack topic rest
      return frames ++ more
    else readBack topic rest

def ingestedFor (topic : String) (ops : List RxOp) : List Bytes :=
  ops.flatMap fun
    | .ingest events => messagesFor topic events
    | .drain .. => []

namespace RxState

/-- One operation: what is read back of it, with what it leaves queued, is what was queued
before and what it ingests. -/
lemma runOp_spec (rx : RxState) (op : RxOp)
    (h : ∀ topic out, op = .drain topic out → rx.queuedBytes topic < 2 ^ 32) :
    ∃ rx' written, rx.runOp op = .ok (rx', written) ∧ ∀ topic, ∃ frames,
      (∀ rest, readBack topic (written ++ rest) = (readBack topic rest).map (frames ++ ·)) ∧
      frames ++ rx'.queue topic = rx.queue topic ++ ingestedFor topic [op] := by
  cases op with
  | ingest events =>
    refine ⟨rx.ingest events, [], rfl, fun topic => ⟨[], fun rest => ?_, ?_⟩⟩
    · rw [List.nil_append]
      cases readBack topic rest <;> rfl
    · simp [queue_ingest, ingestedFor]
  | drain topic out =>
    obtain ⟨sent, rest, rx', out', written, hdrain, hqueue, hrest, hlen, hwritten, hfits, htake, -⟩ :=
      rx.drainInto_spec topic out.bytes (h topic out rfl)
    refine ⟨rx', [⟨topic, out'.take written.toNat⟩], ?_, fun t => ?_⟩
    · simp only [runOp, hdrain, bind, Except.bind, pure, Except.pure]
    · by_cases ht : topic = t
      · subst ht
        refine ⟨sent, fun more => ?_, ?_⟩
        · simp only [List.singleton_append, readBack, if_true, htake,
            splitFrames_encode (hfits.trans out.length_le)]
          cases readBack topic more <;> rfl
        · simp [hrest, hqueue, ingestedFor]
      · have hne : t ≠ topic := fun he => ht he.symm
        refine ⟨[], fun more => ?_, ?_⟩
        · simp only [List.singleton_append, readBack, if_neg ht]
          cases readBack t more <;> rfl
        · simp [queue, drainInto_frame hdrain hne, ingestedFor]

lemma runOps_spec (rx : RxState) (ops : List RxOp) (h : rx.WithinBounds ops) :
    ∃ rx' written, rx.runOps ops = .ok (rx', written) ∧ ∀ topic, ∃ frames,
      readBack topic written = .ok frames ∧
        frames ++ rx'.queue topic = rx.queue topic ++ ingestedFor topic ops := by
  induction ops generalizing rx with
  | nil => exact ⟨rx, [], rfl, fun topic => ⟨[], rfl, by simp [ingestedFor]⟩⟩
  | cons op ops ih =>
    obtain ⟨rx₁, written, hop, hread⟩ := rx.runOp_spec op h.1
    obtain ⟨rx', more, hops, hmore⟩ := ih rx₁ (h.2 rx₁ written hop)
    refine ⟨rx', written ++ more, ?_, fun topic => ?_⟩
    · simp only [runOps, hop, hops, bind, Except.bind, pure, Except.pure]
    · obtain ⟨frames, hframes, hqueue⟩ := hread topic
      obtain ⟨frames', hframes', hqueue'⟩ := hmore topic
      have hcons : ingestedFor topic (op :: ops) = ingestedFor topic [op] ++ ingestedFor topic ops := by
        simp [ingestedFor]
      refine ⟨frames ++ frames', ?_, ?_⟩
      · rw [hframes, hframes']
        rfl
      · rw [List.append_assoc, hqueue', ← List.append_assoc, hqueue, hcons, List.append_assoc]

end RxState

/-! ### `recv_bytes` -/

namespace AppState

variable {lib : Libp2pIdentity} (deps : Deps lib)

/-- A buffer of `pending_bytes` takes the whole queue, to the last byte. -/
lemma recvBytes_spec (order : IterOrder String) (st : AppState lib) (events : List NetEvent)
    (topic : String) (h : (drainNetEvents deps order st events).rx.queuedBytes topic < 2 ^ 32) :
    ∃ buf st', recvBytes deps order st events topic = .ok (buf, st') ∧
      buf = u32Header.encode ((drainNetEvents deps order st events).rx.queue topic) ∧
      st'.rx.queue topic = [] := by
  have hpending := pendingBytes_eq _ topic h
  obtain ⟨sent, rest, rx', out', written, hdrain, hqueue, hrest, hlen, hwritten, -, htake, hfull⟩ :=
    RxState.drainInto_spec (drainNetEvents deps order st events).rx topic
      (List.replicate ((drainNetEvents deps order st events).rx.pendingBytes topic).toNat 0) h
  rw [List.length_replicate, hpending, RxState.queuedBytes, hqueue] at hlen hfull
  have hnone : rest = [] := by
    cases rest with
    | nil => rfl
    | cons b rest =>
      have hroom := hfull b rfl
      simp only [framedSize, List.map_append, List.map_cons, List.sum_append, List.sum_cons] at hroom
      omega
  subst hnone
  rw [List.append_nil] at hqueue hlen
  refine ⟨out', (drainNetEvents deps order st events).setRx rx', ?_, ?_, hrest⟩
  · simp only [recvBytes, hdrain, bind, Except.bind, pure, Except.pure]
  · rw [hqueue, ← htake, hwritten, List.take_of_length_le (by omega)]

end AppState

/-- What is read back from the drains of a topic, then what is still queued, is what was
ingested for it; a drain leaves other topics alone; and `recv_bytes` returns the whole queue,
framed, and leaves it empty. -/
theorem receive_lossless {lib : Libp2pIdentity} (deps : Deps lib) :
    (∀ ops, RxState.new.WithinBounds ops → ∃ rx written, RxState.new.runOps ops = .ok (rx, written) ∧
      ∀ topic, ∃ frames, readBack topic written = .ok frames ∧
        frames ++ rx.queue topic = ingestedFor topic ops) ∧
    (∀ (rx rx' : RxState) (topic t : String) (out out' : Bytes) (written : UInt32),
      rx.drainInto topic out = .ok (rx', out', written) → t ≠ topic → rx'.queues t = rx.queues t) ∧
    ∀ (order : IterOrder String) (st : AppState lib) (events : List NetEvent) (topic : String),
      let queue := (AppState.drainNetEvents deps order st events).rx.queue topic
      framedSize queue < 2 ^ 32 → ∃ buf st',
        AppState.recvBytes deps order st events topic = .ok (buf, st') ∧
        buf.length = framedSize queue ∧ buf = u32Header.encode queue ∧ st'.rx.queue topic = [] ∧
        (buf.length ≤ ISIZE_MAX → splitFrames buf = .ok queue) := by
  refine ⟨fun ops h => ?_, fun _ _ _ _ _ _ _ h ht => RxState.drainInto_frame h ht, ?_⟩
  · exact RxState.runOps_spec RxState.new ops h
  · intro order st events topic queue hsize
    obtain ⟨buf, st', hrecv, rfl, hempty⟩ := AppState.recvBytes_spec deps order st events topic hsize
    refine ⟨_, st', hrecv, encode_length _, rfl, hempty, fun hmax => ?_⟩
    rw [encode_length] at hmax
    exact splitFrames_encode hmax

/-- Two payloads, one of them empty, and a buffer that only the first fits; and both in one
`recv_bytes`. -/
theorem receive_lossless_two :
    let deps : Deps (Libp2pIdentity.recorded []) := .plain (.single [] .null) (fun _ => none)
    let said : List NetEvent := [.message "pos" "peer" [1, 2] 0, .message "pos" "peer" [] 1]
    let ops : List RxOp := [.ingest said, .drain "pos" ⟨List.replicate 7 0, by decide⟩]
    let st : AppState (Libp2pIdentity.recorded []) :=
      { (AppState.start .document : AppState (Libp2pIdentity.recorded [])) with
        net := some ⟨PubKey.replicate 7, false⟩ }
    (∃ rx written, RxState.new.runOps ops = .ok (rx, written) ∧ ∃ frames,
      readBack "pos" written = .ok frames ∧ frames ++ rx.queue "pos" = [[1, 2], []]) ∧
    ∃ buf st', AppState.recvBytes deps ⟨id, fun _ => .refl _⟩ st said "pos" = .ok (buf, st') ∧
      buf = [2, 0, 0, 0, 1, 2, 0, 0, 0, 0] ∧ splitFrames buf = .ok [[1, 2], []] ∧
      st'.rx.queue "pos" = [] := by
  intro deps said ops st
  have hbounds : RxState.new.WithinBounds ops := by
    refine ⟨fun topic out h => (by cases h), fun rx written h => ⟨fun topic out hdrain => ?_, fun _ _ _ => trivial⟩⟩
    cases h
    cases hdrain
    decide
  refine ⟨?_, ?_⟩
  · obtain ⟨rx, written, hrun, hread⟩ := (receive_lossless deps).1 ops hbounds
    exact ⟨rx, written, hrun, hread "pos"⟩
  · have hqueue : (AppState.drainNetEvents deps ⟨id, fun _ => .refl _⟩ st said).rx.queue "pos" =
        [[1, 2], []] := rfl
    obtain ⟨buf, st', hrecv, hlen, hbuf, hempty, hsplit⟩ :=
      (receive_lossless deps).2.2 ⟨id, fun _ => .refl _⟩ st said "pos" (by rw [hqueue]; decide)
    rw [hqueue] at hlen hbuf hsplit
    exact ⟨buf, st', hrecv, hbuf.trans (by decide), hsplit (hlen.trans_le (by decide)), hempty⟩

end Laye
