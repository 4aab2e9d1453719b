import Mathlib.Algebra.Ring.Nat
import Laye.Binding
import Laye.Lib.Framing

/-!
# The receive path

Network events, the per-topic receive queues of `crates/laye-p2p`, and the reader of
`bevy-starter` on the other side of the wasm boundary. Both sides run on wasm32, where `usize`
has 32 bits; an access outside a slice is a panic.
-/

namespace Laye

inductive NetError
  | publishFailed (topic reason : String)
  | subscribeFailed (topic reason : String)
  | notConnected (reason : String)
  | invalidTopic (topic reason : String)
  | providerInternal (reason : String)
deriving DecidableEq

def NetError.display : NetError → String
  | .publishFailed topic reason => s!"publish failed on topic {topic}: {reason}"
  | .subscribeFailed topic reason => s!"subscribe failed on topic {topic}: {reason}"
  | .notConnected reason => s!"not connected: {reason}"
  | .invalidTopic topic reason => s!"invalid topic {topic}: {reason}"
  | .providerInternal reason => s!"provider internal: {reason}"

inductive NetEvent
  | peerUp (peer : String) (addrs : List String)
  | peerDown (peer reason : String)
  | message (topic peer : String) (bytes : Bytes) (atMs : UInt64)
  | subscriptionChange (topic peer : String) (joined : Bool)
  | error (err : NetError)
deriving DecidableEq

inductive Fault
  | panic
  | outOfFuel
deriving DecidableEq

/-! ### Queues -/

structure RxState where
  queues : HashMap String (List Bytes)

def RxState.new : RxState := ⟨HashMap.empty⟩

def RxState.queue (rx : RxState) (topic : String) : List Bytes := (rx.queues topic).getD []

def RxState.ingestEvent (rx : RxState) : NetEvent → RxState
  | .message topic _ bytes _ => ⟨rx.queues.insert topic (rx.queue topic ++ [bytes])⟩
  | _ => rx

def RxState.ingest (rx : RxState) (events : List NetEvent) : RxState :=
  events.foldl RxState.ingestEvent rx

/-- `.map(|b| 4 + b.len() as u32).sum()`, in wrapping arithmetic. -/
def RxState.pendingBytes (rx : RxState) (topic : String) : UInt32 :=
  (rx.queue topic).foldl (fun sum b => sum + (4 + UInt32.ofNat b.length)) 0

/-- `u32::to_le_bytes` -/
def toLeBytes (n : UInt32) : Bytes :=
  [UInt8.ofNat n.toNat, UInt8.ofNat (n.toNat / 256), UInt8.ofNat (n.toNat / 65536),
    UInt8.ofNat (n.toNat / 16777216)]

/-- `u32::from_le_bytes` -/
def fromLeBytes (b0 b1 b2 b3 : UInt8) : UInt32 :=
  UInt32.ofNat (b0.toNat + 256 * b1.toNat + 65536 * b2.toNat + 16777216 * b3.toNat)

/-- `out[start..end].copy_from_slice(data)`. -/
def copyFromSlice (out : Bytes) (start stop : UInt32) (data : Bytes) : Except Fault Bytes :=
  if start ≤ stop ∧ stop.toNat ≤ out.length ∧ data.length = (stop - start).toNat then
    .ok (out.take start.toNat ++ data ++ out.drop stop.toNat)
  else .error .panic

/-- The loop of `drain_into`: the frames left in the queue, the buffer, the bytes written. -/
def drainLoop : List Bytes → Bytes → UInt32 → Except Fault (List Bytes × Bytes × UInt32)
  | [], out, written => .ok ([], out, written)
  | frame :: queue, out, written =>
    let need := 4 + UInt32.ofNat frame.length
    if (written + need).toNat > out.length then .ok (frame :: queue, out, written)
    else do
      let out ← copyFromSlice out written (written + 4) (toLeBytes (UInt32.ofNat frame.length))
      let out ← copyFromSlice out (written + 4) (written + need) frame
      drainLoop queue out (written + need)

def RxState.drainInto (rx : RxState) (topic : String) (out : Bytes) :
    Except Fault (RxState × Bytes × UInt32) :=
  match rx.queues topic with
  | none => .ok (rx, out, 0)
  | some queue => do
    let (queue, out, written) ← drainLoop queue out 0
    return (⟨rx.queues.insert topic queue⟩, out, written)

/-! ### The reader -/

/-- The loop of `split_frames`, with `fuel` turns to go. -/
def splitFramesLoop (buf : Bytes) : Nat → UInt32 → List Bytes → Except Fault (List Bytes)
  | 0, _, _ => .error .outOfFuel
  | fuel + 1, off, frames =>
    if (off + 4).toNat ≤ buf.length then
      match buf.drop off.toNat with
      | b0 :: b1 :: b2 :: b3 :: _ =>
        let len := fromLeBytes b0 b1 b2 b3
        let off := off + 4
        if (off + len).toNat > buf.length then .ok frames
        else if off ≤ off + len then
          splitFramesLoop buf fuel (off + len)
            (frames ++ [(buf.drop off.toNat).take (off + len - off).toNat])
        else .error .panic
      | _ => .error .panic
    else .ok frames

def splitFrames (buf : Bytes) : Except Fault (List Bytes) :=
  splitFramesLoop buf (buf.length + 1) 0 []

/-! ### Both ends speak length-prefixed frames -/

lemma fromLeBytes_toLeBytes (n : UInt32) :
    fromLeBytes (UInt8.ofNat n.toNat) (UInt8.ofNat (n.toNat / 256)) (UInt8.ofNat (n.toNat / 65536))
      (UInt8.ofNat (n.toNat / 16777216)) = n := by
  have hn := n.toNat_lt
  apply UInt32.toNat_inj.mp
  simp only [fromLeBytes, UInt32.toNat_ofNat', UInt8.toNat_ofNat']
  omega

/-- The `u32` header in front of a payload. -/
def u32Header : Framing.Header UInt8 where
  width := 4
  bound := 2 ^ 32
  put n := toLeBytes (UInt32.ofNat n)
  get
    | [b0, b1, b2, b3] => (fromLeBytes b0 b1 b2 b3).toNat
    | _ => 0
  width_pos := by decide
  put_length _ := rfl
  get_put n hn :=
    calc (fromLeBytes _ _ _ _).toNat = (UInt32.ofNat n).toNat :=
          congrArg UInt32.toNat (fromLeBytes_toLeBytes _)
      _ = n := by rw [UInt32.toNat_ofNat', Nat.mod_eq_of_lt hn]

/-- Bytes a list of payloads takes once framed. -/
def framedSize (queue : List Bytes) : Nat := (queue.map (fun b => 4 + b.length)).sum

@[simp] lemma framedSize_nil : framedSize [] = 0 := rfl

@[simp] lemma framedSize_cons (b : Bytes) (queue : List Bytes) :
    framedSize (b :: queue) = 4 + b.length + framedSize queue := by
  simp [framedSize]

lemma encode_length (queue : List Bytes) : (u32Header.encode queue).length = framedSize queue := by
  induction queue with
  | nil => rfl
  | cons b queue ih =>
    rw [Framing.Header.encode_cons, List.length_append, Framing.Header.frame_length, ih,
      framedSize_cons]
    rfl

lemma lt_bound_of_framedSize {queue : List Bytes} (h : framedSize queue < 2 ^ 32) :
    ∀ b ∈ queue, b.length < u32Header.bound := by
  change ∀ b ∈ queue, b.length < 2 ^ 32
  induction queue with
  | nil => simp
  | cons a queue ih =>
    rw [framedSize_cons] at h
    intro b hb
    rcases List.mem_cons.mp hb with rfl | hb
    · omega
    · exact ih (by omega) b hb

def RxState.queuedBytes (rx : RxState) (topic : String) : Nat := framedSize (rx.queue topic)

lemma foldl_frame_sizes (queue : List Bytes) (sum : UInt32) :
    (queue.foldl (fun sum b => sum + (4 + UInt32.ofNat b.length)) sum).toNat =
      (sum.toNat + framedSize queue) % 2 ^ 32 := by
  induction queue generalizing sum with
  | nil => simp [Nat.mod_eq_of_lt sum.toNat_lt]
  | cons b queue ih =>
    rw [List.foldl_cons, ih, framedSize_cons]
    simp only [UInt32.toNat_add, UInt32.toNat_ofNat', UInt32.reduceToNat]
    omega

/-- `pending_bytes` is the framed size as long as that fits 32 bits. -/
theorem pendingBytes_eq (rx : RxState) (topic : String) (h : rx.queuedBytes topic < 2 ^ 32) :
    (rx.pendingBytes topic).toNat = rx.queuedBytes topic := by
  rw [RxState.pendingBytes, foldl_frame_sizes]
  simp only [UInt32.reduceToNat, Nat.zero_add]
  exact Nat.mod_eq_of_lt h

lemma copyFromSlice_ok {out data : Bytes} {start stop : UInt32} (hstop : stop.toNat ≤ out.length)
    (hlen : stop.toNat = start.toNat + data.length) :
    copyFromSlice out start stop data =
      .ok (out.take start.toNat ++ data ++ out.drop stop.toNat) := by
  have hle : start ≤ stop := UInt32.le_iff_toNat_le.mpr (by omega)
  have hwidth : data.length = (stop - start).toNat := by
    rw [UInt32.toNat_sub_of_le _ _ hle]
    omega
  unfold copyFromSlice
  rw [if_pos ⟨hle, hstop, hwidth⟩]

/-- One turn of `drain_into`: a frame that fits lands right behind what is written. -/
lemma drainLoop_cons_fits {b : Bytes} (queue : List Bytes) {out : Bytes} {written : UInt32}
    (hsize : written.toNat + (4 + b.length) < 2 ^ 32)
    (hfit : written.toNat + (4 + b.length) ≤ out.length) :
    ∃ out', drainLoop (b :: queue) out written =
        drainLoop queue out' (written + (4 + UInt32.ofNat b.length)) ∧
      out'.length = out.length ∧
      (written + (4 + UInt32.ofNat b.length)).toNat = written.toNat + (4 + b.length) ∧
      out'.take (written.toNat + (4 + b.length)) = out.take written.toNat ++ u32Header.frame b := by
  have hneed : (written + (4 + UInt32.ofNat b.length)).toNat = written.toNat + (4 + b.length) := by
    simp only [UInt32.toNat_add, UInt32.toNat_ofNat', UInt32.reduceToNat]
    omega
  have hheader : (written + 4).toNat = written.toNat + 4 := by
    simp only [UInt32.toNat_add, UInt32.reduceToNat]
    omega
  let mid := out.take written.toNat ++ toLeBytes (UInt32.ofNat b.length) ++ out.drop (written + 4).toNat
  have hmid : mid.length = out.length := by
    simp only [mid, toLeBytes, List.length_append, List.length_take, List.length_drop,
      List.length_cons, List.length_nil, hheader]
    omega
  let fin := mid.take (written + 4).toNat ++ b ++ mid.drop (written + (4 + UInt32.ofNat b.length)).toNat
  have hfin : fin.length = out.length := by
    simp only [fin, List.length_append, List.length_take, List.length_drop, hmid, hheader, hneed]
    omega
  have hc1 : copyFromSlice out written (written + 4) (toLeBytes (UInt32.ofNat b.length)) = .ok mid :=
    copyFromSlice_ok (by omega) (by rw [hheader]; rfl)
  have hc2 : copyFromSlice mid (written + 4) (written + (4 + UInt32.ofNat b.length)) b = .ok fin :=
    copyFromSlice_ok (by omega) (by omega)
  have htake : mid.take (written + 4).toNat =
      out.take written.toNat ++ toLeBytes (UInt32.ofNat b.length) := by
    simp only [mid]
    rw [List.take_left']
    simp only [toLeBytes, List.length_append, List.length_take, List.length_cons, List.length_nil,
      hheader]
    omega
  refine ⟨fin, ?_, hfin, hneed, ?_⟩
  · simp only [drainLoop]
    rw [if_neg (by omega), hc1]
    simp only [bind, Except.bind, hc2]
  · simp only [fin]
    rw [htake, List.take_left']
    · simp [Framing.Header.frame, u32Header]
    · simp only [toLeBytes, List.length_append, List.length_take, List.length_cons, List.length_nil]
      omega

/-- What `drain_into` does to a queue: it moves the longest prefix that fits, framed, in order. -/
theorem drainLoop_spec (queue : List Bytes) (out : Bytes) (written : UInt32)
    (hsize : written.toNat + framedSize queue < 2 ^ 32) (hle : written.toNat ≤ out.length) :
    ∃ sent rest out' written', queue = sent ++ rest ∧
      drainLoop queue out written = .ok (rest, out', written') ∧
      out'.length = out.length ∧ written'.toNat = written.toNat + framedSize sent ∧
      out'.take written'.toNat = out.take written.toNat ++ u32Header.encode sent ∧
      ∀ b ∈ rest.head?, out.length < written'.toNat + (4 + b.length) := by
  induction queue generalizing out written with
  | nil => exact ⟨[], [], out, written, rfl, rfl, rfl, by simp, by simp, by simp⟩
  | cons b queue ih =>
    rw [framedSize_cons] at hsize
    by_cases hfit : written.toNat + (4 + b.length) ≤ out.length
    · obtain ⟨out₁, hstep, hlen₁, hneed, htake⟩ :=
        drainLoop_cons_fits queue (by omega) hfit
      obtain ⟨sent, rest, out', written', hq, hrun, hlen, hw, hpre, hrest⟩ :=
        ih out₁ (written + (4 + UInt32.ofNat b.length)) (by omega) (by omega)
      refine ⟨b :: sent, rest, out', written', by rw [hq]; rfl, by rw [hstep, hrun], by omega,
        by rw [framedSize_cons]; omega, ?_, ?_⟩
      · rw [hpre, hneed, htake, Framing.Header.encode_cons, List.append_assoc]
      · intro c hc
        rw [← hlen₁]
        exact hrest c hc
    · have hneed : (written + (4 + UInt32.ofNat b.length)).toNat = written.toNat + (4 + b.length) := by
        simp only [UInt32.toNat_add, UInt32.toNat_ofNat', UInt32.reduceToNat]
        omega
      refine ⟨[], b :: queue, out, written, rfl, ?_, rfl, by simp, by simp, ?_⟩
      · simp only [drainLoop]
        rw [if_pos (by omega)]
      · intro c hc
        simp only [List.head?_cons, Option.mem_def, Option.some.injEq] at hc
        subst c
        omega

/-! ### The reader reads frames -/

/-- `isize::MAX` on wasm32, which no slice is longer than. -/
def ISIZE_MAX : Nat := 2 ^ 31 - 1

structure Slice where
  bytes : Bytes
  length_le : bytes.length ≤ ISIZE_MAX

lemma ready_iff {buf : Bytes} {b0 b1 b2 b3 : UInt8} {rest : Bytes}
    (h : buf = b0 :: b1 :: b2 :: b3 :: rest) :
    u32Header.get (buf.take u32Header.width) = (fromLeBytes b0 b1 b2 b3).toNat ∧
      (u32Header.Ready buf ↔ (fromLeBytes b0 b1 b2 b3).toNat ≤ rest.length) := by
  subst h
  refine ⟨rfl, ?_⟩
  unfold Framing.Header.Ready
  change 4 ≤ rest.length + 4 ∧ (fromLeBytes b0 b1 b2 b3).toNat ≤ rest.length + 4 - 4 ↔ _
  omega

lemma toNat_add_four {buf : Bytes} (hlen : buf.length ≤ ISIZE_MAX) {off : UInt32}
    (hoff : off.toNat ≤ buf.length) : (off + 4).toNat = off.toNat + 4 := by
  have hmax : ISIZE_MAX = 2147483647 := rfl
  simp only [UInt32.toNat_add, UInt32.reduceToNat]
  omega

/-- The header at the offset, where there is one, declares a frame that ends before 2^32. -/
def EndsBelow (buf : Bytes) (off : UInt32) : Prop :=
  4 ≤ (buf.drop off.toNat).length →
    off.toNat + 4 + u32Header.get ((buf.drop off.toNat).take 4) < 2 ^ 32

lemma endsBelow_of_below {buf : Bytes} {off : UInt32}
    (h : u32Header.Below (2 ^ 32) off.toNat (buf.drop off.toNat)) : EndsBelow buf off :=
  (u32Header.below_iff.mp h).1

/-- What a turn of `split_frames` meets where a header fits. -/
lemma header_at {buf : Bytes} {off : UInt32} (hheader : off.toNat + 4 ≤ buf.length) :
    ∃ b0 b1 b2 b3 rest, buf.drop off.toNat = b0 :: b1 :: b2 :: b3 :: rest ∧
      rest.length + 4 + off.toNat = buf.length := by
  have hlong : 4 ≤ (buf.drop off.toNat).length := by
    rw [List.length_drop]
    omega
  obtain ⟨b0, b1, b2, b3, rest, hdrop⟩ : ∃ b0 b1 b2 b3 rest,
      buf.drop off.toNat = b0 :: b1 :: b2 :: b3 :: rest := by
    match hbuf : buf.drop off.toNat, hlong with
    | b0 :: b1 :: b2 :: b3 :: rest, _ => exact ⟨b0, b1, b2, b3, rest, rfl⟩
  refine ⟨b0, b1, b2, b3, rest, hdrop, ?_⟩
  have hl := congrArg List.length hdrop
  simp only [List.length_drop, List.length_cons] at hl
  omega

/-- The offset behind the declared frame, in 32 bits. -/
lemma next_toNat {buf : Bytes} (hlen : buf.length ≤ ISIZE_MAX) {off : UInt32}
    (hheader : off.toNat + 4 ≤ buf.length) (n : UInt32) :
    (off + 4 + n).toNat = (off.toNat + 4 + n.toNat) % 2 ^ 32 := by
  rw [UInt32.toNat_add, toNat_add_four hlen (by omega)]

lemma next_toNat_of_endsBelow {buf : Bytes} (hlen : buf.length ≤ ISIZE_MAX) {off : UInt32}
    (hend : EndsBelow buf off) {b0 b1 b2 b3 : UInt8} {rest : Bytes}
    (hdrop : buf.drop off.toNat = b0 :: b1 :: b2 :: b3 :: rest)
    (hrest : rest.length + 4 + off.toNat = buf.length) :
    (off + 4 + fromLeBytes b0 b1 b2 b3).toNat =
      off.toNat + 4 + (fromLeBytes b0 b1 b2 b3).toNat := by
  have hlt := hend (by rw [hdrop]; simp)
  rw [hdrop] at hlt
  rw [next_toNat hlen (by omega)]
  exact Nat.mod_eq_of_lt hlt

/-- A turn that meets a whole frame takes it and moves behind it. -/
lemma splitFramesLoop_ready {buf : Bytes} (hlen : buf.length ≤ ISIZE_MAX) (fuel : Nat) {off : UInt32}
    (frames : List Bytes) (hoff : off.toNat ≤ buf.length) (hend : EndsBelow buf off)
    (hr : u32Header.Ready (buf.drop off.toNat)) :
    ∃ next : UInt32, next.toNat = off.toNat +
        (u32Header.width + u32Header.get ((buf.drop off.toNat).take u32Header.width)) ∧
      next.toNat ≤ buf.length ∧
      splitFramesLoop buf (fuel + 1) off frames = splitFramesLoop buf fuel next
        (frames ++ [((buf.drop off.toNat).drop u32Header.width).take
          (u32Header.get ((buf.drop off.toNat).take u32Header.width))]) := by
  have hwidth : u32Header.width = 4 := rfl
  have hheader : off.toNat + 4 ≤ buf.length := by
    have hlong := hr.1
    rw [List.length_drop, hwidth] at hlong
    omega
  have hoff4 := toNat_add_four hlen hoff
  obtain ⟨b0, b1, b2, b3, rest, hdrop, hrest⟩ := header_at hheader
  have hnext := next_toNat_of_endsBelow hlen hend hdrop hrest
  obtain ⟨hget, hready⟩ := ready_iff hdrop
  have hwhole := hready.mp hr
  have hle : off + 4 ≤ off + 4 + fromLeBytes b0 b1 b2 b3 := by
    rw [UInt32.le_iff_toNat_le, hnext, hoff4]
    omega
  have hsize : (off + 4 + fromLeBytes b0 b1 b2 b3 - (off + 4)).toNat =
      (fromLeBytes b0 b1 b2 b3).toNat := by
    rw [UInt32.toNat_sub_of_le _ _ hle, hnext, hoff4]
    omega
  refine ⟨off + 4 + fromLeBytes b0 b1 b2 b3, by rw [hget, hnext, hwidth, Nat.add_assoc], by omega, ?_⟩
  rw [hget, hwidth, List.drop_drop, splitFramesLoop, hoff4, if_pos hheader]
  simp only [hdrop]
  rw [if_neg (by omega), if_pos hle, hsize, hoff4]

/-- A turn that meets no whole frame is the last one. -/
lemma splitFramesLoop_not_ready {buf : Bytes} (hlen : buf.length ≤ ISIZE_MAX) (fuel : Nat)
    {off : UInt32} (frames : List Bytes) (hoff : off.toNat ≤ buf.length) (hend : EndsBelow buf off)
    (hr : ¬u32Header.Ready (buf.drop off.toNat)) :
    splitFramesLoop buf (fuel + 1) off frames = .ok frames := by
  rw [splitFramesLoop, toNat_add_four hlen hoff]
  by_cases hheader : off.toNat + 4 ≤ buf.length
  · obtain ⟨b0, b1, b2, b3, rest, hdrop, hrest⟩ := header_at hheader
    have hnext := next_toNat_of_endsBelow hlen hend hdrop hrest
    have hshort : ¬(fromLeBytes b0 b1 b2 b3).toNat ≤ rest.length :=
      fun hwhole => hr ((ready_iff hdrop).2.mpr hwhole)
    simp only [if_pos hheader, hdrop]
    rw [if_pos (by omega)]
  · rw [if_neg hheader]

/-- The loop of `split_frames` reads the frames from its offset on, unless a declared length makes
its 32-bit offset wrap. -/
lemma splitFramesLoop_eq {buf : Bytes} (hlen : buf.length ≤ ISIZE_MAX) (fuel : Nat) (off : UInt32)
    (frames : List Bytes) (hoff : off.toNat ≤ buf.length) (hfuel : buf.length - off.toNat < fuel)
    (hbelow : u32Header.Below (2 ^ 32) off.toNat (buf.drop off.toNat)) :
    splitFramesLoop buf fuel off frames =
      .ok (frames ++ (u32Header.decode (buf.drop off.toNat)).1) := by
  induction fuel generalizing off frames with
  | zero => omega
  | succ fuel ih =>
    by_cases hr : u32Header.Ready (buf.drop off.toNat)
    · obtain ⟨next, hnext, hle, hstep⟩ :=
        splitFramesLoop_ready hlen fuel frames hoff (endsBelow_of_below hbelow) hr
      have hpos := u32Header.width_pos
      have hbehind : (buf.drop off.toNat).drop
          (u32Header.width + u32Header.get ((buf.drop off.toNat).take u32Header.width)) =
            buf.drop next.toNat := by
        rw [List.drop_drop, hnext]
      have htail : u32Header.Below (2 ^ 32) next.toNat (buf.drop next.toNat) := by
        rw [← hbehind, hnext, ← Nat.add_assoc]
        exact (u32Header.below_iff.mp hbelow).2 hr
      rw [hstep, ih next _ hle (by omega) htail, u32Header.decode_of_ready hr, hbehind,
        List.append_assoc]
      rfl
    · rw [splitFramesLoop_not_ready hlen fuel frames hoff (endsBelow_of_below hbelow) hr,
        u32Header.decode_of_not_ready hr, List.append_nil]

/-- `split_frames` is the reader of the frame format. -/
theorem splitFrames_eq {buf : Bytes} (hlen : buf.length ≤ ISIZE_MAX)
    (hbelow : u32Header.Below (2 ^ 32) 0 buf) : splitFrames buf = .ok (u32Header.decode buf).1 := by
  rw [splitFrames, splitFramesLoop_eq hlen _ 0 [] (Nat.zero_le _) (by simp) hbelow]
  rfl

/-- Reading back what was written. -/
theorem splitFrames_encode {queue : List Bytes} (h : framedSize queue ≤ ISIZE_MAX) :
    splitFrames (u32Header.encode queue) = .ok queue := by
  have hmax : ISIZE_MAX = 2147483647 := rfl
  have hbound := lt_bound_of_framedSize (show framedSize queue < 2 ^ 32 by omega)
  rw [splitFrames_eq (by rw [encode_length]; exact h)
    (u32Header.below_encode queue hbound (by rw [encode_length]; omega)), u32Header.decode_encode _ hbound]

end Laye
