import Mathlib.Data.List.Basic
import Mathlib.Tactic.Common

/-!
# Length-prefixed frames

A frame is a fixed-width header holding the length of the payload, then the payload. The
reader takes whole frames from the front of a buffer and leaves an incomplete one.
-/

namespace Framing

variable {β : Type*}

/-- A header of fixed width for the lengths below `bound`. -/
structure Header (β : Type*) where
  width : Nat
  bound : Nat
  put : Nat → List β
  get : List β → Nat
  width_pos : 0 < width
  put_length : ∀ n, (put n).length = width
  get_put : ∀ n, n < bound → get (put n) = n

namespace Header

variable (h : Header β)

def frame (payload : List β) : List β := h.put payload.length ++ payload

def encode (payloads : List (List β)) : List β := payloads.flatMap h.frame

/-- The buffer starts with a whole frame. -/
def Ready (buf : List β) : Prop :=
  h.width ≤ buf.length ∧ h.get (buf.take h.width) ≤ buf.length - h.width

instance (buf : List β) : Decidable (h.Ready buf) := inferInstanceAs (Decidable (_ ∧ _))

/-- The whole frames at the front of a buffer, and what is left. -/
def decode (buf : List β) : List (List β) × List β :=
  if _ready : h.Ready buf then
    let n := h.get (buf.take h.width)
    let tail := decode (buf.drop (h.width + n))
    ((buf.drop h.width).take n :: tail.1, tail.2)
  else ([], buf)
termination_by buf.length
decreasing_by
  have hpos := h.width_pos
  have hlong := _ready.1
  simp only [List.length_drop]
  omega

/-- No header that is read on the way, at its distance from position `pos`, declares a frame that
would end at `limit` or beyond. -/
def Below (limit pos : Nat) (buf : List β) : Prop :=
  (h.width ≤ buf.length → pos + h.width + h.get (buf.take h.width) < limit) ∧
    if _ready : h.Ready buf then
      Below limit (pos + h.width + h.get (buf.take h.width))
        (buf.drop (h.width + h.get (buf.take h.width)))
    else True
termination_by buf.length
decreasing_by
  have hpos := h.width_pos
  have hlong := _ready.1
  simp only [List.length_drop]
  omega

lemma decode_of_not_ready {buf : List β} (hr : ¬h.Ready buf) : h.decode buf = ([], buf) := by
  rw [decode, dif_neg hr]

lemma decode_of_ready {buf : List β} (hr : h.Ready buf) :
    h.decode buf =
      ((buf.drop h.width).take (h.get (buf.take h.width)) ::
        (h.decode (buf.drop (h.width + h.get (buf.take h.width)))).1,
        (h.decode (buf.drop (h.width + h.get (buf.take h.width)))).2) := by
  rw [decode, dif_pos hr]

@[simp] lemma frame_length (payload : List β) : (h.frame payload).length = h.width + payload.length := by
  simp [frame, h.put_length]

@[simp] lemma encode_nil : h.encode [] = [] := rfl

@[simp] lemma encode_cons (payload : List β) (payloads : List (List β)) :
    h.encode (payload :: payloads) = h.frame payload ++ h.encode payloads := rfl

lemma not_ready_nil : ¬h.Ready ([] : List β) := by
  intro hr
  have hlong := hr.1
  have hpos := h.width_pos
  simp only [List.length_nil] at hlong
  omega

lemma below_iff {limit pos : Nat} {buf : List β} :
    h.Below limit pos buf ↔
      (h.width ≤ buf.length → pos + h.width + h.get (buf.take h.width) < limit) ∧
        (h.Ready buf → h.Below limit (pos + h.width + h.get (buf.take h.width))
          (buf.drop (h.width + h.get (buf.take h.width)))) := by
  conv_lhs => rw [Below]
  by_cases hr : h.Ready buf
  · rw [dif_pos hr]
    simp only [hr, true_imp_iff]
  · rw [dif_neg hr]
    simp only [hr, false_imp_iff]

/-- The front of a written buffer is its first frame. -/
lemma frame_append (payload rest : List β) (hb : payload.length < h.bound) :
    h.get ((h.frame payload ++ rest).take h.width) = payload.length ∧
      (h.frame payload ++ rest).drop h.width = payload ++ rest ∧
      h.Ready (h.frame payload ++ rest) := by
  have htake : (h.frame payload ++ rest).take h.width = h.put payload.length := by
    rw [frame, List.append_assoc, List.take_left' (h.put_length _)]
  have hget : h.get ((h.frame payload ++ rest).take h.width) = payload.length := by
    rw [htake, h.get_put _ hb]
  have hdrop : (h.frame payload ++ rest).drop h.width = payload ++ rest := by
    rw [frame, List.append_assoc, List.drop_left' (h.put_length _)]
  refine ⟨hget, hdrop, ?_, ?_⟩
  · simp only [List.length_append, frame_length]
    omega
  · rw [hget]
    simp only [List.length_append, frame_length]
    omega

/-- One frame is read off the front of whatever follows it. -/
lemma decode_frame_append (payload rest : List β) (hb : payload.length < h.bound) :
    h.decode (h.frame payload ++ rest) =
      (payload :: (h.decode rest).1, (h.decode rest).2) := by
  obtain ⟨hget, hdrop, hready⟩ := h.frame_append payload rest hb
  rw [h.decode_of_ready hready, hget, hdrop, ← List.drop_drop, hdrop, List.take_left, List.drop_left]

/-- Reading undoes writing. -/
theorem decode_encode_append (payloads : List (List β)) (rest : List β)
    (hb : ∀ p ∈ payloads, p.length < h.bound) :
    h.decode (h.encode payloads ++ rest) = (payloads ++ (h.decode rest).1, (h.decode rest).2) := by
  induction payloads with
  | nil => simp
  | cons payload payloads ih =>
    rw [encode_cons, List.append_assoc, h.decode_frame_append _ _ (hb _ List.mem_cons_self),
      ih (fun p hp => hb p (List.mem_cons_of_mem _ hp))]
    rfl

lemma below_encode {limit pos : Nat} (payloads : List (List β))
    (hb : ∀ p ∈ payloads, p.length < h.bound) (hlimit : pos + (h.encode payloads).length < limit) :
    h.Below limit pos (h.encode payloads) := by
  induction payloads generalizing pos with
  | nil =>
    rw [below_iff, encode_nil]
    refine ⟨fun hlong => ?_, fun hr => absurd hr h.not_ready_nil⟩
    have hpos := h.width_pos
    simp only [List.length_nil] at hlong
    omega
  | cons payload payloads ih =>
    obtain ⟨hget, hdrop, hready⟩ :=
      h.frame_append payload (h.encode payloads) (hb _ List.mem_cons_self)
    rw [encode_cons, List.length_append, frame_length] at hlimit
    rw [below_iff, encode_cons, hget, ← List.drop_drop, hdrop, List.drop_left]
    exact ⟨fun _ => by omega, fun _ => ih (fun p hp => hb p (List.mem_cons_of_mem _ hp)) (by omega)⟩

theorem decode_encode (payloads : List (List β)) (hb : ∀ p ∈ payloads, p.length < h.bound) :
    h.decode (h.encode payloads) = (payloads, []) := by
  have hempty : h.decode [] = ([], []) := h.decode_of_not_ready h.not_ready_nil
  have hd := h.decode_encode_append payloads [] hb
  rwa [List.append_nil, hempty, List.append_nil] at hd

/-! ### Any buffer -/

/-- What is left behind the frames starts with no whole frame. -/
theorem not_ready_decode (buf : List β) : ¬h.Ready (h.decode buf).2 := by
  induction buf using decode.induct h with
  | case1 buf hr _ ih =>
    rw [h.decode_of_ready hr]
    exact ih
  | case2 buf hr =>
    rw [h.decode_of_not_ready hr]
    exact hr

/-- A header that writes back what it reads: the frames and what is left make up the buffer. -/
theorem encode_decode (hput : ∀ head : List β, head.length = h.width → h.put (h.get head) = head)
    (buf : List β) : h.encode (h.decode buf).1 ++ (h.decode buf).2 = buf := by
  induction buf using decode.induct h with
  | case1 buf hr _ ih =>
    have hhead : (buf.take h.width).length = h.width := List.length_take_of_le hr.1
    have hpayload : ((buf.drop h.width).take (h.get (buf.take h.width))).length =
        h.get (buf.take h.width) := by
      have hlong := hr.2
      rw [List.length_take, List.length_drop]
      omega
    rw [h.decode_of_ready hr, encode_cons, List.append_assoc, ih, frame, hpayload, hput _ hhead,
      List.append_assoc, ← List.drop_drop, List.take_append_drop, List.take_append_drop]
  | case2 buf hr =>
    rw [h.decode_of_not_ready hr]
    rfl

end Header

end Framing
