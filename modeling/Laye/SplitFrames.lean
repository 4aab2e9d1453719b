import Laye.RxState

/-!
# The reader on any buffer

`split_frames` gets whatever bytes come over the wasm boundary, with any lengths in them.
-/

namespace Laye

/-! ### Frames that end beyond 32 bits -/

/-- A declared length that carries the offset past 2^32 leaves it in front of where it was: the
bound check passes, and the slice runs backwards. -/
lemma splitFramesLoop_wraps {buf : Bytes} (hlen : buf.length ≤ ISIZE_MAX) (fuel : Nat) {off : UInt32}
    (frames : List Bytes) (hoff : off.toNat ≤ buf.length) (hend : ¬EndsBelow buf off) :
    splitFramesLoop buf (fuel + 1) off frames = .error .panic := by
  rw [EndsBelow, Classical.not_imp, Nat.not_lt] at hend
  obtain ⟨hlong, hwraps⟩ := hend
  rw [List.length_drop] at hlong
  have hheader : off.toNat + 4 ≤ buf.length := by omega
  obtain ⟨b0, b1, b2, b3, rest, hdrop, hrest⟩ := header_at hheader
  have hget : u32Header.get ((buf.drop off.toNat).take 4) = (fromLeBytes b0 b1 b2 b3).toNat :=
    (ready_iff hdrop).1
  rw [hget] at hwraps
  have hnext := next_toNat hlen hheader (fromLeBytes b0 b1 b2 b3)
  have hn := (fromLeBytes b0 b1 b2 b3).toNat_lt
  have hmax : ISIZE_MAX = 2147483647 := rfl
  have hback : (off + 4 + fromLeBytes b0 b1 b2 b3).toNat < off.toNat + 4 := by
    rw [hnext]
    omega
  have hoff4 := toNat_add_four hlen hoff
  have hnot : ¬off + 4 ≤ off + 4 + fromLeBytes b0 b1 b2 b3 := by
    rw [UInt32.le_iff_toNat_le]
    omega
  rw [splitFramesLoop, hoff4, if_pos hheader]
  simp only [hdrop]
  rw [if_neg (by omega), if_neg hnot]

/-- The loop takes the frames in front of such a header and fails there. -/
lemma splitFramesLoop_of_not_below {buf : Bytes} (hlen : buf.length ≤ ISIZE_MAX) (fuel : Nat)
    (off : UInt32) (frames : List Bytes) (hoff : off.toNat ≤ buf.length)
    (hfuel : buf.length - off.toNat < fuel)
    (hbelow : ¬u32Header.Below (2 ^ 32) off.toNat (buf.drop off.toNat)) :
    splitFramesLoop buf fuel off frames = .error .panic := by
  induction fuel generalizing off frames with
  | zero => omega
  | succ fuel ih =>
    by_cases hend : EndsBelow buf off
    · have hr : u32Header.Ready (buf.drop off.toNat) := by
        by_contra hr
        exact hbelow (u32Header.below_iff.mpr ⟨hend, fun h => absurd h hr⟩)
      obtain ⟨next, hnext, hle, hstep⟩ := splitFramesLoop_ready hlen fuel frames hoff hend hr
      have hpos := u32Header.width_pos
      have htail : ¬u32Header.Below (2 ^ 32) next.toNat (buf.drop next.toNat) := by
        intro htail
        refine hbelow (u32Header.below_iff.mpr ⟨hend, fun _ => ?_⟩)
        rw [List.drop_drop, Nat.add_assoc, ← hnext]
        exact htail
      rw [hstep]
      exact ih next _ hle (by omega) htail
    · exact splitFramesLoop_wraps hlen fuel frames hoff hend

lemma splitFrames_of_not_below (buf : Slice) (hbelow : ¬u32Header.Below (2 ^ 32) 0 buf.bytes) :
    splitFrames buf.bytes = .error .panic :=
  splitFramesLoop_of_not_below buf.length_le _ 0 [] (Nat.zero_le _) (by simp) hbelow

/-- `split_frames` always comes to an end, and it ends without a slice outside its buffer exactly
when no header it meets declares a frame that would end at 2^32 or beyond. -/
theorem splitFrames_total_iff (buf : Slice) :
    splitFrames buf.bytes ≠ .error .outOfFuel ∧
      ((∃ frames, splitFrames buf.bytes = .ok frames) ↔ u32Header.Below (2 ^ 32) 0 buf.bytes) := by
  by_cases hbelow : u32Header.Below (2 ^ 32) 0 buf.bytes
  · rw [splitFrames_eq buf.length_le hbelow]
    exact ⟨by simp, iff_of_true ⟨_, rfl⟩ hbelow⟩
  · rw [splitFrames_of_not_below buf hbelow]
    exact ⟨by simp, iff_of_false (by simp) hbelow⟩

/-- Four bytes, with a length of 2^32 - 4. -/
theorem splitFrames_panics :
    let buf : Slice := ⟨[0xfc, 0xff, 0xff, 0xff], by decide⟩
    splitFrames buf.bytes = .error .panic ∧ ¬∃ frames, splitFrames buf.bytes = .ok frames := by
  intro buf
  have hpanic : splitFrames buf.bytes = .error .panic := by decide
  refine ⟨hpanic, ?_⟩
  rintro ⟨frames, hok⟩
  rw [hpanic] at hok
  cases hok

/-! ### The frames of a buffer -/

lemma toLeBytes_fromLeBytes (b0 b1 b2 b3 : UInt8) :
    toLeBytes (fromLeBytes b0 b1 b2 b3) = [b0, b1, b2, b3] := by
  have h0 := b0.toNat_lt
  have h1 := b1.toNat_lt
  have h2 := b2.toNat_lt
  have h3 := b3.toNat_lt
  simp only [toLeBytes, fromLeBytes, List.cons.injEq, and_true, ← UInt8.toNat_inj,
    UInt8.toNat_ofNat', UInt32.toNat_ofNat']
  omega

lemma put_get_u32Header (head : Bytes) (hhead : head.length = u32Header.width) :
    u32Header.put (u32Header.get head) = head := by
  match head, hhead with
  | [b0, b1, b2, b3], _ =>
    change toLeBytes (UInt32.ofNat (fromLeBytes b0 b1 b2 b3).toNat) = _
    rw [UInt32.ofNat_toNat, toLeBytes_fromLeBytes]

/-- No whole frame is at the front: less than a header, or one that declares more than there is. -/
def Incomplete (rest : Bytes) : Prop :=
  rest.length < 4 ∨ ∃ b0 b1 b2 b3 tail, rest = b0 :: b1 :: b2 :: b3 :: tail ∧
    tail.length < (fromLeBytes b0 b1 b2 b3).toNat

lemma incomplete_of_not_ready {rest : Bytes} (h : ¬u32Header.Ready rest) : Incomplete rest := by
  match rest with
  | b0 :: b1 :: b2 :: b3 :: tail =>
    refine Or.inr ⟨b0, b1, b2, b3, tail, rfl, Nat.lt_of_not_le fun hle => h ?_⟩
    exact (ready_iff rfl).2.mpr hle
  | [] | [_] | [_, _] | [_, _, _] => exact Or.inl (by simp)

/-- `split_frames` reads whole frames as far as there are any: written again they are the front of
the buffer, and no whole frame follows. -/
theorem splitFrames_longest_front (buf : Slice) (hbelow : u32Header.Below (2 ^ 32) 0 buf.bytes) :
    ∃ frames rest, splitFrames buf.bytes = .ok frames ∧
      buf.bytes = frames.flatMap (fun frame => toLeBytes (UInt32.ofNat frame.length) ++ frame) ++ rest ∧
      Incomplete rest :=
  ⟨(u32Header.decode buf.bytes).1, (u32Header.decode buf.bytes).2,
    splitFrames_eq buf.length_le hbelow,
    (u32Header.encode_decode put_get_u32Header buf.bytes).symm,
    incomplete_of_not_ready (u32Header.not_ready_decode buf.bytes)⟩

/-- A frame of two bytes, then the header of one of nine with a single byte. -/
theorem splitFrames_longest_front_two :
    let buf : Slice := ⟨[2, 0, 0, 0, 7, 8, 9, 0, 0, 0, 1], by decide⟩
    splitFrames buf.bytes = .ok [[7, 8]] ∧ ∃ frames rest, splitFrames buf.bytes = .ok frames ∧
      buf.bytes = frames.flatMap (fun frame => toLeBytes (UInt32.ofNat frame.length) ++ frame) ++ rest ∧
      Incomplete rest := by
  intro buf
  have hsecond : u32Header.Below (2 ^ 32) 6 [9, 0, 0, 0, 1] := by
    rw [u32Header.below_iff]
    exact ⟨fun _ => by decide, fun hr => absurd hr (by decide)⟩
  have hbelow : u32Header.Below (2 ^ 32) 0 buf.bytes := by
    rw [u32Header.below_iff]
    exact ⟨fun _ => by decide, fun _ => hsecond⟩
  exact ⟨by decide, splitFrames_longest_front buf hbelow⟩

end Laye
