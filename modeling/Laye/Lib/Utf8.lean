import Mathlib.Tactic.Common
import Laye.Lib.Search

/-!
# ASCII characters in UTF-8

An ASCII character is one byte, and its byte is in no other character's bytes.
-/

namespace Utf8

lemma encodeChar_of_lt {c : Char} (h : c.toNat < 128) :
    String.utf8EncodeChar c = [UInt8.ofNat c.toNat] := by
  have hle : c.val.toNat ≤ 0x7f := Nat.le_of_lt_succ h
  unfold String.utf8EncodeChar
  exact if_pos hle

/-- The bytes of a character that is not ASCII. -/
lemma le_of_mem_encodeChar {c : Char} (h : ¬c.toNat < 128) {b : UInt8}
    (hb : b ∈ String.utf8EncodeChar c) : 128 ≤ b.toNat := by
  have hmore : ¬c.val.toNat ≤ 0x7f := fun hle => h (Nat.lt_succ_of_le hle)
  have hlead : ∀ n m k : Nat, 128 ≤ k → n % m + k < 256 → 128 ≤ (UInt8.ofNat (n % m + k)).toNat := by
    intro n m k hk hlt
    rw [UInt8.toNat_ofNat']
    omega
  unfold String.utf8EncodeChar at hb
  simp only [if_neg hmore] at hb
  split at hb <;> [skip; split at hb]
  all_goals
    simp only [List.mem_cons, List.not_mem_nil, or_false] at hb
    rcases hb with rfl | rfl | rfl | rfl
  all_goals exact hlead _ _ _ (by omega) (by omega)

lemma count_encodeChar {c : Char} (hc : c.toNat < 128) (d : Char) :
    (String.utf8EncodeChar d).count (UInt8.ofNat c.toNat) = if d = c then 1 else 0 := by
  have hbyte : (UInt8.ofNat c.toNat).toNat = c.toNat := by
    rw [UInt8.toNat_ofNat']
    omega
  by_cases hd : d.toNat < 128
  · have hiff : UInt8.ofNat d.toNat = UInt8.ofNat c.toNat ↔ d = c := by
      constructor
      · intro h
        have hnat := congrArg UInt8.toNat h
        rw [hbyte, UInt8.toNat_ofNat', Nat.mod_eq_of_lt (by omega)] at hnat
        exact Char.toNat_inj.mp hnat
      · rintro rfl
        rfl
    rw [encodeChar_of_lt hd, List.count_singleton, beq_eq_decide]
    simp only [hiff, decide_eq_true_eq]
  · have hne : d ≠ c := fun h => hd (h ▸ hc)
    rw [if_neg hne, List.count_eq_zero]
    intro hmem
    have hle := le_of_mem_encodeChar hd hmem
    omega

/-- A text has an ASCII character as often as its bytes have the character's. -/
lemma count_encode {c : Char} (hc : c.toNat < 128) (cs : List Char) :
    (cs.flatMap String.utf8EncodeChar).count (UInt8.ofNat c.toNat) = cs.count c := by
  induction cs with
  | nil => rfl
  | cons d cs ih =>
    rw [List.flatMap_cons, List.count_append, ih, count_encodeChar hc, List.count_cons, Nat.add_comm]
    simp only [beq_iff_eq]

lemma mem_encode_iff {c : Char} (hc : c.toNat < 128) (cs : List Char) :
    UInt8.ofNat c.toNat ∈ cs.flatMap String.utf8EncodeChar ↔ c ∈ cs := by
  rw [← List.count_pos_iff, ← List.count_pos_iff, count_encode hc]

/-! ### Characters are read off the front -/

lemma encodeChar_append_inj {c d : Char} {xs ys : List UInt8}
    (h : String.utf8EncodeChar c ++ xs = String.utf8EncodeChar d ++ ys) : c = d := by
  have hc := List.utf8DecodeChar?_utf8Encode_singleton_append (b := xs.toByteArray) (c := c)
  have hd := List.utf8DecodeChar?_utf8Encode_singleton_append (b := ys.toByteArray) (c := d)
  have hbytes : [c].utf8Encode ++ xs.toByteArray = [d].utf8Encode ++ ys.toByteArray := by
    simp [List.utf8Encode, ← List.toByteArray_append, h]
  rw [hbytes, hd] at hc
  exact (Option.some.inj hc).symm

/-- Text whose bytes are at the front is at the front itself. -/
theorem prefix_of_encode_prefix {cs ds : List Char}
    (h : cs.flatMap String.utf8EncodeChar <+: ds.flatMap String.utf8EncodeChar) : cs <+: ds := by
  induction cs generalizing ds with
  | nil => exact List.nil_prefix
  | cons c cs ih =>
    obtain ⟨rest, hrest⟩ := h
    cases ds with
    | nil =>
      have hlen := congrArg List.length hrest
      have hpos := c.utf8Size_pos
      simp only [List.flatMap_cons, List.length_append, String.length_utf8EncodeChar, List.flatMap_nil,
        List.length_nil] at hlen
      omega
    | cons d ds =>
      rw [List.flatMap_cons, List.flatMap_cons, List.append_assoc] at hrest
      obtain rfl := encodeChar_append_inj hrest
      exact List.cons_prefix_cons.mpr ⟨rfl, ih ⟨rest, List.append_cancel_left hrest⟩⟩

lemma encode_cons_of_lt {c : Char} (hc : c.toNat < 128) (cs : List Char) :
    (c :: cs).flatMap String.utf8EncodeChar =
      UInt8.ofNat c.toNat :: cs.flatMap String.utf8EncodeChar := by
  rw [List.flatMap_cons, encodeChar_of_lt hc, List.singleton_append]

/-- Text that begins with an ASCII character stands in the bytes only where it stands in the text:
no byte of a longer character looks like its first one. -/
theorem infix_of_encode_infix {c : Char} (hc : c.toNat < 128) {cs ds : List Char}
    (h : (c :: cs).flatMap String.utf8EncodeChar <:+: ds.flatMap String.utf8EncodeChar) :
    c :: cs <:+: ds := by
  induction ds with
  | nil =>
    rw [encode_cons_of_lt hc, List.flatMap_nil, List.infix_nil] at h
    cases h
  | cons d ds ih =>
    have hlater : (c :: cs).flatMap String.utf8EncodeChar <:+: ds.flatMap String.utf8EncodeChar →
        c :: cs <:+: d :: ds := fun hin => (ih hin).trans (List.suffix_cons d ds).isInfix
    by_cases hd : d.toNat < 128
    · have hsplit := h
      rw [encode_cons_of_lt hd, List.infix_cons_iff, ← encode_cons_of_lt hd] at hsplit
      rcases hsplit with hfront | hin
      · have hchars : c :: cs <+: d :: ds := prefix_of_encode_prefix hfront
        exact hchars.isInfix
      · exact hlater hin
    · have hnot : UInt8.ofNat c.toNat ∉ String.utf8EncodeChar d := by
        intro hmem
        have hle := le_of_mem_encodeChar hd hmem
        rw [UInt8.toNat_ofNat'] at hle
        omega
      apply hlater
      rw [encode_cons_of_lt hc, List.flatMap_cons, Search.infix_append_iff_of_not_mem hnot] at h
      rw [encode_cons_of_lt hc]
      exact h

end Utf8
