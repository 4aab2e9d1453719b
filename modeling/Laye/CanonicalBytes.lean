import Laye.Lib.Delimited
import Laye.Lib.Signatures
import Laye.Me

/-!
# What canonical bytes determine

Both canonical forms are delimited records. The chat form puts its only free text last and
is read back in one way. The binding form has three free fields in a row between two
separator-free ends, so only the joined text of the three is determined.
-/

namespace Laye
open Delimited

/-- The tags the two formats start with. -/
def chatTag : List Char := "laye-chat/v1".toList

def bindingTag : List Char := "laye-binding/v1".toList

lemma sep_not_mem_chatTag : '|' ∉ chatTag := by decide

lemma sep_not_mem_bindingTag : '|' ∉ bindingTag := by decide

lemma sep_not_mem_hexLower (bytes : Bytes) : '|' ∉ (hexLower bytes).toList := by
  intro h
  have hsep : '|' ∉ HEX := by decide
  exact hsep (mem_HEX_of_mem_hexLower h)

lemma toString_u64_toList (n : UInt64) : (toString n).toList = Nat.toDigits 10 n.toNat :=
  Nat.toList_repr

lemma sep_not_mem_u64 (n : UInt64) : '|' ∉ (toString n).toList := by
  intro h
  rw [toString_u64_toList] at h
  have hd := Nat.isDigit_of_mem_toDigits (by decide) (by decide) h
  exact absurd hd (by decide)

lemma toString_u64_inj {m n : UInt64} (h : (toString m).toList = (toString n).toList) : m = n := by
  rw [toString_u64_toList, toString_u64_toList] at h
  have hnat := congrArg (fun digits => Nat.ofDigitChars 10 digits 0) h
  simp only [Nat.ofDigitChars_ten_toDigits] at hnat
  exact UInt64.toNat_inj.mp hnat

lemma hexLower_toList_inj {a b : PubKey} (h : (hexLower a.bytes).toList = (hexLower b.bytes).toList) :
    a = b := by
  have hb : a.bytes = b.bytes := hexLower_inj.mp (String.toList_inj.mp h)
  cases a
  cases b
  simpa using hb

/-! ### Chat messages -/

lemma SignedChat.canonicalText_toList (chat : SignedChat) :
    chat.canonicalText.toList =
      record '|' [chatTag, (hexLower chat.authorPeerPubkey.bytes).toList,
        (toString chat.atMs).toList] chat.body.toList := by
  have htag : "laye-chat/v1|".toList = chatTag ++ ['|'] := by decide
  have hsep : "|".toList = ['|'] := by decide
  unfold SignedChat.canonicalText
  simp only [String.toList_append, hsep, record_cons, record_nil]
  rw [htag]
  simp only [List.append_assoc, List.cons_append, List.nil_append]

/-- Author, time and body can be read off the canonical bytes, whatever the body contains. -/
theorem SignedChat.canonicalBytes_inj {a b : SignedChat} :
    a.canonicalBytes = b.canonicalBytes ↔
      a.authorPeerPubkey = b.authorPeerPubkey ∧ a.atMs = b.atMs ∧ a.body = b.body := by
  constructor
  · intro h
    have ht := congrArg String.toList (intoBytes_inj.mp h)
    rw [SignedChat.canonicalText_toList, SignedChat.canonicalText_toList, record_inj] at ht
    · simp only [List.cons.injEq, and_true, true_and] at ht
      obtain ⟨⟨hkey, htime⟩, hbody⟩ := ht
      exact ⟨hexLower_toList_inj hkey, toString_u64_inj htime, String.toList_inj.mp hbody⟩
    · simp only [List.length_cons, List.length_nil]
    all_goals
      simp only [List.mem_cons, List.not_mem_nil, or_false]
      rintro f (rfl | rfl | rfl)
      exacts [sep_not_mem_chatTag, sep_not_mem_hexLower _, sep_not_mem_u64 _]
  · rintro ⟨hkey, htime, hbody⟩
    unfold SignedChat.canonicalBytes SignedChat.canonicalText
    rw [hkey, htime, hbody]

/-! ### Binding claims -/

/-- The three free fields of a claim as its canonical bytes show them. -/
def BindingClaim.freeText (claim : BindingClaim) : String :=
  claim.provider ++ "|" ++ claim.canonicalId ++ "|" ++ claim.handle.getD ""

lemma BindingClaim.canonicalText_toList (claim : BindingClaim) :
    claim.canonicalText.toList =
      record '|' [bindingTag, (hexLower claim.peerPubkey.bytes).toList]
        (claim.freeText.toList ++ '|' :: (toString claim.issuedAt).toList) := by
  have htag : "laye-binding/v1|".toList = bindingTag ++ ['|'] := by decide
  have hsep : "|".toList = ['|'] := by decide
  unfold BindingClaim.canonicalText BindingClaim.freeText
  simp only [String.toList_append, hsep, record_cons, record_nil]
  rw [htag]
  simp only [List.append_assoc, List.cons_append, List.nil_append]

lemma BindingClaim.freeText_toList (claim : BindingClaim) :
    claim.freeText.toList =
      record '|' [claim.provider.toList, claim.canonicalId.toList] (claim.handle.getD "").toList := by
  have hsep : "|".toList = ['|'] := by decide
  simp only [BindingClaim.freeText, String.toList_append, hsep, record_cons, record_nil,
    List.append_assoc, List.cons_append, List.nil_append]

/-- Canonical bytes determine key, issue time and the joined free text, and nothing more. -/
theorem BindingClaim.canonicalBytes_inj {a b : BindingClaim} :
    a.canonicalBytes = b.canonicalBytes ↔
      a.peerPubkey = b.peerPubkey ∧ a.freeText = b.freeText ∧ a.issuedAt = b.issuedAt := by
  have htext : a.canonicalBytes = b.canonicalBytes ↔
      a.canonicalText.toList = b.canonicalText.toList := by
    rw [BindingClaim.canonicalBytes, BindingClaim.canonicalBytes, intoBytes_inj, String.toList_inj]
  rw [htext, BindingClaim.canonicalText_toList, BindingClaim.canonicalText_toList, record_inj,
    append_sep_inj_last (sep_not_mem_u64 _) (sep_not_mem_u64 _)]
  · simp only [List.cons.injEq, and_true, true_and, String.toList_inj]
    constructor
    · rintro ⟨hkey, hfree, htime⟩
      exact ⟨hexLower_toList_inj (congrArg String.toList hkey), hfree,
        toString_u64_inj (congrArg String.toList htime)⟩
    · rintro ⟨hkey, hfree, htime⟩
      exact ⟨by rw [hkey], hfree, by rw [htime]⟩
  · simp only [List.length_cons, List.length_nil]
  all_goals
    simp only [List.mem_cons, List.not_mem_nil, or_false]
    rintro f (rfl | rfl)
    exacts [sep_not_mem_bindingTag, sep_not_mem_hexLower _]

/-- Neither provider nor canonical id holds the separator. The handle may. -/
def BindingClaim.SeparatorFree (claim : BindingClaim) : Prop :=
  '|' ∉ claim.provider.toList ∧ '|' ∉ claim.canonicalId.toList

instance (claim : BindingClaim) : Decidable claim.SeparatorFree :=
  inferInstanceAs (Decidable (_ ∧ _))

/-- Free of `|` in provider and canonical id, the free text gives its three parts back. -/
theorem BindingClaim.freeText_inj {a b : BindingClaim}
    (ha : a.SeparatorFree) (hb : b.SeparatorFree) :
    a.freeText = b.freeText ↔ a.provider = b.provider ∧ a.canonicalId = b.canonicalId ∧
      a.handle.getD "" = b.handle.getD "" := by
  rw [← String.toList_inj, BindingClaim.freeText_toList, BindingClaim.freeText_toList, record_inj]
  · simp only [List.cons.injEq, and_true, String.toList_inj, and_assoc]
  · simp only [List.length_cons, List.length_nil]
  · simpa [BindingClaim.SeparatorFree] using ha
  · simpa [BindingClaim.SeparatorFree] using hb

/-- What two claims with the same canonical bytes have in common. -/
structure BindingClaim.Agree (a b : BindingClaim) : Prop where
  peerPubkey : a.peerPubkey = b.peerPubkey
  issuedAt : a.issuedAt = b.issuedAt
  freeText : a.freeText = b.freeText
  fields : a.SeparatorFree → b.SeparatorFree →
    a.provider = b.provider ∧ a.canonicalId = b.canonicalId ∧ a.handle.getD "" = b.handle.getD ""

lemma BindingClaim.agree_of_canonicalBytes {a b : BindingClaim}
    (h : a.canonicalBytes = b.canonicalBytes) : a.Agree b := by
  obtain ⟨hkey, hfree, htime⟩ := BindingClaim.canonicalBytes_inj.mp h
  exact ⟨hkey, htime, hfree, fun ha hb => (BindingClaim.freeText_inj ha hb).mp hfree⟩

/-- The two message kinds never share canonical bytes. -/
theorem chat_ne_binding (chat : SignedChat) (claim : BindingClaim) :
    chat.canonicalBytes ≠ claim.canonicalBytes := by
  intro h
  have ht := congrArg String.toList (intoBytes_inj.mp h)
  rw [SignedChat.canonicalText_toList, BindingClaim.canonicalText_toList, record_cons,
    record_cons '|' bindingTag, append_sep_inj sep_not_mem_chatTag sep_not_mem_bindingTag] at ht
  exact absurd ht.1 (by decide)

/-! ### One signature, one claim -/

/-- Canonical bytes, and a signature the relay issued, fit one claim only: other claims share
them at most by writing the same free text, and separator-free claims not even then, up to an
empty handle standing for an absent one. -/
theorem binding_signature_covers_one_claim (lib : Libp2pIdentity)
    (hideal : Signatures.SignatureOfOneMessage (fun k m s => lib.sign k m = .ok s)
      (fun k pk => lib.tryIntoEd25519 k = .ok pk) lib.verify) :
    (∀ a b : BindingClaim, a.canonicalBytes = b.canonicalBytes → a.Agree b) ∧
    ∀ (relay : lib.Keypair) (R : PubKey) (a b : BindingClaim) (sig : Bytes),
      lib.tryIntoEd25519 relay = .ok R → lib.sign relay a.canonicalBytes = .ok sig →
      SignedBinding.verify lib ⟨b, sig, R⟩ = .ok () → a.Agree b := by
  refine ⟨fun a b h => BindingClaim.agree_of_canonicalBytes h, ?_⟩
  intro relay R a b sig hR hsig hverify
  have hv : lib.verify R b.canonicalBytes sig = true := verifyUnder_verified hverify
  have hcb : b.canonicalBytes = a.canonicalBytes :=
    Signatures.encoding_of_reused hideal hR hsig hv
  exact BindingClaim.agree_of_canonicalBytes hcb.symm

lemma recorded_signatureOfOneMessage (log : List (PubKey × Bytes)) :
    Signatures.SignatureOfOneMessage (fun k m s => (Libp2pIdentity.recorded log).sign k m = .ok s)
      (fun k pk => (Libp2pIdentity.recorded log).tryIntoEd25519 k = .ok pk)
      (Libp2pIdentity.recorded log).verify := by
  intro k pk m s m' hsign hkey hverify
  obtain rfl : k = pk := Except.ok.inj hkey
  obtain rfl := Except.ok.inj hsign
  exact (List.append_cancel_left (recorded_verify.mp hverify).2).symm

theorem binding_signature_covers_one_claim_recorded :
    let claim : BindingClaim := ⟨PubKey.replicate 0xab, "mastodon", "https://a.example/@x", none, 7⟩
    let lib := Libp2pIdentity.recorded [(PubKey.replicate 1, claim.canonicalBytes)]
    (∀ a b : BindingClaim, a.canonicalBytes = b.canonicalBytes → a.Agree b) ∧
    ∀ (relay R : PubKey) (a b : BindingClaim) (sig : Bytes),
      lib.tryIntoEd25519 relay = .ok R → lib.sign relay a.canonicalBytes = .ok sig →
      SignedBinding.verify lib ⟨b, sig, R⟩ = .ok () → a.Agree b :=
  binding_signature_covers_one_claim (.recorded _) (recorded_signatureOfOneMessage _)

/-- An absent and an empty handle share their canonical bytes, and so do claims that split the
same text differently at a `|`; the relay's signature on one then verifies on the other. -/
theorem binding_signature_covers_several_claims :
    let key := PubKey.replicate 0xab
    let relay := PubKey.replicate 1
    let absent : BindingClaim := ⟨key, "mastodon", "https://a.example/@x", none, 7⟩
    let empty : BindingClaim := ⟨key, "mastodon", "https://a.example/@x", some "", 7⟩
    let short : BindingClaim := ⟨key, "mastodon", "https://a.example/@x", some "y|@z", 7⟩
    let long : BindingClaim := ⟨key, "mastodon", "https://a.example/@x|y", some "@z", 7⟩
    let lib := Libp2pIdentity.recorded [(relay, short.canonicalBytes)]
    (absent.canonicalBytes = empty.canonicalBytes ∧ absent.handle ≠ empty.handle) ∧
    (short.canonicalBytes = long.canonicalBytes ∧ short.canonicalId ≠ long.canonicalId) ∧
    ∃ sig, lib.sign relay short.canonicalBytes = .ok sig ∧
      SignedBinding.verify lib ⟨long, sig, relay⟩ = .ok () := by
  intro key relay absent empty short long lib
  have hsplit : short.canonicalBytes = long.canonicalBytes :=
    BindingClaim.canonicalBytes_inj.mpr ⟨rfl, by decide, rfl⟩
  refine ⟨⟨BindingClaim.canonicalBytes_inj.mpr ⟨rfl, by decide, rfl⟩, by decide⟩,
    ⟨hsplit, by decide⟩, _, rfl, ?_⟩
  rw [SignedBinding.verify, verifyUnder_ok_iff, recorded_verify]
  exact ⟨rfl, by simp [hsplit], by simp [hsplit]⟩

end Laye
