import Laye.Binding
import Laye.JsonText

/-!
# The identity wire

A peer's bindings go out as one JSON array and come in filtered by its key and their signatures.
-/

namespace Laye

lemma BindingClaim.plainWithin_toJson (claim : BindingClaim) : claim.toJson.PlainWithin 1 := by
  refine .object _ (fun m hm => ?_)
  simp only [List.mem_cons, List.not_mem_nil, or_false] at hm
  rcases hm with rfl | rfl | rfl | rfl | rfl
  · exact .string _ _
  · exact .string _ _
  · exact .string _ _
  · cases claim.handle with
    | none => exact .null _
    | some handle => exact .string _ handle
  · exact .number _ _ ⟨_, rfl⟩

lemma SignedBinding.plainWithin_toJson (b : SignedBinding) : b.toJson.PlainWithin 2 := by
  refine .object _ (fun m hm => ?_)
  simp only [List.mem_cons, List.not_mem_nil, or_false] at hm
  rcases hm with rfl | rfl | rfl
  · exact b.claim.plainWithin_toJson
  · exact .string _ _
  · exact .string _ _

lemma bindingsOfJson_toJson (bindings : List SignedBinding) :
    bindingsOfJson (.array (bindings.map SignedBinding.toJson)) = some bindings := by
  simp only [bindingsOfJson, Json.asArray, Option.bind_eq_bind, Option.bind_some]
  induction bindings with
  | nil => rfl
  | cons b bindings ih => simp [ih]

lemma read_encodeWire {serde : SerdeJson} (htrip : serde.RoundTripsWithin 3)
    (bindings : List SignedBinding) :
    serde.read bindingsOfJson (encodeWire serde bindings) = .ok bindings := by
  have hplain : (Json.array (bindings.map SignedBinding.toJson)).PlainWithin 3 := by
    refine .array _ (fun doc hdoc => ?_)
    obtain ⟨b, _, rfl⟩ := List.mem_map.mp hdoc
    exact b.plainWithin_toJson
  simp only [SerdeJson.read, encodeWire, htrip _ hplain, bindingsOfJson_toJson]

/-- A receiver has exactly the bindings that are about the publisher and verify. -/
theorem parseAndVerify_encodeWire (lib : Libp2pIdentity) (serde : SerdeJson)
    (htrip : serde.RoundTripsWithin 3) (bindings : List SignedBinding) (publisher : PubKey) :
    parseAndVerify lib serde (encodeWire serde bindings) publisher =
      bindings.filter (fun b => b.claim.peerPubkey = publisher ∧ (b.verify lib).isOk = true) := by
  rw [parseAndVerify, read_encodeWire htrip]
  simp only [Bool.decide_and, Bool.decide_eq_true]

/-- Of three bindings one is about another peer and one has no signature. -/
theorem parseAndVerify_encodeWire_three :
    let peer := PubKey.replicate 0x21
    let relay := PubKey.replicate 0x07
    let claim : BindingClaim := ⟨peer, "mastodon", "https://chaos.social/@onf", some "@onf", 0⟩
    let sign (c : BindingClaim) : SignedBinding := ⟨c, relay.bytes ++ c.canonicalBytes, relay⟩
    let other := sign { claim with peerPubkey := relay }
    let lib := Libp2pIdentity.recorded [(relay, claim.canonicalBytes),
      (relay, other.claim.canonicalBytes)]
    parseAndVerify lib .compact (encodeWire .compact [other, sign claim, ⟨claim, [], relay⟩]) peer =
      [sign claim] := by
  intro peer relay claim sign other lib
  have hother : other.claim.peerPubkey ≠ peer := by decide
  have hsigned : (sign claim).verify lib = .ok () := by
    rw [SignedBinding.verify, verifyUnder_ok_iff, recorded_verify]
    exact ⟨rfl, List.mem_cons_self, rfl⟩
  have hunsigned : SignedBinding.verify lib ⟨claim, [], relay⟩ ≠ .ok () := by
    rw [SignedBinding.verify, Ne, verifyUnder_ok_iff, recorded_verify]
    rintro ⟨_, _, hempty⟩
    exact absurd (congrArg List.length hempty) (by simp [relay, PubKey.replicate])
  rw [parseAndVerify_encodeWire lib .compact (SerdeJson.roundTrips_compact 3)]
  simp [List.filter_cons, verify_isOk_iff, hother, hsigned, hunsigned]
  rfl

end Laye
