import Mathlib.Logic.Function.Basic
import Laye.Me

/-!
# The binding table and the identity protocol

A peer publishes its bindings on `laye-identity/v1`; a receiver keeps, for each sender, the
bindings of the last message that claim the sender's key and verify.
-/

namespace Laye

/-- `std::collections::HashMap`, by its lookups. -/
abbrev HashMap (κ ν : Type) := κ → Option ν

namespace HashMap

variable {κ ν : Type}

def empty : HashMap κ ν := fun _ => none

@[simp] lemma empty_apply (k : κ) : (empty : HashMap κ ν) k = none := rfl

variable [DecidableEq κ]

def insert (m : HashMap κ ν) (k : κ) (v : ν) : HashMap κ ν := Function.update m k (some v)

def remove (m : HashMap κ ν) (k : κ) : HashMap κ ν := Function.update m k none

@[simp] lemma insert_self (m : HashMap κ ν) (k : κ) (v : ν) : m.insert k v k = some v := by
  simp [insert]

lemma insert_of_ne (m : HashMap κ ν) {k l : κ} (v : ν) (h : l ≠ k) : m.insert k v l = m l := by
  simp [insert, h]

@[simp] lemma remove_self (m : HashMap κ ν) (k : κ) : m.remove k k = none := by
  simp [remove]

lemma remove_of_ne (m : HashMap κ ν) {k l : κ} (h : l ≠ k) : m.remove k l = m l := by
  simp [remove, h]

end HashMap

abbrev BindingTable := HashMap PubKey (List SignedBinding)

/-- `find_map(|b| b.claim.handle.as_deref())` over the peer's bindings. -/
def BindingTable.resolveHandle (table : BindingTable) (peer : PubKey) : Option String :=
  (table peer).bind (fun bindings => bindings.findSome? (fun b => b.claim.handle))

def IDENTITY_TOPIC : String := "laye-identity/v1"

def encodeWire (serde : SerdeJson) (bindings : List SignedBinding) : Bytes :=
  serde.toVec (.array (bindings.map SignedBinding.toJson))

def bindingsOfJson (doc : Json) : Option (List SignedBinding) := do
  let items ← doc.asArray
  items.mapM SignedBinding.ofJson

/-- The bindings a receiver keeps from a message sent by `publisher`. -/
def parseAndVerify (lib : Libp2pIdentity) (serde : SerdeJson) (bytes : Bytes) (publisher : PubKey) :
    List SignedBinding :=
  match serde.read bindingsOfJson bytes with
  | .error _ => []
  | .ok list => list.filter (fun b =>
      decide (b.claim.peerPubkey = publisher) && (b.verify lib).isOk)

def absorb (table : BindingTable) (peer : PubKey) (bindings : List SignedBinding) : BindingTable :=
  if bindings.isEmpty then table.remove peer else table.insert peer bindings

/-! ### What a table entry is -/

/-- The bindings of a message before any of them is checked. -/
def wireBindings (serde : SerdeJson) (bytes : Bytes) : List SignedBinding :=
  (serde.read bindingsOfJson bytes).toOption.getD []

lemma verify_isOk_iff {r : Except VerifyError Unit} : r.isOk = true ↔ r = .ok () := by
  cases r <;> simp [Except.isOk, Except.toBool]

lemma mem_parseAndVerify {lib : Libp2pIdentity} {serde : SerdeJson} {bytes : Bytes}
    {publisher : PubKey} {b : SignedBinding} :
    b ∈ parseAndVerify lib serde bytes publisher ↔
      b ∈ wireBindings serde bytes ∧ b.claim.peerPubkey = publisher ∧ b.verify lib = .ok () := by
  unfold parseAndVerify wireBindings
  cases serde.read bindingsOfJson bytes with
  | error e => simp [Except.toOption]
  | ok list => simp [Except.toOption, verify_isOk_iff]

/-- A message with one binding is kept when the binding's signer has signed it, whoever that is. -/
lemma parseAndVerify_recorded {log : List (PubKey × Bytes)} {signer : PubKey} {claim : BindingClaim}
    {texts : List (Bytes × Json)} {text : Bytes} {b : SignedBinding}
    (hlog : (signer, claim.canonicalBytes) ∈ log)
    (hb : b = ⟨claim, signer.bytes ++ claim.canonicalBytes, signer⟩)
    (htext : texts.lookup text = some (.array [b.toJson])) :
    parseAndVerify (.recorded log) (.ofTexts texts) text claim.peerPubkey = [b] := by
  have hread : (SerdeJson.ofTexts texts).read bindingsOfJson text = .ok [b] :=
    SerdeJson.read_ofTexts htext (by simp [bindingsOfJson, Json.asArray])
  have hverify : b.verify (.recorded log) = .ok () := by
    rw [SignedBinding.verify, verifyUnder_ok_iff, recorded_verify, hb]
    exact ⟨rfl, hlog, rfl⟩
  have hpeer : b.claim.peerPubkey = claim.peerPubkey := by rw [hb]
  simp [parseAndVerify, hread, hverify, hpeer, Except.isOk, Except.toBool]

lemma absorb_self (table : BindingTable) (peer : PubKey) (bindings : List SignedBinding) :
    absorb table peer bindings peer = if bindings.isEmpty then none else some bindings := by
  unfold absorb
  split <;> simp

lemma absorb_of_ne (table : BindingTable) {peer other : PubKey} (bindings : List SignedBinding)
    (h : other ≠ peer) : absorb table peer bindings other = table other := by
  unfold absorb
  split
  · exact table.remove_of_ne h
  · exact table.insert_of_ne _ h

end Laye
