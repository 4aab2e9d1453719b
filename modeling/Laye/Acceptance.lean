import Laye.IdentityWire
import Laye.Issuance
import Laye.Login
import Laye.SignEndpoint

/-!
# From the relay to the client

The answers of `handle_sign` and `handle_result` are written by two serialisers and read by a third
decoder, in another crate, out of an envelope that is put around their text.
-/

namespace Laye

open Interaction

/-- What `sign` signs under a key, `verify` verifies under its public half. -/
def Libp2pIdentity.SignVerify (lib : Libp2pIdentity) : Prop :=
  ∀ (keypair : lib.Keypair) (key : PubKey) (msg sig : Bytes), lib.tryIntoEd25519 keypair = .ok key →
    lib.sign keypair msg = .ok sig → lib.tryFromBytes key = .ok () ∧ lib.verify key msg sig = true

/-- `hex::encode` writes lower-case digits. -/
def HexCrate.LowerCase (hex : HexCrate) : Prop := hex.encode = hexLower

/-! ### The envelope -/

/-- The `envelope` of `poll_atproto_result`. -/
def envelope (text : String) : String :=
  "\x7b\"type\":\"laye/identity/link\",\"signed\":" ++ text ++ "\x7d"

/-- The members of a link message about `doc`; the broker page adds one that is not read. -/
structure LinkEnvelope (members : List (String × Json)) (doc : Json) : Prop where
  type_ : members.filter (fun m => m.1 == "type") = [("type", .string "laye/identity/link")]
  signed : members.filter (fun m => m.1 == "signed") = [("signed", doc)]

/-- The text is a link message about the document of an answer. -/
def Wraps (serde : SerdeJson) (out : Bytes) (json : String) : Prop :=
  ∃ doc members, serde.fromSlice out = .ok doc ∧
    serde.fromSlice (intoBytes json) = .ok (.object members) ∧ LinkEnvelope members doc

/-- The client with the claimed key takes the binding from the message, every other refuses it. -/
structure TakenBy {lib : Libp2pIdentity} (client : Deps lib) (b : SignedBinding) (json : String) :
    Prop where
  own : ∀ st : AppState lib, st.selfPubkey = some b.claim.peerPubkey →
    (AppState.handleLoginMessage client st json).1 = none ∧
      AppState.LoginPlaced st (AppState.handleLoginMessage client st json).2 b.claim.peerPubkey b
  other : ∀ st : AppState lib, st.selfPubkey ≠ some b.claim.peerPubkey →
    (AppState.handleLoginMessage client st json).1.isSome ∧
      AppState.LoginUntouched st (AppState.handleLoginMessage client st json).2

/-- The answer is read as `b`, which verifies and is taken from any envelope around it. -/
structure Redeemable {lib : Libp2pIdentity} (client : Deps lib) (b : SignedBinding) (out : Bytes) :
    Prop where
  reads : client.serde.read SignedBinding.ofJson out = .ok b
  verifies : b.verify lib = .ok ()
  taken : ∀ json, Wraps client.serde out json → TakenBy client b json
  polled : ∀ text, intoBytes text = out → Wraps client.serde out (envelope text)

lemma SignedBinding.plain_toJson (b : SignedBinding) : b.toJson.PlainWithin 3 :=
  b.plainWithin_toJson.deeper (by decide)

lemma ofJson_envelope {members : List (String × Json)} {b : SignedBinding}
    (h : LinkEnvelope members b.toJson) : AppState.BrokerMessageWire.ofJson (.object members) =
      some ⟨"laye/identity/link", some b⟩ := by
  have hread := SignedBinding.ofJson_toJson b
  simp only [SignedBinding.toJson] at hread h
  simp [AppState.BrokerMessageWire.ofJson, Json.structFields, Json.stringField, h.type_, h.signed,
    hread]

lemma toVec_link {serde : SerdeJson} (hcompact : serde.Compact) (doc : Json) :
    serde.toVec (.object [("type", .string "laye/identity/link"), ("signed", doc)]) =
      intoBytes "\x7b\"type\":\"laye/identity/link\",\"signed\":" ++ serde.toVec doc ++ intoBytes "\x7d" := by
  have htype := hcompact.string "type" (by decide)
  have hlink := hcompact.string "laye/identity/link" (by decide)
  have hsigned := hcompact.string "signed" (by decide)
  have hopen : intoBytes "\x7b\"type\":\"laye/identity/link\",\"signed\":" =
      123 :: (34 :: intoBytes "type" ++ [34] ++ 58 :: (34 :: intoBytes "laye/identity/link" ++ [34]) ++
        44 :: (34 :: intoBytes "signed" ++ [34]) ++ [58]) := by decide
  have hclose : intoBytes "\x7d" = [125] := by decide
  rw [hcompact.object, hopen, hclose]
  simp [htype, hlink, hsigned]

lemma wraps_envelope {serde : SerdeJson} (htrip : serde.RoundTripsWithin 3) (hcompact : serde.Compact)
    (b : SignedBinding) {text : String} (htext : intoBytes text = serde.toVec b.toJson) :
    Wraps serde (serde.toVec b.toJson) (envelope text) := by
  have hplain : (Json.object [("type", .string "laye/identity/link"),
      ("signed", b.toJson)]).PlainWithin 3 := by
    refine .object _ (fun m hm => ?_)
    simp only [List.mem_cons, List.not_mem_nil, or_false] at hm
    rcases hm with rfl | rfl
    · exact .string _ _
    · exact b.plainWithin_toJson
  refine ⟨b.toJson, [("type", .string "laye/identity/link"), ("signed", b.toJson)],
    htrip _ b.plain_toJson, ?_, ⟨by simp, by simp⟩⟩
  have hbytes : intoBytes (envelope text) =
      serde.toVec (.object [("type", .string "laye/identity/link"), ("signed", b.toJson)]) := by
    rw [toVec_link hcompact, ← htext, ← intoBytes_append, ← intoBytes_append]
    rfl
  rw [hbytes]
  exact htrip _ hplain

lemma takenBy_of_wraps {lib : Libp2pIdentity} {client : Deps lib} (htrip : client.serde.RoundTripsWithin 3)
    {b : SignedBinding} (hverifies : b.verify lib = .ok ()) {json : String}
    (h : Wraps client.serde (client.serde.toVec b.toJson) json) : TakenBy client b json := by
  obtain ⟨doc, members, hdoc, hread, henvelope⟩ := h
  obtain rfl : b.toJson = doc := Except.ok.inj ((htrip _ b.plain_toJson).symm.trans hdoc)
  have hcarried : AppState.readMessage client json = .ok ⟨"laye/identity/link", some b⟩ := by
    simp [AppState.readMessage, SerdeJson.read, hread, ofJson_envelope henvelope]
  constructor
  · intro st hself
    exact AppState.handleLoginMessage_of_linked client ⟨hcarried, hverifies, hself, rfl⟩
  · intro st hself
    rcases AppState.checkLogin_cases client st json with
      ⟨e, hcheck, -⟩ | ⟨-, msg, hmsg, htype⟩ | ⟨own, b', -, hlinked⟩
    · exact AppState.handleLoginMessage_of_error client hcheck
    · rw [hcarried] at hmsg
      cases hmsg
      exact absurd rfl htype
    · have hmsg := hlinked.carried
      rw [hcarried] at hmsg
      cases hmsg
      exact absurd (hlinked.claims ▸ hlinked.known) hself

/-- What the relay has signed and written is redeemable. -/
lemma redeemable_of_signed {lib : Libp2pIdentity} {client : Deps lib}
    (htrip : client.serde.RoundTripsWithin 3) (hcompact : client.serde.Compact) (hkeys : lib.SignVerify)
    {keypair : lib.Keypair} {b : SignedBinding}
    (hsign : lib.sign keypair b.claim.canonicalBytes = .ok b.signature)
    (hsigner : lib.tryIntoEd25519 keypair = .ok b.signerPubkey) :
    Redeemable client b (client.serde.toVec b.toJson) := by
  have hverifies : b.verify lib = .ok () :=
    (verifyUnder_ok_iff lib _ _ _).mpr (hkeys _ _ _ _ hsigner hsign)
  exact ⟨htrip.read b.plain_toJson (SignedBinding.ofJson_toJson b), hverifies,
    fun json h => takenBy_of_wraps htrip hverifies h, fun text htext => wraps_envelope htrip hcompact b htext⟩

/-! ### Mastodon -/

section Sign

variable {d : RelayDeps} {body out : Bytes} {tr : List RelayEvent}

/-- Signatures in the run are those of the relay's key. -/
def SignsByKey (d : RelayDeps) (tr : List RelayEvent) : Prop :=
  ∀ claim x, ⟨.sign claim, x⟩ ∈ tr → x = d.lib.sign d.keypair claim.canonicalBytes

/-- The two serialisers agree. -/
lemma signResponse_eq_toJson {hex : HexCrate} (hlower : hex.LowerCase) (b : SignedBinding) :
    signResponse hex b.claim b.signature b.signerPubkey = b.toJson := by
  rw [signResponse, hlower]
  rfl

/-- What `handle_sign` has signed when it answers. -/
lemma signed_of_returns_handleSign (h : Returns (handleSign d body) tr out)
    (hkey : SignsByKey d tr) : ∃ (req : SignRequest) (now : Option UInt64) (b : SignedBinding),
      d.serde.read SignRequest.ofJson body = .ok req ∧
      SignEndpoint.decodePeerPubkey d.hex req.peerPubkeyHex = .ok b.claim.peerPubkey ∧
      b.claim = req.claim b.claim.peerPubkey now ∧ ⟨.sign b.claim, .ok b.signature⟩ ∈ tr ∧
      d.lib.sign d.keypair b.claim.canonicalBytes = .ok b.signature ∧
      d.lib.tryIntoEd25519 d.keypair = .ok b.signerPubkey ∧
      out = d.serde.toVec (signResponse d.hex b.claim b.signature b.signerPubkey) := by
  obtain ⟨resp, req, peer, actor, now, signature, signer, hacc, hsigner, rfl, rfl⟩ :=
    returns_handleSign_iff.mp h
  have hmem : (⟨.sign (req.claim peer now), .ok signature⟩ : RelayEvent) ∈
      [⟨.buildClient, .ok ()⟩, ⟨.send req.verifyCredentials, .ok resp⟩, ⟨.unixTime, now⟩,
        ⟨.sign (req.claim peer now), .ok signature⟩] := by simp
  exact ⟨req, now, ⟨req.claim peer now, signature, signer⟩, hacc.read, hacc.peer, rfl, hmem,
    (hkey _ _ hmem).symm, hsigner, rfl⟩

end Sign

/-! ### Where a cached result comes from -/

/-- Every cached result was put there under its state. -/
def ResultsStand (P : RelayPool) : Prop :=
  ∀ state r, P.shared.cache.results state = some r →
    ∃ (n : Nat) (entry : RelayEntry), P.log[n]? = some entry ∧
      entry.event = ⟨.insertResult state r.signed, ()⟩

lemma FlowCacheInner.gc_results {now : Instant} {inner : FlowCacheInner} {state : String}
    {r : ResultState} (h : (inner.gc now).results state = some r) : inner.results state = some r :=
  (HashMap.retain_eq_some.mp h).1

/-- A result that is in the cache after an operation was just put there, or was there before. -/
lemma RelayState.Serves.results {d : RelayDeps} {s s' : RelayState} {o : RelayOp} {x : o.Ans}
    (h : s.Serves d o x s') {state : String} {r : ResultState}
    (hr : s'.cache.results state = some r) :
    (⟨o, x⟩ : RelayEvent) = ⟨.insertResult state r.signed, ()⟩ ∨ s.cache.results state = some r := by
  cases o with
  | insertResult state' signed =>
    obtain ⟨createdAt, -, rfl⟩ := h
    by_cases hsame : state = state'
    · subst hsame
      have hinserted := HashMap.insert_self (s.cache.gc s.now).results state ⟨signed, createdAt⟩
      obtain rfl : (⟨signed, createdAt⟩ : ResultState) = r :=
        Option.some.inj (hinserted.symm.trans hr)
      exact Or.inl rfl
    · have hother := HashMap.insert_of_ne (s.cache.gc s.now).results ⟨signed, createdAt⟩ hsame
      exact Or.inr (FlowCacheInner.gc_results (hother.symm.trans hr))
  | insertFlow state' flow =>
    cases h
    exact Or.inr (FlowCacheInner.gc_results hr)
  | takeFlow state' =>
    obtain ⟨-, rfl⟩ := h
    exact Or.inr (FlowCacheInner.gc_results hr)
  | getResult state' =>
    obtain ⟨-, rfl⟩ := h
    exact Or.inr (FlowCacheInner.gc_results hr)
  | instantNow =>
    obtain ⟨-, rfl⟩ := h
    exact Or.inr hr
  | sign claim =>
    obtain ⟨-, rfl⟩ := h
    exact Or.inr hr
  | _ =>
    cases h
    exact Or.inr hr

lemma ResultsStand.step {d : RelayDeps} {P Q : RelayPool} (hP : ResultsStand P)
    (h : Step (relaySystem d) P Q) : ResultsStand Q := by
  cases h with
  | arrive job => exact hP
  | tick s' htick =>
    intro state r hr
    exact hP state r (htick.2 ▸ hr)
  | turn i job o next x s' hi hserve =>
    intro state r hr
    rcases RelayState.Serves.results hserve hr with hins | hold
    · exact ⟨P.log.length, ⟨i, P.shared, ⟨o, x⟩⟩, List.getElem?_concat_length, hins⟩
    · obtain ⟨n, entry, hn, hentry⟩ := hP state r hold
      refine ⟨n, entry, ?_, hentry⟩
      rw [Pool.served, List.getElem?_append_left (List.getElem?_eq_some_iff.mp hn).1]
      exact hn

lemma ResultsStand.run {d : RelayDeps} {now : Instant} {P : RelayPool}
    (h : Run (relaySystem d) (.start ⟨now, .new⟩) P) : ResultsStand P := by
  induction h with
  | refl =>
    intro state r hr
    cases hr
  | tail _ hstep ih => exact ih.step hstep

/-! ### Only a callback puts results in the cache -/

def RelayOp.StoresNoResult : RelayOp → Prop
  | .insertResult _ _ => False
  | _ => True

lemma RelayOp.External.storesNoResult {o : RelayOp} (h : o.External) : o.StoresNoResult := by
  cases o <;> trivial

section

variable {d : RelayDeps}

lemma storesNoResult_handleStart {body : Bytes} :
    AsksOnly RelayOp.StoresNoResult (handleStart d body) := by
  have hout : ∀ {α : Type} {p : Relay FlowError α}, Outward p → AsksOnly RelayOp.StoresNoResult p :=
    fun hp => hp.mono (fun _ => RelayOp.External.storesNoResult)
  refine AsksOnly.bind (hout outward_orElse) (fun req => AsksOnly.bind (AsksOnly.ofExcept _)
    (fun peer => AsksOnly.bind (hout outward_orElse) (fun handle => AsksOnly.bind
      (hout outward_resolveAccount.mapError) (fun account => AsksOnly.bind (hout outward_randomKey)
        (fun key => AsksOnly.bind (hout outward_randomB64) (fun verifier => AsksOnly.bind ?_
          (fun state => AsksOnly.bind (hout outward_pushRequest) (fun pushed => AsksOnly.bind
            (hout outward_instantNow) (fun createdAt => AsksOnly.bind
              (.op trivial (fun _ => .done _)) (fun _ => .done _))))))))))
  cases req.mainState with
  | none => exact hout outward_randomB64
  | some state => exact .done state

lemma storesNoResult_handleResult {query : HashMap String String} :
    AsksOnly RelayOp.StoresNoResult (handleResult d query) :=
  AsksOnly.bind (AsksOnly.ofExcept _) (fun _ => AsksOnly.bind (.op trivial (fun _ => .done _))
    (fun _ => AsksOnly.bind (AsksOnly.ofExcept _) (fun _ => .done _)))

lemma callback_of_asks_insertResult {job : Job} {tr : List RelayEvent} {state : String}
    {b : SignedBinding} (h : Asks (job.program d) tr (.insertResult state b)) :
    ∃ query, job = .callback query ∧ Asks (handleCallback d query) tr (.insertResult state b) := by
  cases job with
  | callback query =>
    refine ⟨query, rfl, ?_⟩
    simpa [Job.program, asks_bind_iff] using h
  | start body =>
    have hstores : AsksOnly RelayOp.StoresNoResult (Job.program d (.start body)) :=
      AsksOnly.bind storesNoResult_handleStart (fun _ => .done _)
    exact absurd (hstores.asks h) id
  | result query =>
    have hstores : AsksOnly RelayOp.StoresNoResult (Job.program d (.result query)) :=
      AsksOnly.bind storesNoResult_handleResult (fun _ => .done _)
    exact absurd (hstores.asks h) id

/-- A callback keeps a result for the flow it took, signed with the relay's key. -/
structure Concluded (d : RelayDeps) (query : HashMap String String) (tr : List RelayEvent)
    (state : String) (flow : FlowState) (b : SignedBinding) : Prop where
  asked : query "state" = some state
  taken : ⟨.takeFlow state, some flow⟩ ∈ tr
  peer : Atproto.decodePeerPubkey d.hex flow.peerPubkeyHex = .ok b.claim.peerPubkey
  signed : ⟨.sign b.claim, .ok b.signature⟩ ∈ tr
  signer : d.lib.tryIntoEd25519 d.keypair = .ok b.signerPubkey

lemma asks_insertResult_signFlow {state state' : String} {flow : FlowState} {tr : List RelayEvent}
    {b : SignedBinding} (h : Asks (signFlow d state flow) tr (.insertResult state' b)) :
    state' = state ∧ Atproto.decodePeerPubkey d.hex flow.peerPubkeyHex = .ok b.claim.peerPubkey ∧
      ⟨.sign b.claim, .ok b.signature⟩ ∈ tr ∧
      d.lib.tryIntoEd25519 d.keypair = .ok b.signerPubkey := by
  obtain ⟨next, h⟩ := h
  unfold signFlow at h
  obtain ⟨_, _, peer, rfl, hpeer, h₁⟩ := Outward.after_bind (AsksOnly.ofExcept _) id h
  obtain ⟨_, _, issuedAt, rfl, _, h₂⟩ := Outward.after_bind outward_nowUnixSecs id h₁
  simp only [Relay.sign, Program.op_bind, Program.done_bind, after_op_iff] at h₂
  rcases h₂ with ⟨_, hop⟩ | ⟨answer, tr', rfl, h₂⟩
  · cases hop
  · obtain ⟨_, _, signature, rfl, hsignature, h₃⟩ := Outward.after_bind outward_orElse id h₂
    obtain ⟨_, _, signer, rfl, hsigner, h₄⟩ := Outward.after_bind outward_orElse id h₃
    simp only [Relay.insertResult, after_op_iff] at h₄
    rcases h₄ with ⟨_, hop⟩ | ⟨_, _, _, hlast⟩
    · cases hop
      obtain ⟨rfl, rfl⟩ := Relay.returns_orElse_iff.mp hsignature
      exact ⟨rfl, (returns_ofExcept_iff.mp hpeer).2, by simp,
        (Relay.returns_orElse_iff.mp hsigner).2⟩
    · simp at hlast

lemma concluded_of_asks_insertResult {query : HashMap String String} {tr : List RelayEvent}
    {state : String} {b : SignedBinding}
    (h : Asks (handleCallback d query) tr (.insertResult state b)) :
    ∃ flow, Concluded d query tr state flow b := by
  obtain ⟨next, h⟩ := h
  unfold handleCallback at h
  obtain ⟨_, _, code, rfl, _, h₁⟩ := Outward.after_bind outward_okOr id h
  obtain ⟨_, _, asked, rfl, hasked, h₂⟩ := Outward.after_bind outward_okOr id h₁
  simp only [Relay.takeFlow, Program.op_bind, after_op_iff] at h₂
  rcases h₂ with ⟨_, hop⟩ | ⟨taken, tr', rfl, h₂⟩
  · cases hop
  · obtain ⟨_, _, flow, rfl, hflow, h₃⟩ := Outward.after_bind outward_okOr id h₂
    obtain ⟨tr₁, tr₂, sub, rfl, _, h₄⟩ := Outward.after_bind outward_redeemCode id h₃
    obtain ⟨rfl, rfl⟩ := Relay.returns_okOr_iff.mp hflow
    split at h₄
    · rcases asks_bind_iff.mp ⟨next, h₄⟩ with hinsert | ⟨_, _, _, _, _, hlast⟩
      · obtain ⟨rfl, hpeer, hsigned, hsigner⟩ := asks_insertResult_signFlow hinsert
        exact ⟨flow, (Relay.returns_okOr_iff.mp hasked).2, by simp, hpeer, by simp [hsigned], hsigner⟩
      · simp at hlast
    · simp at h₄

lemma returns_handleResult {query : HashMap String String} {tr : List RelayEvent} {out : Bytes}
    (h : Returns (handleResult d query) tr out) : ∃ state b, query "state" = some state ∧
      ⟨.getResult state, some b⟩ ∈ tr ∧ out = d.serde.toVec b.toJson := by
  unfold handleResult Relay.getResult at h
  simp only [returns_bind_iff, Relay.returns_okOr_iff, Program.op_bind, Program.done_bind,
    returns_op_iff, Program.pure_eq, returns_done_iff] at h
  obtain ⟨_, _, state, rfl, ⟨rfl, hstate⟩, answer, tr', rfl, _, _, b, rfl, ⟨rfl, rfl⟩, rfl, rfl⟩ := h
  exact ⟨state, b, hstate, by simp, rfl⟩

/-! ### What a run hands out -/

variable {now : Instant} {P : RelayPool}

/-- A start asked, for the key `peer`, for the flow of a state. -/
def RequestedFor (d : RelayDeps) (P : RelayPool) (state : String) (peer : PubKey) : Prop :=
  ∃ (n : Nat) (entry : RelayEntry) (body : Bytes) (flow : FlowState), P.log[n]? = some entry ∧
    P.job entry.thread = some (.start body) ∧
    Started d body (eventsOf entry.thread (P.log.take n)) state flow peer

/-- A callback under the state has signed the binding with the relay's key. -/
structure SignedInRun (d : RelayDeps) (P : RelayPool) (state : String) (b : SignedBinding) :
    Prop where
  signing : ∃ (k : Nat) (entry : RelayEntry) (query : HashMap String String),
    P.log[k]? = some entry ∧ P.job entry.thread = some (.callback query) ∧
      query "state" = some state ∧ entry.event = ⟨.sign b.claim, .ok b.signature⟩
  requested : RequestedFor d P state b.claim.peerPubkey
  byKey : d.lib.sign d.keypair b.claim.canonicalBytes = .ok b.signature
  signer : d.lib.tryIntoEd25519 d.keypair = .ok b.signerPubkey

/-- The flow of a finished callback was requested for the key its binding claims. -/
lemma requestedFor_of_concluded (hhex : d.hex.RoundTrips)
    (hrun : Run (relaySystem d) (.start ⟨now, .new⟩) P) {i : Nat} {tr : List RelayEvent}
    {query : HashMap String String} {state : String} {flow : FlowState} {b : SignedBinding}
    (h : Concluded d query tr state flow b) (htr : ∀ e ∈ tr, e ∈ eventsOf i P.log) :
    RequestedFor d P state b.claim.peerPubkey := by
  obtain ⟨n, entry, body, peer, hn, hstart, hstarted⟩ := started_of_taking hrun (htr _ h.taken)
  have hpeer : peer = b.claim.peerPubkey := by
    have hdecode := h.peer
    rw [hstarted.peerHex, Atproto.decodePeerPubkey, decodePubkey_encode hhex] at hdecode
    exact Except.ok.inj hdecode
  exact ⟨n, entry, body, flow, hn, hstart, hpeer ▸ hstarted⟩

lemma signedInRun_of_insertResult (hhex : d.hex.RoundTrips)
    (hrun : Run (relaySystem d) (.start ⟨now, .new⟩) P) {n : Nat} {entry : RelayEntry}
    {state : String} {b : SignedBinding} (hn : P.log[n]? = some entry)
    (hins : entry.event = ⟨.insertResult state b, ()⟩) : SignedInRun d P state b := by
  obtain ⟨job, hjob, hasks⟩ := hrun.asks hn
  rw [hins] at hasks
  obtain ⟨query, rfl, hcallback⟩ := callback_of_asks_insertResult hasks
  obtain ⟨flow, hconcluded⟩ := concluded_of_asks_insertResult hcallback
  have hevents : ∀ e ∈ eventsOf entry.thread (P.log.take n), e ∈ eventsOf entry.thread P.log := by
    intro e he
    obtain ⟨m, other, hm, hthread, hevent⟩ := mem_eventsOf.mp he
    exact mem_eventsOf.mpr ⟨m, other, (getElem?_of_take hm).2, hthread, hevent⟩
  obtain ⟨k, signing, hk, hthread, hsign⟩ := mem_eventsOf.mp (hevents _ hconcluded.signed)
  obtain ⟨thread, before, event⟩ := signing
  cases hsign
  obtain ⟨_, _, _, _, _, _, _, _, ⟨hanswer, _⟩, _⟩ := hrun.entry hk
  refine ⟨⟨k, _, query, hk, ?_, hconcluded.asked, rfl⟩,
    requestedFor_of_concluded hhex hrun hconcluded hevents, hanswer.symm, hconcluded.signer⟩
  exact (congrArg P.job hthread).trans hjob

/-- What a finished result request answers was signed in the run under its state. -/
lemma signedInRun_of_result (hhex : d.hex.RoundTrips)
    (hrun : Run (relaySystem d) (.start ⟨now, .new⟩) P) {i : Nat} {query : HashMap String String}
    {out : Bytes} (hi : P.threads[i]? = some (.result query, .done (.json out))) :
    ∃ state b, query "state" = some state ∧ SignedInRun d P state b ∧
      out = d.serde.toVec b.toJson := by
  have hreturns : Returns (Job.program d (.result query)) (eventsOf i P.log) (.json out) :=
    hrun.returns hi
  simp only [Job.program, returns_bind_iff, Program.pure_eq, returns_done_iff] at hreturns
  obtain ⟨tr, _, out', hevents, hresult, rfl, hreply⟩ := hreturns
  cases hreply
  obtain ⟨state, b, hstate, hget, hout⟩ := returns_handleResult hresult
  rw [List.append_nil] at hevents
  rw [← hevents] at hget
  obtain ⟨m, getting, hm, -, hgetting⟩ := mem_eventsOf.mp hget
  obtain ⟨thread, before, event⟩ := getting
  cases hgetting
  obtain ⟨Q, _, _, _, hQ, hQlog, hshared, _, ⟨hanswer, _⟩, _⟩ := hrun.entry hm
  obtain ⟨r, hr, rfl⟩ := Option.map_eq_some_iff.mp hanswer.symm
  obtain ⟨n, entry, hn, hins⟩ := ResultsStand.run hQ state r
    (hshared ▸ FlowCacheInner.gc_results hr)
  rw [hQlog] at hn
  exact ⟨state, r.signed, hstate,
    signedInRun_of_insertResult hhex hrun (getElem?_of_take hn).2 hins, hout⟩

/-- What the relay issues, the client accepts: whenever `handle_sign` or, in any run, `handle_result`
answers, the answer holds the binding that was signed, which every client with the requested key
takes and no other. -/
theorem relay_answers_accepted {client : Deps d.lib} (hserde : client.serde = d.serde)
    (htrip : d.serde.RoundTripsWithin 3) (hcompact : d.serde.Compact) (hhex : d.hex.RoundTrips)
    (hlower : d.hex.LowerCase) (hkeys : d.lib.SignVerify) :
    (∀ body tr out, Returns (handleSign d body) tr out → SignsByKey d tr →
      ∃ (req : SignRequest) (now : Option UInt64) (b : SignedBinding),
        d.serde.read SignRequest.ofJson body = .ok req ∧
        SignEndpoint.decodePeerPubkey d.hex req.peerPubkeyHex = .ok b.claim.peerPubkey ∧
        b.claim = req.claim b.claim.peerPubkey now ∧ ⟨.sign b.claim, .ok b.signature⟩ ∈ tr ∧
        Redeemable client b out) ∧
    ∀ (now : Instant) (P : RelayPool) (i : Nat) (query : HashMap String String) (out : Bytes),
      Run (relaySystem d) (.start ⟨now, .new⟩) P →
      P.threads[i]? = some (.result query, .done (.json out)) →
      ∃ state b, query "state" = some state ∧ SignedInRun d P state b ∧ Redeemable client b out := by
  have hredeem : ∀ b : SignedBinding, d.lib.sign d.keypair b.claim.canonicalBytes = .ok b.signature →
      d.lib.tryIntoEd25519 d.keypair = .ok b.signerPubkey →
      Redeemable client b (d.serde.toVec b.toJson) := by
    intro b hsign hsigner
    rw [← hserde] at htrip hcompact ⊢
    exact redeemable_of_signed htrip hcompact hkeys hsign hsigner
  constructor
  · intro body tr out hreturns hkey
    obtain ⟨req, now, b, hread, hpeer, hclaim, hsigned, hsign, hsigner, rfl⟩ :=
      signed_of_returns_handleSign hreturns hkey
    refine ⟨req, now, b, hread, hpeer, hclaim, hsigned, ?_⟩
    rw [signResponse_eq_toJson hlower]
    exact hredeem b hsign hsigner
  · intro now P i query out hrun hi
    obtain ⟨state, b, hstate, hsigned, rfl⟩ := signedInRun_of_result hhex hrun hi
    exact ⟨state, b, hstate, hsigned, hredeem b hsigned.byKey hsigned.signer⟩

end

/-- A scheme that runs: a signature shows its key and message in the clear. -/
def Libp2pIdentity.clear : Libp2pIdentity where
  Keypair := PubKey
  sign key msg := .ok (key.bytes ++ msg)
  tryIntoEd25519 key := .ok key
  tryFromBytes _ := .ok ()
  verify key msg sig := sig == key.bytes ++ msg

lemma signVerify_clear : Libp2pIdentity.clear.SignVerify := by
  intro keypair key msg sig hkey hsign
  obtain rfl : keypair = key := Except.ok.inj hkey
  obtain rfl : keypair.bytes ++ msg = sig := Except.ok.inj hsign
  exact ⟨rfl, beq_self_eq_true _⟩

/-! ### Alice on both ways -/

namespace AcceptanceExample

def deps : RelayDeps :=
  { AtprotoExample.deps with lib := .clear, keypair := PubKey.replicate 1, serde := .compact }

def client : Deps deps.lib := .plain .compact (fun _ => none)

/-- Alice's start request. -/
def startBody : Bytes := SerdeJson.compact.toVec (.object [
  ("peer_pubkey_hex", .string (hexLower AtprotoExample.peer.bytes)),
  ("handle", .string "@Alice.example"), ("main_state", .string "tab")])

def respond (req : HttpRequest) : Except String HttpResponse :=
  if req.url = "https://as.example/par" then
    .ok ⟨201, some "nonce", .ok "\x7b\"request_uri\":\"urn:1\"\x7d", .error "", ""⟩
  else if req.url = "https://as.example/token" then
    .ok ⟨200, none, .ok "\x7b\"sub\":\"did:plc:alice\"\x7d", .error "", ""⟩
  else AtprotoExample.respond req

def answer (s : RelayState) : (o : RelayOp) → Option (o.Ans × RelayState)
  | .send req => some (respond req, s)
  | o => AtprotoExample.answer s o

lemma serves_of_answer (s : RelayState) (o : RelayOp) (x : o.Ans) (s' : RelayState)
    (h : answer s o = some (x, s')) : s.Serves deps o x s' := by
  cases o with
  | send req =>
    cases h
    rfl
  | _ =>
    have hserves := AtprotoExample.serves_of_answer s _ x s' h
    exact hserves

/-- Alice starts, comes back and fetches the result. -/
def pool : RelayPool :=
  (((Pool.start ⟨0, .new⟩ : RelayPool).serial (relaySystem deps) answer (.start startBody)).serial
    (relaySystem deps) answer (.callback AtprotoExample.query)).serial
    (relaySystem deps) answer (.result AtprotoExample.query)

lemma run : Run (relaySystem deps) (.start ⟨0, .new⟩) pool :=
  ((run_serial serves_of_answer _ _).trans (run_serial serves_of_answer _ _)).trans
    (run_serial serves_of_answer _ _)

def claim : BindingClaim :=
  ⟨AtprotoExample.peer, "atproto", "did:plc:alice", some "@alice.example", 0⟩

/-- The binding Alice gets. -/
def binding : SignedBinding :=
  ⟨claim, (PubKey.replicate 1).bytes ++ claim.canonicalBytes, PubKey.replicate 1⟩

set_option maxRecDepth 20000 in
lemma finished : pool.threads[2]? =
    some (.result AtprotoExample.query, .done (.json (deps.serde.toVec binding.toJson))) := rfl

/-- Alice's Mastodon account. -/
def request : SignRequest :=
  ⟨hexLower AtprotoExample.peer.bytes, "mastodon", "https://a.example/@alice", none, "token",
    "a.example"⟩

def requestJson : Json := .object [("peer_pubkey_hex", .string request.peerPubkeyHex),
  ("provider", .string request.provider), ("canonical_id", .string request.canonicalId),
  ("handle", .null), ("mastodon_token", .string request.mastodonToken),
  ("mastodon_instance", .string request.mastodonInstance)]

lemma plain_requestJson : requestJson.PlainWithin 1 := by
  refine .object _ (fun m hm => ?_)
  simp only [List.mem_cons, List.not_mem_nil, or_false] at hm
  rcases hm with rfl | rfl | rfl | rfl | rfl | rfl
  · exact .string _ _
  · exact .string _ _
  · exact .string _ _
  · exact .null _
  · exact .string _ _
  · exact .string _ _

def actor : HttpResponse :=
  ⟨200, none, .error "", .ok (.object [("url", .string "https://a.example/@alice")]), ""⟩

def mastodon : SignedBinding :=
  let claim := request.claim AtprotoExample.peer (some 7)
  ⟨claim, (PubKey.replicate 1).bytes ++ claim.canonicalBytes, PubKey.replicate 1⟩

def trace : List RelayEvent := [⟨.buildClient, .ok ()⟩, ⟨.send request.verifyCredentials, .ok actor⟩,
  ⟨.unixTime, some 7⟩, ⟨.sign mastodon.claim, .ok mastodon.signature⟩]

lemma returns : Returns (handleSign deps (SerdeJson.compact.toVec requestJson)) trace
    (SerdeJson.compact.toVec
      (signResponse deps.hex mastodon.claim mastodon.signature mastodon.signerPubkey)) := by
  have hread : deps.serde.read SignRequest.ofJson (SerdeJson.compact.toVec requestJson) =
      .ok request := (SerdeJson.roundTrips_compact 1).read plain_requestJson rfl
  have hpeer : SignEndpoint.decodePeerPubkey deps.hex request.peerPubkeyHex =
      .ok AtprotoExample.peer :=
    decodePubkey_encode (show deps.hex.RoundTrips from hexDecode_hexLower) AtprotoExample.peer
  exact returns_handleSign_iff.mpr ⟨actor, request, AtprotoExample.peer, _, some 7,
    mastodon.signature, PubKey.replicate 1, ⟨hread, rfl, hpeer, rfl, rfl, rfl⟩, rfl, rfl, rfl⟩

lemma signsByKey : SignsByKey deps trace := by
  intro claim x hmem
  simp only [trace, List.mem_cons, Event.mk.injEq, RelayOp.sign.injEq, reduceCtorEq, false_and,
    List.not_mem_nil, or_false, false_or] at hmem
  obtain ⟨rfl, hx⟩ := hmem
  exact eq_of_heq hx

end AcceptanceExample

theorem relay_answers_accepted_alice :
    (∃ b : SignedBinding, ⟨.sign b.claim, .ok b.signature⟩ ∈ AcceptanceExample.trace ∧
      Redeemable AcceptanceExample.client b (SerdeJson.compact.toVec
        (signResponse AcceptanceExample.deps.hex AcceptanceExample.mastodon.claim
          AcceptanceExample.mastodon.signature AcceptanceExample.mastodon.signerPubkey))) ∧
    ∃ b, SignedInRun AcceptanceExample.deps AcceptanceExample.pool "tab" b ∧
      Redeemable AcceptanceExample.client b (SerdeJson.compact.toVec
        AcceptanceExample.binding.toJson) := by
  obtain ⟨hsign, hresult⟩ := relay_answers_accepted
    (show AcceptanceExample.client.serde = AcceptanceExample.deps.serde from rfl)
    (SerdeJson.roundTrips_compact 3) SerdeJson.compact_writes hexDecode_hexLower rfl signVerify_clear
  constructor
  · obtain ⟨_, _, b, _, _, _, hsigned, hredeem⟩ :=
      hsign _ _ _ AcceptanceExample.returns AcceptanceExample.signsByKey
    exact ⟨b, hsigned, hredeem⟩
  · obtain ⟨state, b, hstate, hsigned, hredeem⟩ :=
      hresult 0 _ 2 _ _ AcceptanceExample.run AcceptanceExample.finished
    obtain rfl : "tab" = state := Option.some.inj hstate
    exact ⟨b, hsigned, hredeem⟩

end Laye
