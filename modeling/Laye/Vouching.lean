import Laye.ChatWindow

/-!
# Who vouches for a handle

A handle reaches the binding table with whatever key signed it: the receiver checks the signature
under the key the binding itself names and never compares that key with the relay's.
-/

namespace Laye

/-- Of the bindings in a message from `publisher`, the one whose handle will be shown: the first
that claims the publisher's key, verifies and carries a handle. -/
def shownBinding (lib : Libp2pIdentity) (serde : SerdeJson) (publisher : PubKey) (bytes : Bytes) :
    Option SignedBinding :=
  (wireBindings serde bytes).find? fun b =>
    decide (b.claim.peerPubkey = publisher) && (b.verify lib).isOk && b.claim.handle.isSome

/-- The handle a message will have shown, if any, is signed with `relay`. -/
def VouchedBy (lib : Libp2pIdentity) (serde : SerdeJson) (relay publisher : PubKey) (bytes : Bytes) :
    Prop :=
  ∀ b, shownBinding lib serde publisher bytes = some b → b.signerPubkey = relay

lemma findSome?_handle (bindings : List SignedBinding) :
    bindings.findSome? (fun b => b.claim.handle) =
      (bindings.find? (fun b => b.claim.handle.isSome)).bind (fun b => b.claim.handle) := by
  induction bindings with
  | nil => rfl
  | cons b bindings ih =>
    cases hb : b.claim.handle with
    | none => simp [hb, ih]
    | some handle => simp [hb]

/-- The handle found among the kept bindings of a message is the one of its shown binding. -/
lemma handle_parseAndVerify (lib : Libp2pIdentity) (serde : SerdeJson) (publisher : PubKey)
    (bytes : Bytes) :
    (parseAndVerify lib serde bytes publisher).findSome? (fun b => b.claim.handle) =
      (shownBinding lib serde publisher bytes).bind (fun b => b.claim.handle) := by
  rw [findSome?_handle]
  unfold parseAndVerify shownBinding wireBindings
  cases serde.read bindingsOfJson bytes with
  | error e => rfl
  | ok list =>
    rw [List.find?_filter]
    simp [Except.toOption, Bool.and_assoc]

lemma shownBinding_spec {lib : Libp2pIdentity} {serde : SerdeJson} {publisher : PubKey}
    {bytes : Bytes} {b : SignedBinding} (h : shownBinding lib serde publisher bytes = some b) :
    b ∈ parseAndVerify lib serde bytes publisher ∧ b.claim.peerPubkey = publisher ∧
      b.verify lib = .ok () ∧ b.claim.handle.isSome := by
  have hmem := List.mem_of_find?_eq_some h
  have hprop := List.find?_some h
  simp only [Bool.and_eq_true, decide_eq_true_eq] at hprop
  obtain ⟨⟨hpeer, hverify⟩, hhandle⟩ := hprop
  have hok : b.verify lib = .ok () := by
    cases hv : b.verify lib with
    | error e => simp [hv, Except.isOk, Except.toBool] at hverify
    | ok u => rfl
  exact ⟨mem_parseAndVerify.mpr ⟨hmem, hpeer, hok⟩, hpeer, hok, hhandle⟩

namespace AppState

variable {lib : Libp2pIdentity} (deps : Deps lib)

/-- An identity message from `publisher` has been delivered. -/
def Delivered (st : AppState lib) (publisher : PubKey) (bytes : Bytes) : Prop :=
  ∃ sender atMs, .polled (.message IDENTITY_TOPIC sender bytes atMs) ∈ st.log ∧
    deps.peerKey sender = some publisher

/-- `pk` is not a key this client has run under. -/
def Remote (st : AppState lib) (pk : PubKey) : Prop := .started pk ∉ st.log

/-- What is known of remote keys comes from delivered messages. -/
structure Traced (st : AppState lib) : Prop where
  self : ∀ pk, st.selfPubkey = some pk → ¬st.Remote pk
  table : ∀ pk bs, st.Remote pk → st.bindings pk = some bs →
    ∃ bytes, Delivered deps st pk bytes ∧ bs = parseAndVerify lib deps.serde bytes pk
  shown : ∀ author handle entry, st.Remote author →
    .appended (.signed author (some handle)) entry ∈ st.log →
    ∃ bytes, Delivered deps st author bytes ∧
      (parseAndVerify lib deps.serde bytes author).findSome? (fun b => b.claim.handle) = some handle

section Growth

variable {st st' : AppState lib} {added : List Observation}

lemma Remote.of_append (hlog : st'.log = st.log ++ added) {pk : PubKey} (h : st'.Remote pk) :
    st.Remote pk := fun hmem => h (hlog ▸ List.mem_append_left _ hmem)

lemma Delivered.append (hlog : st'.log = st.log ++ added) {publisher : PubKey} {bytes : Bytes}
    (h : Delivered deps st publisher bytes) : Delivered deps st' publisher bytes := by
  obtain ⟨sender, atMs, hmem, hkey⟩ := h
  exact ⟨sender, atMs, hlog ▸ List.mem_append_left _ hmem, hkey⟩

/-- A state stays traced when what is new about remote keys is. -/
lemma Traced.grow (h : Traced deps st) (hlog : st'.log = st.log ++ added)
    (hself : ∀ pk, st'.selfPubkey = some pk → st.selfPubkey = some pk ∨ .started pk ∈ added)
    (htable : ∀ pk bs, st'.Remote pk → st'.bindings pk = some bs → st.bindings pk = some bs ∨
      ∃ bytes, Delivered deps st' pk bytes ∧ bs = parseAndVerify lib deps.serde bytes pk)
    (hshown : ∀ author handle entry, st'.Remote author →
      .appended (.signed author (some handle)) entry ∈ added →
      st.bindings.resolveHandle author = some handle) :
    Traced deps st' := by
  refine ⟨fun pk hpk hremote => ?_, fun pk bs hremote hbs => ?_, fun author handle entry hremote hmem => ?_⟩
  · rcases hself pk hpk with hold | hnew
    · exact h.self pk hold (hremote.of_append hlog)
    · exact hremote (hlog ▸ List.mem_append_right _ hnew)
  · rcases htable pk bs hremote hbs with hold | hnew
    · obtain ⟨bytes, hdelivered, hkept⟩ := h.table pk bs (hremote.of_append hlog) hold
      exact ⟨bytes, hdelivered.append deps hlog, hkept⟩
    · exact hnew
  · rw [hlog, List.mem_append] at hmem
    rcases hmem with hold | hnew
    · obtain ⟨bytes, hdelivered, hhandle⟩ := h.shown author handle entry (hremote.of_append hlog) hold
      exact ⟨bytes, hdelivered.append deps hlog, hhandle⟩
    · obtain ⟨bs, hbs, hhandle⟩ := Option.bind_eq_some_iff.mp (hshown author handle entry hremote hnew)
      obtain ⟨bytes, hdelivered, rfl⟩ := h.table author bs (hremote.of_append hlog) hbs
      exact ⟨bytes, hdelivered.append deps hlog, hhandle⟩

end Growth

lemma traced_event (selfPubkey : Option PubKey) (selfPeerId : String) (acc : DrainAcc lib)
    (e : NetEvent) (h : Traced deps acc.st) :
    Traced deps (drainEvent deps selfPubkey selfPeerId acc e).st := by
  rcases drainEvent_cases deps selfPubkey selfPeerId acc e with
    ⟨hlog, hbindings, hself⟩ | ⟨topic, peer, bytes, atMs, incoming, -, -, hst⟩ |
      ⟨sender, bytes, atMs, publisher, rfl, hkey, hst⟩
  · exact h.grow deps hlog (fun pk hpk => Or.inl (hself ▸ hpk))
      (fun pk bs _ hbs => Or.inl (hbindings ▸ hbs)) (by simp)
  · rw [hst]
    refine h.grow deps (show _ = acc.st.log ++ [.polled e, .appended _ _] from List.append_assoc _ _ _)
      (fun pk hpk => Or.inl hpk) (fun pk bs _ hbs => Or.inl hbs) ?_
    intro author handle entry _ hmem
    simp only [List.mem_cons, reduceCtorEq, List.not_mem_nil, or_false, false_or,
      Observation.appended.injEq] at hmem
    cases incoming with
    | signed chat =>
      simp only [chatEntry, Provenance.signed.injEq] at hmem
      obtain ⟨⟨rfl, hhandle⟩, -⟩ := hmem
      exact hhandle.symm
    | plaintext chat => simp [chatEntry] at hmem
  · rw [hst]
    refine h.grow deps
      (show _ = acc.st.log ++ [.polled (.message IDENTITY_TOPIC sender bytes atMs)] from rfl)
      (fun pk hpk => Or.inl hpk) (fun pk bs _ hbs => ?_) (by simp)
    change absorb acc.st.bindings publisher (parseAndVerify lib deps.serde bytes publisher) pk = _ at hbs
    by_cases hpk : pk = publisher
    · subst hpk
      rw [absorb_self] at hbs
      split at hbs
      · cases hbs
      · cases hbs
        exact Or.inr ⟨bytes, ⟨sender, atMs, List.mem_append_right _ (List.mem_singleton_self _), hkey⟩, rfl⟩
    · rw [absorb_of_ne _ _ hpk] at hbs
      exact Or.inl hbs

lemma traced_move (st st' : AppState lib) (h : Traced deps st) (hmove : Move deps st st') :
    Traced deps st' := by
  cases hmove with
  | quiet hquiet =>
    obtain ⟨added, hlog, hout⟩ := hquiet.log
    exact h.grow deps hlog (fun pk hpk => Or.inl (hquiet.selfPubkey ▸ hpk))
      (fun pk bs _ hbs => Or.inl (hquiet.bindings ▸ hbs)) fun _ _ _ _ hmem => (hout _ hmem).elim
  | own _ body =>
    exact h.grow deps rfl (fun pk hpk => Or.inl hpk) (fun _ _ _ hbs => Or.inl hbs) (by simp)
  | accept _ json self binding hlogin =>
    refine h.grow deps (List.append_nil _).symm (fun pk hpk => Or.inl hpk)
      (fun pk bs hremote hbs => Or.inl ?_) (by simp)
    have hne : pk ≠ self := by
      rintro rfl
      exact h.self pk (checkLogin_self hlogin) hremote
    simp only [acceptLogin, HashMap.insert_of_ne _ _ hne] at hbs
    exact hbs
  | commit _ configJson answers identity =>
    refine h.grow deps rfl (fun pk hpk => Or.inr ?_) (fun pk bs hremote hbs => Or.inl ?_) (by simp)
    · rw [← Option.some.inj hpk]
      exact List.mem_singleton_self _
    · have hne : pk ≠ identity.selfPubkey := by
        rintro rfl
        exact hremote (List.mem_append_right _ (List.mem_singleton_self _))
      simp only [commit] at hbs
      split at hbs
      · exact hbs
      · rwa [HashMap.insert_of_ne _ _ hne] at hbs
  | event selfPubkey selfPeerId acc e => exact traced_event deps selfPubkey selfPeerId acc e h

lemma traced_start (dom : DomContext) : Traced deps (start dom) where
  self pk h := by simp [start] at h
  table pk bs _ h := by simp [start] at h
  shown author handle entry _ h := by simp [start] at h

/-- The binding behind a handle of a remote author. -/
lemma handle_vouched {relay author : PubKey} {bytes : Bytes} {handle : String}
    (hvouched : VouchedBy lib deps.serde relay author bytes)
    (h : (parseAndVerify lib deps.serde bytes author).findSome? (fun b => b.claim.handle) = some handle) :
    ∃ b ∈ parseAndVerify lib deps.serde bytes author, b.verify lib = .ok () ∧
      b.signerPubkey = relay ∧ b.claim.peerPubkey = author ∧ b.claim.handle = some handle := by
  rw [handle_parseAndVerify] at h
  obtain ⟨b, hshown, hhandle⟩ := Option.bind_eq_some_iff.mp h
  obtain ⟨hmem, hpeer, hverify, -⟩ := shownBinding_spec hshown
  exact ⟨b, hmem, hverify, hvouched b hshown, hpeer, hhandle⟩

/-- As long as every delivered message of a remote sender has its shown handle signed by the
relay, every handle returned for a remote author comes from a binding the relay signed: in the
table, and in every signed message shown so far. -/
theorem handles_vouched_by_relay (relay : PubKey) (dom : DomContext) (ops : List (ClientOp lib))
    (st : AppState lib) (h : run deps (start dom) ops = .ok st)
    (hvouched : ∀ publisher bytes, st.Remote publisher → Delivered deps st publisher bytes →
      VouchedBy lib deps.serde relay publisher bytes) :
    (∀ author handle, st.Remote author → st.bindings.resolveHandle author = some handle →
      attributeAuthor (some st.bindings) author = handle ∧
      ∃ bs, st.bindings author = some bs ∧ ∃ b ∈ bs, b.verify lib = .ok () ∧
        b.signerPubkey = relay ∧ b.claim.peerPubkey = author ∧ b.claim.handle = some handle) ∧
    (∀ author handle entry, st.Remote author →
      .appended (.signed author (some handle)) entry ∈ st.log →
      ∃ b : SignedBinding, b.verify lib = .ok () ∧ b.signerPubkey = relay ∧ b.claim.peerPubkey = author ∧
        b.claim.handle = some handle) := by
  have htraced : Traced deps st := run_invariant (traced_move deps) (traced_start deps dom) h
  refine ⟨fun author handle hremote hhandle => ⟨?_, ?_⟩, fun author handle entry hremote hmem => ?_⟩
  · simp [attributeAuthor, hhandle]
  · obtain ⟨bs, hbs, hfound⟩ := Option.bind_eq_some_iff.mp hhandle
    obtain ⟨bytes, hdelivered, rfl⟩ := htraced.table author bs hremote hbs
    exact ⟨_, hbs, handle_vouched deps (hvouched author bytes hremote hdelivered) hfound⟩
  · obtain ⟨bytes, hdelivered, hfound⟩ := htraced.shown author handle entry hremote hmem
    obtain ⟨b, -, hb⟩ := handle_vouched deps (hvouched author bytes hremote hdelivered) hfound
    exact ⟨b, hb⟩

/-- A peer publishes a binding that the relay signed for it. -/
theorem handles_vouched_by_relay_alice :
    let relay := PubKey.replicate 1
    let peer := PubKey.replicate 2
    let claim : BindingClaim := ⟨peer, "mastodon", "https://h/@alice", some "@alice@h", 0⟩
    let lib := Libp2pIdentity.recorded [(relay, claim.canonicalBytes)]
    let b : SignedBinding := ⟨claim, relay.bytes ++ claim.canonicalBytes, relay⟩
    let config := Json.object [("bootstrap_addrs", .array [])]
    let deps : Deps lib := .plain
      (.ofTexts [(intoBytes "config", config), ([1], .array [b.toJson])]) (fun _ => some peer)
    ∃ st, run deps (start .document) [
        .init "config" (.firstVisit (PubKey.replicate 7)),
        .pendingBytes [.message IDENTITY_TOPIC "peer" [1] 2] ⟨id, fun _ => .refl _⟩ "pos"] = .ok st ∧
      attributeAuthor (some st.bindings) peer = "@alice@h" ∧
      ∃ bs, st.bindings peer = some bs ∧ ∃ b ∈ bs, b.verify lib = .ok () ∧ b.signerPubkey = relay ∧
        b.claim.peerPubkey = peer ∧ b.claim.handle = some "@alice@h" := by
  intro relay peer claim lib b config deps
  have hkept : parseAndVerify lib deps.serde [1] peer = [b] := parseAndVerify_recorded (List.mem_singleton_self _) rfl rfl
  obtain ⟨st, hrun, hlog, hbindings⟩ : ∃ st, run deps (start .document) [
        .init "config" (.firstVisit (PubKey.replicate 7)),
        .pendingBytes [.message IDENTITY_TOPIC "peer" [1] 2] ⟨id, fun _ => .refl _⟩ "pos"] = .ok st ∧
      st.log = [.started (PubKey.replicate 7), .polled (.message IDENTITY_TOPIC "peer" [1] 2)] ∧
      st.bindings = absorb HashMap.empty peer (parseAndVerify lib deps.serde [1] peer) :=
    ⟨_, rfl, rfl, rfl⟩
  have hhandle : st.bindings.resolveHandle peer = some "@alice@h" := by
    rw [BindingTable.resolveHandle, hbindings, absorb_self, hkept]
    rfl
  have hremote : st.Remote peer := by
    rw [Remote, hlog]
    decide
  refine ⟨st, hrun, (handles_vouched_by_relay deps relay .document _ st hrun ?_).1 peer _ hremote hhandle⟩
  rintro publisher bytes - ⟨sender, atMs, hmem, hkey⟩ b' hshown
  rw [hlog] at hmem
  simp only [List.mem_cons, reduceCtorEq, Observation.polled.injEq, NetEvent.message.injEq,
    List.not_mem_nil, or_false, false_or, true_and] at hmem
  obtain ⟨rfl, rfl, rfl⟩ := hmem
  obtain rfl : peer = publisher := Option.some.inj hkey
  have hb' := (shownBinding_spec hshown).1
  rw [hkept] at hb'
  rw [List.mem_singleton.mp hb']

/-- A peer makes a key of its own, signs a claim to a handle with it and publishes the binding. -/
theorem attacker_vouches_for_itself :
    let relay := PubKey.replicate 1
    let attacker := PubKey.replicate 2
    let claim : BindingClaim := ⟨attacker, "mastodon", "https://h/@admin", some "@admin@h", 0⟩
    let lib := Libp2pIdentity.recorded [(attacker, claim.canonicalBytes)]
    let b : SignedBinding := ⟨claim, attacker.bytes ++ claim.canonicalBytes, attacker⟩
    let config := Json.object [("bootstrap_addrs", .array [])]
    let deps : Deps lib := .plain
      (.ofTexts [(intoBytes "config", config), ([1], .array [b.toJson])]) (fun _ => some attacker)
    ∃ st, run deps (start .document) [
        .init "config" (.firstVisit (PubKey.replicate 7)),
        .pendingBytes [.message IDENTITY_TOPIC "attacker" [1] 2] ⟨id, fun _ => .refl _⟩ "pos"] = .ok st ∧
      st.Remote attacker ∧ attributeAuthor (some st.bindings) attacker = "@admin@h" ∧
      ¬∃ bs, st.bindings attacker = some bs ∧ ∃ b ∈ bs, b.verify lib = .ok () ∧
        b.signerPubkey = relay ∧ b.claim.handle = some "@admin@h" := by
  intro relay attacker claim lib b config deps
  have hkept : parseAndVerify lib deps.serde [1] attacker = [b] := parseAndVerify_recorded (List.mem_singleton_self _) rfl rfl
  have htable : ∀ table : BindingTable,
      absorb table attacker (parseAndVerify lib deps.serde [1] attacker) attacker = some [b] := by
    intro table
    rw [absorb_self, hkept]
    rfl
  refine ⟨_, rfl, by unfold Remote; decide, ?_, ?_⟩
  · have hhandle : BindingTable.resolveHandle (absorb HashMap.empty attacker
        (parseAndVerify lib deps.serde [1] attacker)) attacker = some "@admin@h" := by
      rw [BindingTable.resolveHandle, htable]
      rfl
    change attributeAuthor (some (absorb HashMap.empty attacker
        (parseAndVerify lib deps.serde [1] attacker))) attacker = _
    simp only [attributeAuthor, Option.bind_some, hhandle]
  · rintro ⟨bs, hbs, b', hb', -, hsigner, -⟩
    change absorb HashMap.empty attacker (parseAndVerify lib deps.serde [1] attacker) attacker = _ at hbs
    rw [htable] at hbs
    cases hbs
    rw [List.mem_singleton.mp hb'] at hsigner
    exact absurd hsigner (by decide)

end AppState

end Laye
