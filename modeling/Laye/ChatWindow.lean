import Laye.Moves

/-!
# Names in the chat window

An entry is shown under `me`, under a handle of the binding table, under hex digits of a key or
under characters the sender of a plaintext message chose. Nothing keeps these four apart.
-/

namespace Laye

inductive Source
  | own
  | signed
  | plaintext
deriving DecidableEq

def Provenance.source : Provenance → Source
  | .own => .own
  | .signed .. => .signed
  | .plaintext _ => .plaintext

/-- The name the code gives an entry of this origin. -/
def Provenance.name : Provenance → String
  | .own => "me"
  | .signed author handle => handle.getD (shortAuthorDisplay author)
  | .plaintext peer => shortPeerDisplay peer

/-- The chat entries pushed so far, also those the history has dropped since. -/
def entriesOf (log : List Observation) : List (Provenance × ChatEntry) :=
  log.filterMap fun
    | .appended origin entry => some (origin, entry)
    | _ => none

lemma mem_entriesOf {log : List Observation} {a : Provenance × ChatEntry} :
    a ∈ entriesOf log ↔ .appended a.1 a.2 ∈ log := by
  simp only [entriesOf, List.mem_filterMap]
  constructor
  · rintro ⟨o, ho, heq⟩
    cases o <;> simp only [reduceCtorEq, Option.some.injEq] at heq
    exact heq ▸ ho
  · exact fun h => ⟨_, h, rfl⟩

/-- Entries of different provenance have different names, and no entry from the network is named
or styled as an own one. -/
def NamesApart (entries : List (Provenance × ChatEntry)) : Prop :=
  (∀ a ∈ entries, ∀ b ∈ entries, a.1.source ≠ b.1.source → a.2.who ≠ b.2.who) ∧
  ∀ a ∈ entries, a.1.source ≠ .own → a.2.who ≠ "me" ∧ (Page.chatRow a.2).className = "laye-msg"

/-- Senders that leave the names of others alone: no plaintext sender calls itself `me`, no
author is bound to the handle `me`, and no plaintext sender starts its name with the eight
digits, or takes the handle, that an author is shown under. -/
structure NobodySpoofs (origins : List Provenance) : Prop where
  peerNotMe : ∀ peer, .plaintext peer ∈ origins → peer ≠ "me"
  handleNotMe : ∀ author handle, .signed author handle ∈ origins → handle ≠ some "me"
  peerNotHandle : ∀ peer author handle, .plaintext peer ∈ origins →
    .signed author (some handle) ∈ origins → peer.toList.take 8 ≠ handle.toList
  peerNotKey : ∀ peer author, .plaintext peer ∈ origins → .signed author none ∈ origins →
    peer.toList.take 8 ≠ (hexLower (author.bytes.take 4)).toList

lemma shortPeerDisplay_eq_me {peer : String} : shortPeerDisplay peer = "me" ↔ peer = "me" := by
  unfold shortPeerDisplay
  constructor
  · intro h
    have hchars : peer.toList.take 8 = ['m', 'e'] := by
      simpa using congrArg String.toList h
    have hlen := congrArg List.length hchars
    simp only [List.length_take, List.length_cons, List.length_nil] at hlen
    rw [List.take_of_length_le (by omega)] at hchars
    rw [← String.toList_inj, hchars]
    rfl
  · rintro rfl
    rfl

lemma shortPeerDisplay_eq {peer name : String} :
    shortPeerDisplay peer = name ↔ peer.toList.take 8 = name.toList := by
  rw [← String.toList_inj, shortPeerDisplay, String.toList_ofList]

/-- Eight hex digits are not `me`. -/
lemma shortAuthorDisplay_ne_me (author : PubKey) : shortAuthorDisplay author ≠ "me" := by
  intro h
  have hlen : (shortAuthorDisplay author).toList.length = 8 := by
    rw [shortAuthorDisplay, hexLower_length, List.length_take, author.length_eq]
    rfl
  rw [h] at hlen
  exact absurd hlen (by decide)

lemma chatRow_className {entry : ChatEntry} :
    (Page.chatRow entry).className = "laye-msg" ↔ entry.who ≠ "me" := by
  unfold Page.chatRow
  by_cases hme : entry.who = "me" <;> simp [hme]

namespace NobodySpoofs

variable {origins : List Provenance} (h : NobodySpoofs origins) {a b : Provenance}
include h

lemma name_ne_me (ha : a ∈ origins) (hsource : a.source ≠ .own) : a.name ≠ "me" := by
  cases a with
  | own => exact absurd rfl hsource
  | signed author handle =>
    cases handle with
    | none => exact shortAuthorDisplay_ne_me author
    | some handle => exact fun hme => h.handleNotMe author _ ha (congrArg some hme)
  | plaintext peer => exact fun hme => h.peerNotMe peer ha (shortPeerDisplay_eq_me.mp hme)

lemma plaintext_ne_signed {peer : String} {author : PubKey} {handle : Option String}
    (hp : .plaintext peer ∈ origins) (hs : .signed author handle ∈ origins) :
    (Provenance.plaintext peer).name ≠ (Provenance.signed author handle).name := by
  intro heq
  have hchars := shortPeerDisplay_eq.mp heq
  cases handle with
  | none => exact h.peerNotKey peer author hp hs hchars
  | some handle => exact h.peerNotHandle peer author handle hp hs hchars

lemma names_apart (ha : a ∈ origins) (hb : b ∈ origins) (hne : a.source ≠ b.source) :
    a.name ≠ b.name := by
  cases a with
  | own => exact (h.name_ne_me hb hne.symm).symm
  | signed author handle =>
    cases b with
    | own => exact h.name_ne_me ha hne
    | signed => exact absurd rfl hne
    | plaintext peer => exact (h.plaintext_ne_signed hb ha).symm
  | plaintext peer =>
    cases b with
    | own => exact h.name_ne_me ha hne
    | signed author handle => exact h.plaintext_ne_signed ha hb
    | plaintext => exact absurd rfl hne

end NobodySpoofs

/-- Senders whose names are apart do not spoof. -/
lemma nobodySpoofs_of_names {origins : List Provenance}
    (hapart : ∀ a ∈ origins, ∀ b ∈ origins, a.source ≠ b.source → a.name ≠ b.name)
    (hme : ∀ a ∈ origins, a.source ≠ .own → a.name ≠ "me") : NobodySpoofs origins where
  peerNotMe peer hp := fun heq =>
    hme _ hp (by simp [Provenance.source]) (shortPeerDisplay_eq_me.mpr heq)
  handleNotMe author handle hs := by
    rintro rfl
    exact hme _ hs (by simp [Provenance.source]) rfl
  peerNotHandle peer author handle hp hs := fun heq =>
    hapart _ hp _ hs (by simp [Provenance.source]) (shortPeerDisplay_eq.mpr heq)
  peerNotKey peer author hp hs := fun heq =>
    hapart _ hp _ hs (by simp [Provenance.source]) (shortPeerDisplay_eq.mpr heq)

/-- Names are apart exactly when nobody spoofs. -/
lemma namesApart_iff {entries : List (Provenance × ChatEntry)}
    (hname : ∀ a ∈ entries, a.2.who = a.1.name) :
    NamesApart entries ↔ NobodySpoofs (entries.map Prod.fst) := by
  constructor
  · rintro ⟨hapart, hnetwork⟩
    refine nobodySpoofs_of_names ?_ ?_
    · simp only [List.forall_mem_map]
      intro a ha b hb hne
      rw [← hname a ha, ← hname b hb]
      exact hapart a ha b hb hne
    · simp only [List.forall_mem_map]
      intro a ha hne
      rw [← hname a ha]
      exact (hnetwork a ha hne).1
  · intro hspoof
    refine ⟨fun a ha b hb hne => ?_, fun a ha hne => ?_⟩
    · rw [hname a ha, hname b hb]
      exact hspoof.names_apart (List.mem_map_of_mem ha) (List.mem_map_of_mem hb) hne
    · have hwho : a.2.who ≠ "me" := by
        rw [hname a ha]
        exact hspoof.name_ne_me (List.mem_map_of_mem ha) hne
      exact ⟨hwho, chatRow_className.mpr hwho⟩

namespace AppState

variable {lib : Libp2pIdentity} (deps : Deps lib)

/-- Every entry is named after its origin. -/
def Named (st : AppState lib) : Prop :=
  ∀ origin entry, .appended origin entry ∈ st.log → entry.who = origin.name

lemma chatEntry_named (bindings : BindingTable) (incoming : IncomingChat) :
    (chatEntry bindings incoming).2.who = (chatEntry bindings incoming).1.name := by
  cases incoming with
  | signed chat =>
    simp only [chatEntry, attributeAuthor, Provenance.name, Option.bind_some]
    cases bindings.resolveHandle chat.authorPeerPubkey <;> rfl
  | plaintext chat => rfl

lemma named_of_log {st st' : AppState lib} (h : st.Named) {added : List Observation}
    (hlog : st'.log = st.log ++ added)
    (hadded : ∀ origin entry, .appended origin entry ∈ added → entry.who = origin.name) : st'.Named := by
  intro origin entry hmem
  rw [hlog, List.mem_append] at hmem
  exact hmem.elim (h origin entry) (hadded origin entry)

lemma named_move (st st' : AppState lib) (h : st.Named) (hmove : Move deps st st') : st'.Named := by
  cases hmove with
  | quiet hquiet =>
    obtain ⟨added, hlog, hout⟩ := hquiet.log
    exact named_of_log h hlog fun origin entry hmem => (hout _ hmem).elim
  | own body => exact named_of_log h rfl (by simp [Provenance.name])
  | accept => exact h
  | commit => exact named_of_log h rfl (by simp)
  | event selfPubkey selfPeerId acc e =>
    rcases drainEvent_cases deps selfPubkey selfPeerId acc e with
      ⟨hlog, -, -⟩ | ⟨_, _, _, _, incoming, -, -, hst⟩ | ⟨_, _, _, _, -, -, hst⟩
    · exact named_of_log h hlog (by simp)
    · rw [hst]
      refine named_of_log h (show _ = acc.st.log ++ [.polled e, .appended _ _] from List.append_assoc _ _ _) ?_
      simp only [List.mem_cons, reduceCtorEq, List.not_mem_nil, or_false, false_or,
        Observation.appended.injEq]
      rintro origin entry ⟨rfl, rfl⟩
      exact chatEntry_named _ _
    · rw [hst]
      exact named_of_log h rfl (by simp)

/-- In every state a client reaches, names are apart exactly when none of the senders it accepted
messages from spoofs. -/
theorem namesApart_run_iff (dom : DomContext) (ops : List (ClientOp lib)) (st : AppState lib)
    (h : run deps (start dom) ops = .ok st) :
    NamesApart (entriesOf st.log) ↔ NobodySpoofs ((entriesOf st.log).map Prod.fst) := by
  have hnamed : st.Named := run_invariant (named_move deps) (by simp [Named, start]) h
  exact namesApart_iff fun a ha => hnamed a.1 a.2 (mem_entriesOf.mp ha)

/-- An own message, and a `rave-chat/v1` message whose sender calls itself `alice`. -/
theorem namesApart_run_iff_alice :
    let lib := Libp2pIdentity.recorded []
    let config := Json.object [("bootstrap_addrs", .array [])]
    let plaintext := Json.object [("peer", .string "alice"), ("body", .string "hi"),
      ("at_ms", .number (.posInt 0))]
    let deps : Deps lib := .plain (.ofTexts [(intoBytes "config", config), ([1], plaintext)]) (fun _ => none)
    ∃ st, run deps (start .document) [
        .init "config" (.firstVisit (PubKey.replicate 7)),
        .sendChat "hello" 1,
        .pendingBytes [.message LEGACY_CHAT_TOPIC "peer" [1] 2] ⟨id, fun _ => .refl _⟩ "pos"] = .ok st ∧
      (entriesOf st.log).map Prod.fst = [.own, .plaintext "alice"] ∧ NamesApart (entriesOf st.log) := by
  intro lib config plaintext deps
  obtain ⟨st, hrun, horigins⟩ : ∃ st, run deps (start .document) [
        .init "config" (.firstVisit (PubKey.replicate 7)),
        .sendChat "hello" 1,
        .pendingBytes [.message LEGACY_CHAT_TOPIC "peer" [1] 2] ⟨id, fun _ => .refl _⟩ "pos"] = .ok st ∧
      (entriesOf st.log).map Prod.fst = [.own, .plaintext "alice"] := ⟨_, rfl, rfl⟩
  refine ⟨st, hrun, horigins, (namesApart_run_iff deps .document _ st hrun).mpr ?_⟩
  rw [horigins]
  refine ⟨?_, by simp, by simp, by simp⟩
  intro peer hpeer
  obtain rfl : peer = "alice" := by simpa using hpeer
  decide

/-- An own message, and a `rave-chat/v1` message whose sender calls itself `me`. -/
theorem plaintext_speaks_as_me :
    let lib := Libp2pIdentity.recorded []
    let config := Json.object [("bootstrap_addrs", .array [])]
    let plaintext := Json.object [("peer", .string "me"), ("body", .string "hi"),
      ("at_ms", .number (.posInt 0))]
    let deps : Deps lib := .plain (.ofTexts [(intoBytes "config", config), ([1], plaintext)]) (fun _ => none)
    ∃ st, run deps (start .document) [
        .init "config" (.firstVisit (PubKey.replicate 7)),
        .sendChat "hello" 1,
        .pendingBytes [.message LEGACY_CHAT_TOPIC "peer" [1] 2] ⟨id, fun _ => .refl _⟩ "pos"] = .ok st ∧
      ¬NamesApart (entriesOf st.log) := by
  intro lib config plaintext deps
  refine ⟨_, rfl, fun hapart => ?_⟩
  refine hapart.1 (.own, ⟨"me", "hello"⟩) ?_ (.plaintext "me", ⟨"me", "hi"⟩) ?_ (by decide) rfl
  · decide
  · decide

end AppState

end Laye
