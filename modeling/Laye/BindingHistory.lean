import Laye.Calls

/-!
# The binding table follows what peers publish

Identity messages, logins and `init` write the same table. After one `init` it is a function of
the history: every other peer has what its last identity message says, and the client itself has
its own bindings.
-/

namespace Laye

/-- The keys the client was started with, in order. -/
def startedKeys (log : List Observation) : List PubKey :=
  log.filterMap fun
    | .started pk => some pk
    | _ => none

lemma startedKeys_append (as bs : List Observation) :
    startedKeys (as ++ bs) = startedKeys as ++ startedKeys bs :=
  List.filterMap_append

lemma startedKeys_outbound {added : List Observation} (h : ∀ o ∈ added, o.Outbound) :
    startedKeys added = [] := by
  apply List.filterMap_eq_nil_iff.mpr
  intro o ho
  cases o with
  | submitted | handed | polled | appended => rfl
  | started pk => exact (h _ ho).elim

/-- The entry of the table for a list of bindings. -/
def listed (bindings : List SignedBinding) : Option (List SignedBinding) :=
  if bindings.isEmpty then none else some bindings

namespace AppState

section Table

variable {lib : Libp2pIdentity} (deps : Deps lib)

/-- Who publishes what with an identity message: nobody, if its sender has no key. -/
def publication : NetEvent → Option (PubKey × Bytes)
  | .message topic sender bytes _ =>
    if topic = IDENTITY_TOPIC then (deps.peerKey sender).map (fun pk => (pk, bytes)) else none
  | _ => none

/-- The identity messages of one peer, in order. -/
def publishedBy (pk : PubKey) (events : List NetEvent) : List Bytes :=
  events.filterMap fun e => (publication deps e).bind fun p => if p.1 = pk then some p.2 else none

/-- The bindings a peer's last identity message stands for. -/
def lastBindings (pk : PubKey) (events : List NetEvent) : List SignedBinding :=
  (publishedBy deps pk events).getLast?.elim [] (fun bytes => parseAndVerify lib deps.serde bytes pk)

lemma publishedBy_append (pk : PubKey) (as bs : List NetEvent) :
    publishedBy deps pk (as ++ bs) = publishedBy deps pk as ++ publishedBy deps pk bs :=
  List.filterMap_append

lemma lastBindings_same {pk : PubKey} {e : NetEvent} (h : publishedBy deps pk [e] = [])
    (events : List NetEvent) : lastBindings deps pk (events ++ [e]) = lastBindings deps pk events := by
  rw [lastBindings, publishedBy_append, h, List.append_nil, lastBindings]

lemma lastBindings_publication {pk : PubKey} {e : NetEvent} {bytes : Bytes}
    (h : publication deps e = some (pk, bytes)) (events : List NetEvent) :
    lastBindings deps pk (events ++ [e]) = parseAndVerify lib deps.serde bytes pk := by
  have hlast : publishedBy deps pk [e] = [bytes] := by simp [publishedBy, h]
  rw [lastBindings, publishedBy_append, hlast, List.getLast?_concat, Option.elim_some]

lemma publishedBy_none {e : NetEvent} (h : publication deps e = none) (pk : PubKey) :
    publishedBy deps pk [e] = [] := by simp [publishedBy, h]

lemma publishedBy_other {e : NetEvent} {publisher pk : PubKey} {bytes : Bytes}
    (h : publication deps e = some (publisher, bytes)) (hne : publisher ≠ pk) :
    publishedBy deps pk [e] = [] := by simp [publishedBy, h, hne]

/-! ### One event -/

/-- The table takes in a publication and no other event. -/
theorem bindings_drainEvent (selfPubkey : Option PubKey) (selfPeerId : String) (acc : DrainAcc lib)
    (e : NetEvent) :
    (drainEvent deps selfPubkey selfPeerId acc e).st.bindings =
      (publication deps e).elim acc.st.bindings fun p =>
        absorb acc.st.bindings p.1 (parseAndVerify lib deps.serde p.2 p.1) := by
  cases e with
  | subscriptionChange topic peer joined => cases joined <;> rfl
  | peerDown | peerUp | error => rfl
  | message topic sender bytes atMs =>
    simp only [drainEvent]
    split
    · rename_i hchat
      have hnot : topic ≠ IDENTITY_TOPIC := by
        rintro rfl
        exact absurd hchat (by decide)
      split <;> simp [publication, hnot] <;> rfl
    · split
      · rename_i publisher hkey
        split at hkey
        · rename_i htopic
          simp [publication, htopic, hkey, setBindings, observe]
        · cases hkey
      · rename_i hkey
        have hnone : publication deps (.message topic sender bytes atMs) = none := by
          rw [publication]
          split_ifs at hkey ⊢
          · rw [hkey, Option.map_none]
          · rfl
        rw [hnone]
        rfl

/-- An event leaves the entry of a key that does not publish with it. -/
lemma bindings_drainEvent_other {pk : PubKey} {e : NetEvent} (h : publishedBy deps pk [e] = [])
    (selfPubkey : Option PubKey) (selfPeerId : String) (acc : DrainAcc lib) :
    (drainEvent deps selfPubkey selfPeerId acc e).st.bindings pk = acc.st.bindings pk := by
  rw [bindings_drainEvent]
  cases hpub : publication deps e with
  | none => rfl
  | some p =>
    have hne : pk ≠ p.1 := by
      rintro rfl
      simp [publishedBy, hpub] at h
    exact absorb_of_ne _ _ hne

/-- An event starts no client. -/
lemma startedKeys_drainEvent (selfPubkey : Option PubKey) (selfPeerId : String) (acc : DrainAcc lib)
    (e : NetEvent) : ∃ added, (drainEvent deps selfPubkey selfPeerId acc e).st.log =
      acc.st.log ++ added ∧ startedKeys added = [] := by
  rcases drainEvent_cases deps selfPubkey selfPeerId acc e with
    ⟨hlog, -, -⟩ | ⟨_, _, _, _, _, -, -, hst⟩ | ⟨_, _, _, _, -, -, hst⟩
  · exact ⟨_, hlog, rfl⟩
  · rw [hst]
    exact ⟨_, List.append_assoc acc.st.log [_] [_], rfl⟩
  · rw [hst]
    exact ⟨_, rfl, rfl⟩

lemma startedKeys_drainNetEvents (st : AppState lib) (order : IterOrder String) (events : List NetEvent) :
    startedKeys (drainNetEvents deps order st events).log = startedKeys st.log := by
  have hloop : ∀ events, startedKeys (drainEvents deps st events).st.log = startedKeys st.log := by
    refine drainEvents_induction deps (motive := fun _ acc =>
      startedKeys acc.st.log = startedKeys st.log) st rfl ?_
    intro pk id seen acc e ih
    obtain ⟨added, hlog, hadded⟩ := startedKeys_drainEvent deps pk id acc e
    rw [hlog, startedKeys_append, hadded, List.append_nil, ih]
  unfold drainNetEvents
  obtain ⟨added, hlog, hout⟩ := (quiet_finishDrain
    (order.walk (drainEvents deps st (if st.net.isSome then events else [])).topicsToFlush)
    (drainEvents deps st (if st.net.isSome then events else []))).log
  simp only [hlog, startedKeys_append, startedKeys_outbound hout, List.append_nil]
  exact hloop _

/-- An entry changes only when its peer publishes. -/
lemma bindings_drainNetEvents {pk : PubKey} {events : List NetEvent}
    (h : publishedBy deps pk events = []) (st : AppState lib) (order : IterOrder String) :
    (drainNetEvents deps order st events).bindings pk = st.bindings pk := by
  have hloop : ∀ events, publishedBy deps pk events = [] →
      (drainEvents deps st events).st.bindings pk = st.bindings pk := by
    refine drainEvents_induction deps (motive := fun seen acc => publishedBy deps pk seen = [] →
      acc.st.bindings pk = st.bindings pk) st (fun _ => rfl) ?_
    intro self id seen acc e ih hnone
    rw [publishedBy_append, List.append_eq_nil_iff] at hnone
    exact (bindings_drainEvent_other deps hnone.2 self id acc).trans (ih hnone.1)
  unfold drainNetEvents
  rw [(quiet_finishDrain _ _).bindings]
  split
  · exact hloop events h
  · rfl

/-! ### Runs -/

/-- The client started at most once, under `me`, and heard nothing from itself. -/
structure OneSelf (me : PubKey) (log : List Observation) : Prop where
  started : startedKeys log = [] ∨ startedKeys log = [me]
  silent : publishedBy deps me (polledIn log) = []

/-- The table is what the history makes of it. -/
structure Published (me : PubKey) (st : AppState lib) : Prop where
  others : ∀ pk ≠ me, st.bindings pk = listed (lastBindings deps pk (polledIn st.log))
  before : startedKeys st.log = [] → st.selfPubkey = none ∧ st.bindings me = none
  own : startedKeys st.log ≠ [] → st.selfPubkey = some me ∧ st.bindings me = listed st.selfBindings

variable {me : PubKey}

lemma OneSelf.of_append {log added : List Observation} (h : OneSelf deps me (log ++ added)) :
    OneSelf deps me log := by
  refine ⟨?_, ?_⟩
  · have hstarted := h.started
    rw [startedKeys_append] at hstarted
    rcases hstarted with hnil | hone
    · exact Or.inl (List.append_eq_nil_iff.mp hnil).1
    · rcases List.append_eq_singleton_iff.mp hone with ⟨hl, -⟩ | ⟨hl, -⟩
      · exact Or.inl hl
      · exact Or.inr hl
  · have hsilent := h.silent
    rw [polledIn_append, publishedBy_append] at hsilent
    exact (List.append_eq_nil_iff.mp hsilent).1

/-- A client that starts only once had not started before, and starts under its key. -/
lemma OneSelf.starts {log : List Observation} {pk : PubKey}
    (h : OneSelf deps me (log ++ [.started pk])) : startedKeys log = [] ∧ pk = me := by
  have hstarted := h.started
  rw [startedKeys_append] at hstarted
  rcases hstarted with hnil | hone
  · exact absurd (List.append_eq_nil_iff.mp hnil).2 (by simp [startedKeys])
  · have hkeys := List.append_inj' (hone.trans (List.nil_append _).symm) rfl
    exact ⟨hkeys.1, (List.cons.inj hkeys.2).1⟩

/-- Nothing the table depends on has happened. -/
lemma Published.same {st st' : AppState lib} (h : Published deps me st)
    (hself : st'.selfPubkey = st.selfPubkey) (hown : st'.selfBindings = st.selfBindings)
    (hbindings : st'.bindings = st.bindings) {added : List Observation}
    (hlog : st'.log = st.log ++ added) (hstarted : startedKeys added = [])
    (hpolled : polledIn added = []) : Published deps me st' := by
  have hs : startedKeys st'.log = startedKeys st.log := by
    rw [hlog, startedKeys_append, hstarted, List.append_nil]
  have hp : polledIn st'.log = polledIn st.log := by
    rw [hlog, polledIn_append, hpolled, List.append_nil]
  refine ⟨?_, ?_, ?_⟩
  · rw [hbindings, hp]
    exact h.others
  · rw [hs, hself, hbindings]
    exact h.before
  · rw [hs, hself, hbindings, hown]
    exact h.own

lemma published_event (selfPubkey : Option PubKey) (selfPeerId : String) (acc : DrainAcc lib)
    (e : NetEvent) (h : Published deps me acc.st)
    (hone : OneSelf deps me (drainEvent deps selfPubkey selfPeerId acc e).st.log) :
    Published deps me (drainEvent deps selfPubkey selfPeerId acc e).st := by
  have huntouched := untouched_drainEvent deps selfPubkey selfPeerId acc e
  have hpubkey := huntouched.selfPubkey
  have hown := huntouched.selfBindings
  obtain ⟨added, hlog, hadded⟩ := startedKeys_drainEvent deps selfPubkey selfPeerId acc e
  have hstarted : startedKeys (drainEvent deps selfPubkey selfPeerId acc e).st.log =
      startedKeys acc.st.log := by
    rw [hlog, startedKeys_append, hadded, List.append_nil]
  have hpolled := polledIn_drainEvent deps selfPubkey selfPeerId acc e
  have htable := bindings_drainEvent deps selfPubkey selfPeerId acc e
  have hsilent := hone.silent
  rw [hpolled, publishedBy_append] at hsilent
  have hsilent' := (List.append_eq_nil_iff.mp hsilent).2
  have hother : ∀ pk, publishedBy deps pk [e] = [] →
      (drainEvent deps selfPubkey selfPeerId acc e).st.bindings pk = acc.st.bindings pk :=
    fun pk hpk => bindings_drainEvent_other deps hpk selfPubkey selfPeerId acc
  refine ⟨fun pk hpk => ?_, ?_, ?_⟩
  · rw [hpolled]
    cases hpub : publication deps e with
    | none =>
      have hnone := publishedBy_none deps hpub pk
      rw [hother pk hnone, lastBindings_same deps hnone]
      exact h.others pk hpk
    | some p =>
      obtain ⟨publisher, bytes⟩ := p
      by_cases hpublisher : publisher = pk
      · subst hpublisher
        rw [lastBindings_publication deps hpub, htable, hpub]
        exact absorb_self _ _ _
      · have hnone := publishedBy_other deps hpub hpublisher
        rw [hother pk hnone, lastBindings_same deps hnone]
        exact h.others pk hpk
  · rw [hstarted, hpubkey, hother me hsilent']
    exact h.before
  · rw [hstarted, hpubkey, hown, hother me hsilent']
    exact h.own

/-- A move keeps the table what the history makes of it, as long as the history is that of one
client. -/
lemma published_move (st st' : AppState lib)
    (h : OneSelf deps me st.log → Published deps me st) (hmove : Move deps st st') :
    OneSelf deps me st'.log → Published deps me st' := by
  intro hone
  cases hmove with
  | quiet hquiet =>
    obtain ⟨added, hlog, hout⟩ := hquiet.log
    exact (h ((hlog ▸ hone).of_append)).same deps hquiet.selfPubkey hquiet.selfBindings
      hquiet.bindings hlog (startedKeys_outbound hout) (polledIn_outbound hout)
  | own _ body =>
    exact (h (hone.of_append)).same deps rfl rfl rfl (show _ = st.log ++ [.appended _ _] from rfl) rfl rfl
  | accept _ json k binding hlogin =>
    have hst := h hone
    have hpubkey := checkLogin_self hlogin
    have hstarted : startedKeys st.log ≠ [] := by
      intro hnil
      rw [(hst.before hnil).1] at hpubkey
      cases hpubkey
    obtain rfl : me = k := by
      rw [(hst.own hstarted).1] at hpubkey
      exact Option.some.inj hpubkey
    refine ⟨fun pk hpk => ?_, fun hnil => absurd hnil hstarted, fun _ => ⟨(hst.own hstarted).1, ?_⟩⟩
    · exact (HashMap.insert_of_ne _ _ hpk).trans (hst.others pk hpk)
    · exact HashMap.insert_self _ _ _
  | commit _ configJson answers identity =>
    have hst := h hone.of_append
    obtain ⟨hnil, rfl⟩ := hone.starts
    have hpolled : polledIn (st.commit identity).log = polledIn st.log :=
      (polledIn_append _ [_]).trans (List.append_nil _)
    have hsome : startedKeys (st.commit identity).log ≠ [] := by
      change startedKeys (st.log ++ [.started _]) ≠ []
      simp [startedKeys]
    refine ⟨fun pk hpk => ?_, fun hnone => absurd hnone hsome, fun _ => ⟨rfl, ?_⟩⟩
    · rw [hpolled, ← hst.others pk hpk]
      simp only [commit]
      split
      · rfl
      · exact HashMap.insert_of_ne _ _ hpk
    · by_cases hempty : identity.selfBindings.isEmpty = true
      · simpa [commit, listed, hempty] using (hst.before hnil).2
      · simp [commit, listed, hempty]
  | event selfPubkey selfPeerId acc e =>
    obtain ⟨added, hlog, -⟩ := startedKeys_drainEvent deps selfPubkey selfPeerId acc e
    exact published_event deps selfPubkey selfPeerId acc e (h (hlog ▸ hone).of_append) hone

lemma published_run (dom : DomContext) (ops : List (ClientOp lib)) (st : AppState lib)
    (h : run deps (start dom) ops = .ok st) (hone : OneSelf deps me st.log) : Published deps me st := by
  have hstart : OneSelf deps me (start dom : AppState lib).log → Published deps me (start dom) :=
    fun _ => ⟨fun _ _ => rfl, fun _ => ⟨rfl, rfl⟩, fun hne => absurd rfl hne⟩
  have hinv : OneSelf deps me st.log → Published deps me st :=
    run_invariant (published_move deps) hstart h
  exact hinv hone

/-- After one `init`, with nothing delivered that the client sent itself: the history has the events
its calls polled; every other peer's entry is what its last identity message verifies to, the
client's own is its own bindings, an entry changes only when its peer publishes, and what it holds
verifies and claims the peer. -/
theorem binding_table_exact (dom : DomContext) (ops : List (ClientOp lib)) (st : AppState lib)
    (h : run deps (start dom) ops = .ok st) (me : PubKey) (hinit : startedKeys st.log = [me])
    (htransport : publishedBy deps me (polledIn st.log) = []) :
    polledIn st.log = pollsOf deps (start dom) ops ∧
    (∀ pk ≠ me, st.bindings pk = listed (lastBindings deps pk (polledIn st.log))) ∧
    st.selfPubkey = some me ∧ st.bindings me = listed st.selfBindings ∧
    (∀ pk events order, publishedBy deps pk events = [] →
      (drainNetEvents deps order st events).bindings pk = st.bindings pk) ∧
    ∀ pk ≠ me, ∀ bs, st.bindings pk = some bs → ∀ b ∈ bs,
      b.verify lib = .ok () ∧ b.claim.peerPubkey = pk := by
  have hpublished := published_run deps dom ops st h ⟨Or.inr hinit, htransport⟩
  obtain ⟨hself, hown⟩ := hpublished.own (by simp [hinit])
  refine ⟨run_polled deps h, hpublished.others, hself, hown,
    fun pk events order hnone => bindings_drainNetEvents deps hnone st order, ?_⟩
  intro pk hpk bs hbs b hb
  rw [hpublished.others pk hpk, listed] at hbs
  split at hbs
  · cases hbs
  · obtain rfl := Option.some.inj hbs
    unfold lastBindings at hb
    cases hlast : (publishedBy deps pk (polledIn st.log)).getLast? with
    | none =>
      rw [hlast] at hb
      cases hb
    | some bytes =>
      rw [hlast, Option.elim_some, mem_parseAndVerify] at hb
      exact ⟨hb.2.2, hb.2.1⟩

/-- Events that are polled one by one. -/
def polls (order : IterOrder String) (events : List NetEvent) : List (ClientOp lib) :=
  events.map fun e => .pendingBytes [e] order "pos"

lemma exists_run_polls (order : IterOrder String) (events : List NetEvent) {st : AppState lib}
    (hnet : st.net.isSome) : ∃ st', run deps st (polls order events) = .ok st' ∧
      startedKeys st'.log = startedKeys st.log ∧ polledIn st'.log = polledIn st.log ++ events := by
  induction events generalizing st with
  | nil => exact ⟨st, rfl, rfl, (List.append_nil _).symm⟩
  | cons e events ih =>
    have hnet' : (drainNetEvents deps order st [e]).net.isSome := by
      rwa [drainNetEvents_net]
    obtain ⟨st', hrun, hstarted, hpolled⟩ := ih hnet'
    refine ⟨st', run_cons_eq_ok.mpr ⟨_, rfl, hrun⟩, ?_, ?_⟩
    · rw [hstarted, startedKeys_drainNetEvents]
    · rw [hpolled, polledIn_drainNetEvents, if_pos hnet, List.append_assoc]
      rfl

end Table

namespace ReplacedExample

def me : PubKey := .replicate 7

def peer : PubKey := .replicate 2

def relay : PubKey := .replicate 1

def claim : BindingClaim := ⟨peer, "mastodon", "https://h/@alice", some "@alice@h", 0⟩

def later : BindingClaim := { claim with handle := some "@alice@k", issuedAt := 1 }

def sign (c : BindingClaim) : SignedBinding := ⟨c, relay.bytes ++ c.canonicalBytes, relay⟩

def lib : Libp2pIdentity := .recorded [(relay, claim.canonicalBytes), (relay, later.canonicalBytes)]

def deps : Deps lib :=
  .plain (.ofTexts [(intoBytes "config", .object [("bootstrap_addrs", .array [])]),
    ([1], .array [(sign claim).toJson]), ([2], .array [(sign later).toJson]), ([3], .null)])
    (fun sender => if sender = "peer" then some peer else none)

def said (text : Bytes) : NetEvent := .message IDENTITY_TOPIC "peer" text 2

/-- A first visit, and then these texts from the peer. -/
def ops (order : IterOrder String) (texts : List Bytes) : List (ClientOp lib) :=
  .init "config" (.firstVisit me) :: polls order (texts.map said)

lemma lastBindings_said (text : Bytes) (earlier : List NetEvent) :
    lastBindings deps peer (earlier ++ [said text]) = parseAndVerify lib deps.serde text peer := by
  have hpublication : publication deps (said text) = some (peer, text) := rfl
  exact lastBindings_publication deps hpublication earlier

lemma parseAndVerify_claim : parseAndVerify lib deps.serde [1] peer = [sign claim] := by
  have hkept : parseAndVerify lib deps.serde [1] claim.peerPubkey = [sign claim] :=
    parseAndVerify_recorded List.mem_cons_self rfl rfl
  exact hkept

lemma parseAndVerify_later : parseAndVerify lib deps.serde [2] peer = [sign later] := by
  have hkept : parseAndVerify lib deps.serde [2] later.peerPubkey = [sign later] :=
    parseAndVerify_recorded (List.mem_cons_of_mem _ List.mem_cons_self) rfl rfl
  exact hkept

lemma parseAndVerify_null : parseAndVerify lib deps.serde [3] peer = [] := rfl

lemma publishedBy_said {pk : PubKey} (hpk : pk ≠ peer) (texts : List Bytes) :
    publishedBy deps pk (texts.map said) = [] := by
  have hpublication : ∀ text, publication deps (said text) = some (peer, text) := fun _ => rfl
  simp [publishedBy, hpublication, Ne.symm hpk]

lemma exists_run_init : ∃ st, step deps (start .document) (.init "config" (.firstVisit me)) = .ok st ∧
    st.net.isSome ∧ startedKeys st.log = [me] ∧ polledIn st.log = [] := ⟨_, rfl, rfl, rfl, rfl⟩

lemma exists_run_ops (order : IterOrder String) (texts : List Bytes) : ∃ st,
    run deps (start .document) (ops order texts) = .ok st ∧ startedKeys st.log = [me] ∧
      polledIn st.log = texts.map said := by
  obtain ⟨st₀, hinit, hnet, hstarted, hpolled⟩ := exists_run_init
  obtain ⟨st, hpolls, hstarted', hpolled'⟩ := exists_run_polls deps order (texts.map said) hnet
  rw [hpolled, List.nil_append] at hpolled'
  exact ⟨st, run_cons_eq_ok.mpr ⟨st₀, hinit, hpolls⟩, hstarted'.trans hstarted, hpolled'⟩

end ReplacedExample

section Replaced

open ReplacedExample

/-- A peer publishes a binding, another one in its place, and then a message that is no list of
bindings; nobody else gets an entry. -/
theorem binding_table_exact_replaced :
    let order : IterOrder String := ⟨id, fun _ => .refl _⟩
    ∃ st₁ st₂ st₃, run deps (start .document) (ops order [[1]]) = .ok st₁ ∧
      run deps (start .document) (ops order [[1], [2]]) = .ok st₂ ∧
      run deps (start .document) (ops order [[1], [2], [3]]) = .ok st₃ ∧
      st₁.bindings peer = some [sign claim] ∧ st₂.bindings peer = some [sign later] ∧
      st₃.bindings peer = none ∧ st₃.bindings relay = none := by
  intro order
  have hpeer : peer ≠ me := by decide
  have htable : ∀ texts, ∃ st, run deps (start .document) (ops order texts) = .ok st ∧
      ∀ pk ≠ me, st.bindings pk = listed (lastBindings deps pk (texts.map said)) := by
    intro texts
    obtain ⟨st, hrun, hstarted, hpolled⟩ := exists_run_ops order texts
    have hexact := binding_table_exact deps .document _ st hrun me hstarted
      (by rw [hpolled, publishedBy_said hpeer.symm])
    rw [hpolled] at hexact
    exact ⟨st, hrun, hexact.2.1⟩
  obtain ⟨st₁, hrun₁, htable₁⟩ := htable [[1]]
  obtain ⟨st₂, hrun₂, htable₂⟩ := htable [[1], [2]]
  obtain ⟨st₃, hrun₃, htable₃⟩ := htable [[1], [2], [3]]
  refine ⟨st₁, st₂, st₃, hrun₁, hrun₂, hrun₃, ?_, ?_, ?_, ?_⟩
  · have hlist : [[1]].map said = [] ++ [said [1]] := rfl
    rw [htable₁ peer hpeer, hlist, lastBindings_said, parseAndVerify_claim]
    rfl
  · have hlist : [[1], [2]].map said = [said [1]] ++ [said [2]] := rfl
    rw [htable₂ peer hpeer, hlist, lastBindings_said, parseAndVerify_later]
    rfl
  · have hlist : [[1], [2], [3]].map said = [said [1], said [2]] ++ [said [3]] := rfl
    rw [htable₃ peer hpeer, hlist, lastBindings_said, parseAndVerify_null]
    rfl
  · rw [htable₃ relay (by decide), lastBindings, publishedBy_said (by decide)]
    rfl

end Replaced

end AppState

end Laye
