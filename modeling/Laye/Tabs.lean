import Mathlib.Tactic.IntervalCases
import Laye.Client
import Laye.Lib.Interleaving

/-!
# Tabs of one profile

Every tab of a browser profile runs `init` against the same IndexedDB. Between a tab's load of the
key and its save of a fresh one the other tabs go on.
-/

namespace Laye

open Interaction

/-! ### One tab -/

/-- Where `init` waits for an answer. -/
inductive InitOp
  | idbOpen
  | idbLoadBytes
  | fresh
  | idbSaveBytes (bytes : Bytes)
  | idbLoadBindings
  | netNew

def InitOp.Ans (lib : Libp2pIdentity) : InitOp → Type
  | .idbOpen => Except String Unit
  | .idbLoadBytes => Except String (Option Bytes)
  | .fresh => lib.Keypair
  | .idbSaveBytes _ => Except String Unit
  | .idbLoadBindings => Except String (List SignedBinding)
  | .netNew => Except NetError Unit

abbrev InitProgram (lib : Libp2pIdentity) (α : Type) : Type :=
  Program InitOp (InitOp.Ans lib) Failure α

abbrev InitEvent (lib : Libp2pIdentity) : Type := Event InitOp (InitOp.Ans lib)

section Tabs

variable {lib : Libp2pIdentity} (deps : Deps lib)

def ask (o : InitOp) : InitProgram lib (o.Ans lib) := .op o .done

def mintFailed (e : String) : Failure :=
  ⟨.error, "identity-mint", "identity load-or-generate failed", "identity encode/decode: " ++ e⟩

/-- `load_or_generate` and the save of a fresh key, one IndexedDB transaction at a time. -/
def loadOrGenerate : InitProgram lib lib.Keypair := do
  let opened : Except String Unit ← ask .idbOpen
  .ofExcept (opened.mapError (⟨.error, "idb-open", "IndexedDB open failed", ·⟩))
  let loaded : Except String (Option Bytes) ← ask .idbLoadBytes
  let existing ← .ofExcept (loaded.mapError
    (⟨.error, "idb-load-identity", "IndexedDB load identity failed", ·⟩))
  match existing with
  | some bytes => .ofExcept ((deps.loadKeypair bytes).mapError mintFailed)
  | none => do
    let keypair : lib.Keypair ← ask .fresh
    let bytes ← .ofExcept ((deps.keypairBytes keypair).mapError mintFailed)
    let saved : Except String Unit ← ask (.idbSaveBytes bytes)
    .ofExcept (saved.mapError
      (⟨.error, "idb-save-identity", "IndexedDB save identity failed", ·⟩))
    return keypair

/-- `init_inner` up to the commit, as a program of its tab. -/
def initTab (configJson : String) : InitProgram lib (AppState.Identity lib) := do
  let config ← .ofExcept ((deps.serde.read AppState.BootConfig.ofJson (intoBytes configJson)).mapError
    (⟨.error, "init-config-parse", "init config parse failed", ·⟩))
  if let some bad := config.topics.find? isInternalTopic then
    .fail ⟨.error, "init-topic-guard", "host attempted to subscribe to a laye-p2p-internal topic",
      bad ++ " is internal (laye-chat/v1, laye-identity/v1, rave-chat/v1) — subscribed automatically"⟩
  let keypair ← loadOrGenerate deps
  let key ← .ofExcept ((lib.tryIntoEd25519 keypair).mapError
    (⟨.error, "identity-nonEd25519", "public key is not Ed25519", ·⟩))
  let some selfPubkey := selfPeerPubkey lib keypair | .fail ⟨.error, "identity-nonEd25519",
    "keypair is not Ed25519", "chat::self_peer_pubkey returned None"⟩
  let loaded : Except String (List SignedBinding) ← ask .idbLoadBindings
  let selfBindings ← .ofExcept (loaded.mapError
    (⟨.warn, "idb-load-bindings", "IndexedDB load bindings failed", ·⟩))
  let built : Except NetError Unit ← ask .netNew
  .ofExcept (built.mapError (fun e => ⟨.error, "net-build", "laye_net::new failed", e.display⟩))
  return { keypair, peerIdHex := hexLower key.bytes, selfPubkey, selfBindings }

/-- The answers of one `init`, by operation. -/
def AppState.InitAnswers.env (answers : AppState.InitAnswers lib) : (o : InitOp) → o.Ans lib
  | .idbOpen => answers.idbOpen
  | .idbLoadBytes => answers.idbLoadBytes
  | .fresh => answers.fresh
  | .idbSaveBytes _ => answers.idbSaveBytes
  | .idbLoadBindings => answers.idbLoadBindings
  | .netNew => answers.netNew

lemma loadOrGenerate_answered (answers : AppState.InitAnswers lib) :
    (loadOrGenerate deps).answered answers.env = AppState.loadIdentity deps answers := by
  obtain ⟨idbOpen, idbLoadBytes, fresh, idbSaveBytes, idbLoadBindings, netNew, -, -⟩ := answers
  cases idbOpen with
  | error e => rfl
  | ok =>
    cases idbLoadBytes with
    | error e => rfl
    | ok existing =>
      cases existing with
      | some bytes => exact Program.answered_ofExcept _ _
      | none =>
        refine (Program.answered_bind _ (.ofExcept ((deps.keypairBytes fresh).mapError _)) _).trans ?_
        rw [Program.answered_ofExcept]
        simp only [AppState.loadIdentity]
        cases deps.keypairBytes fresh with
        | error e => rfl
        | ok bytes => cases idbSaveBytes <;> rfl

/-- A tab that runs alone does what `prepare` does. -/
theorem initTab_answered (configJson : String) (answers : AppState.InitAnswers lib) :
    (initTab deps configJson).answered answers.env = AppState.prepare deps configJson answers := by
  unfold initTab AppState.prepare
  rw [Program.answered_bind, Program.answered_ofExcept]
  congr 1
  funext config
  cases config.topics.find? isInternalTopic with
  | some bad => rfl
  | none =>
    refine (Program.answered_bind _ (loadOrGenerate deps) _).trans ?_
    rw [loadOrGenerate_answered]
    congr 1
    funext keypair
    rw [Program.answered_bind, Program.answered_ofExcept]
    congr 1
    funext key
    cases selfPeerPubkey lib keypair with
    | none => rfl
    | some selfPubkey =>
      obtain ⟨-, -, -, -, idbLoadBindings, netNew, -, -⟩ := answers
      cases idbLoadBindings with
      | error e => rfl
      | ok selfBindings => cases netNew <;> rfl

/-! ### The profile -/

/-- What the tabs share: the key in IndexedDB. -/
structure Profile where
  identity : Option Bytes

/-- IndexedDB serves one transaction at a time, or fails it and changes nothing. The key generator
and the rest of `init` may answer anything. -/
def Profile.Serves (lib : Libp2pIdentity) (s : Profile) : (o : InitOp) → o.Ans lib → Profile → Prop
  | .idbLoadBytes, x, s' => (x = .ok s.identity ∨ ∃ e, x = .error e) ∧ s' = s
  | .idbSaveBytes bytes, x, s' => (x = .ok () ∧ s' = ⟨some bytes⟩) ∨ ((∃ e, x = .error e) ∧ s' = s)
  | _, _, s' => s' = s

def tabSystem : System Profile InitOp (InitOp.Ans lib) Failure (AppState.Identity lib) String where
  body := initTab deps
  serve := Profile.Serves lib
  tick _ _ := False

abbrev TabPool (lib : Libp2pIdentity) : Type :=
  Pool Profile InitOp (InitOp.Ans lib) Failure (AppState.Identity lib) String

/-- The event brings a tab the key it goes on with. -/
def Settles (bytes : Bytes) (e : InitEvent lib) : Prop :=
  e = ⟨.idbLoadBytes, .ok (some bytes)⟩ ∨ e = ⟨.idbSaveBytes bytes, .ok ()⟩

/-- `from_protobuf_encoding` reads back what `to_protobuf_encoding` writes. -/
def Deps.KeypairRoundTrip (deps : Deps lib) : Prop :=
  ∀ keypair bytes, deps.keypairBytes keypair = .ok bytes → deps.loadKeypair bytes = .ok keypair

lemma returns_ask_iff {o : InitOp} {tr : List (InitEvent lib)} {x : o.Ans lib} :
    Returns (ask o : InitProgram lib _) tr x ↔ tr = [⟨o, x⟩] := by
  constructor
  · intro h
    obtain ⟨y, tr', rfl, hdone⟩ := returns_op_iff.mp h
    obtain ⟨rfl, rfl⟩ := returns_done_iff.mp hdone
    rfl
  · rintro rfl
    exact .cons (.nil _)

lemma mapError_eq_ok {ε ε' α : Type} {f : ε → ε'} {r : Except ε α} {a : α} :
    r.mapError f = .ok a ↔ r = .ok a := by
  cases r <;> simp [Except.mapError]

lemma loadOrGenerate_settles (hcodec : deps.KeypairRoundTrip) {tr : List (InitEvent lib)}
    {keypair : lib.Keypair} (h : Returns (loadOrGenerate deps) tr keypair) :
    ∃ bytes, (∃ e ∈ tr, Settles bytes e) ∧ deps.loadKeypair bytes = .ok keypair := by
  unfold loadOrGenerate at h
  obtain ⟨tr₁, rest₁, opened, rfl, -, h₁⟩ := returns_bind_iff.mp h
  obtain ⟨tr₂, rest₂, -, rfl, -, h₂⟩ := returns_bind_iff.mp h₁
  obtain ⟨tr₃, rest₃, loaded, rfl, hload, h₃⟩ := returns_bind_iff.mp h₂
  obtain ⟨tr₄, rest₄, existing, rfl, hexisting, h₄⟩ := returns_bind_iff.mp h₃
  have hloaded : loaded = .ok existing := mapError_eq_ok.mp (returns_ofExcept_iff.mp hexisting).2
  rw [returns_ask_iff.mp hload, hloaded]
  cases existing with
  | some bytes =>
    have hkeypair := mapError_eq_ok.mp (returns_ofExcept_iff.mp h₄).2
    exact ⟨bytes, ⟨_, by simp, Or.inl rfl⟩, hkeypair⟩
  | none =>
    obtain ⟨tr₅, rest₅, fresh, rfl, -, h₅⟩ := returns_bind_iff.mp h₄
    obtain ⟨tr₆, rest₆, bytes, rfl, hbytes, h₆⟩ := returns_bind_iff.mp h₅
    obtain ⟨tr₇, rest₇, saved, rfl, hsave, h₇⟩ := returns_bind_iff.mp h₆
    obtain ⟨tr₈, rest₈, u, rfl, hsaved, h₈⟩ := returns_bind_iff.mp h₇
    have hok : saved = .ok () := mapError_eq_ok.mp (returns_ofExcept_iff.mp hsaved).2
    have hfresh : keypair = fresh := (returns_done_iff.mp h₈).2
    rw [returns_ask_iff.mp hsave, hok, hfresh]
    have hround := hcodec _ _ (mapError_eq_ok.mp (returns_ofExcept_iff.mp hbytes).2)
    exact ⟨bytes, ⟨_, by simp, Or.inr rfl⟩, hround⟩

/-- A tab that is through has the key that its own load or save settled on, and the id of that
key. -/
lemma initTab_returns {configJson : String} {tr : List (InitEvent lib)}
    {identity : AppState.Identity lib} (h : Returns (initTab deps configJson) tr identity) :
    (∃ tr' ⊆ tr, Returns (loadOrGenerate deps) tr' identity.keypair) ∧
      ∃ key, lib.tryIntoEd25519 identity.keypair = .ok key ∧
        identity.peerIdHex = hexLower key.bytes := by
  unfold initTab at h
  obtain ⟨tr₁, rest₁, config, rfl, -, h₁⟩ := returns_bind_iff.mp h
  cases hguard : config.topics.find? isInternalTopic with
  | some bad => simp [hguard] at h₁
  | none =>
    simp only [hguard] at h₁
    obtain ⟨tr₂, rest₂, keypair, rfl, hkeypair, h₂⟩ := returns_bind_iff.mp h₁
    obtain ⟨tr₃, rest₃, key, rfl, hkey, h₃⟩ := returns_bind_iff.mp h₂
    cases hself : selfPeerPubkey lib keypair with
    | none => simp [hself] at h₃
    | some selfPubkey =>
      simp only [hself] at h₃
      obtain ⟨tr₄, rest₄, loaded, rfl, -, h₄⟩ := returns_bind_iff.mp h₃
      obtain ⟨tr₅, rest₅, selfBindings, rfl, -, h₅⟩ := returns_bind_iff.mp h₄
      obtain ⟨tr₆, rest₆, built, rfl, -, h₆⟩ := returns_bind_iff.mp h₅
      obtain ⟨tr₇, rest₇, -, rfl, -, h₇⟩ := returns_bind_iff.mp h₆
      rw [(returns_done_iff.mp h₇).2]
      refine ⟨⟨tr₂, fun e he => ?_, hkeypair⟩, key, ?_, rfl⟩
      · simp [he]
      · exact mapError_eq_ok.mp (returns_ofExcept_iff.mp hkey).2

lemma prepare_ok {configJson : String} {answers : AppState.InitAnswers lib}
    {identity : AppState.Identity lib} (h : AppState.prepare deps configJson answers = .ok identity) :
    AppState.loadIdentity deps answers = .ok identity.keypair ∧
      ∃ key, lib.tryIntoEd25519 identity.keypair = .ok key ∧
        identity.peerIdHex = hexLower key.bytes := by
  rw [← initTab_answered] at h
  obtain ⟨tr, hreturns, hfollows⟩ := exists_returns_of_answered h
  obtain ⟨⟨tr', hsub, hload⟩, hkey⟩ := initTab_returns deps hreturns
  rw [← loadOrGenerate_answered]
  exact ⟨answered_of_returns hload fun e he => hfollows e (hsub he), hkey⟩

/-! ### All tabs -/

/-- Every key a tab has settled on is the stored one. -/
def KeysSettled (P : TabPool lib) : Prop :=
  ∀ e ∈ P.log, ∀ bytes, Settles bytes e.event →
    ∃ stored, P.shared.identity = some stored ∧ deps.loadKeypair stored = deps.loadKeypair bytes

/-- No save replaces a stored key by another one. -/
def NoKeyReplaced (log : List (Entry Profile InitOp (InitOp.Ans lib))) : Prop :=
  ∀ e ∈ log, ∀ bytes stored, e.event = ⟨.idbSaveBytes bytes, .ok ()⟩ →
    e.before.identity = some stored → deps.loadKeypair bytes = deps.loadKeypair stored

lemma keysSettled_step {P Q : TabPool lib} (h : KeysSettled deps P)
    (hstep : Step (tabSystem deps) P Q) (hlog : NoKeyReplaced deps Q.log) : KeysSettled deps Q := by
  cases hstep with
  | arrive job => exact h
  | tick s' htick => exact htick.elim
  | turn i job o next x s' hi hserve =>
    -- what was settled before, should the stored key be the same or decode alike
    have hold : (∀ stored, P.shared.identity = some stored → ∃ stored', s'.identity = some stored' ∧
          deps.loadKeypair stored' = deps.loadKeypair stored) →
        (∀ bytes, Settles bytes (⟨o, x⟩ : InitEvent lib) → ∃ stored, s'.identity = some stored ∧
          deps.loadKeypair stored = deps.loadKeypair bytes) →
        KeysSettled deps (P.served i job ⟨o, x⟩ (next x) s') := by
      intro hsame hnew e he bytes hsettles
      rcases List.mem_append.mp he with he | he
      · obtain ⟨stored, hstored, hload⟩ := h e he bytes hsettles
        obtain ⟨stored', hstored', hload'⟩ := hsame stored hstored
        exact ⟨stored', hstored', hload'.trans hload⟩
      · rw [List.mem_singleton.mp he] at hsettles
        exact hnew bytes hsettles
    have hentry : (⟨i, P.shared, ⟨o, x⟩⟩ : Entry Profile InitOp (InitOp.Ans lib)) ∈
        (P.served i job ⟨o, x⟩ (next x) s').log := List.mem_append_right _ (List.mem_singleton_self _)
    cases o with
    | idbLoadBytes =>
      obtain ⟨hx, rfl⟩ := hserve
      refine hold (fun stored hstored => ⟨stored, hstored, rfl⟩) ?_
      rintro bytes (heq | heq)
      · cases heq
        rcases hx with hx | ⟨e, hx⟩
        · exact ⟨bytes, (Except.ok.inj hx).symm, rfl⟩
        · cases hx
      · cases heq
    | idbSaveBytes saved =>
      rcases hserve with ⟨rfl, rfl⟩ | ⟨⟨e, rfl⟩, rfl⟩
      · refine hold (fun stored hstored => ⟨saved, rfl, ?_⟩) ?_
        · exact hlog _ hentry saved stored rfl hstored
        · rintro bytes (heq | heq)
          · cases heq
          · cases heq
            exact ⟨saved, rfl, rfl⟩
      · refine hold (fun stored hstored => ⟨stored, hstored, rfl⟩) ?_
        rintro bytes (heq | heq) <;> cases heq
    | idbOpen | fresh | idbLoadBindings | netNew =>
      obtain rfl : s' = P.shared := hserve
      refine hold (fun stored hstored => ⟨stored, hstored, rfl⟩) ?_
      rintro bytes (heq | heq) <;> cases heq

lemma keysSettled_run {s : Profile} {P : TabPool lib} (h : Run (tabSystem deps) (.start s) P)
    (hlog : NoKeyReplaced deps P.log) : KeysSettled deps P := by
  induction h with
  | refl =>
    intro e he
    cases he
  | @tail Q R _ hstep ih =>
    have hgrow : ∀ e ∈ Q.log, e ∈ R.log := by
      cases hstep with
      | arrive | tick => exact fun e he => he
      | turn => exact fun e he => List.mem_append_left _ he
    exact keysSettled_step deps (ih fun e he => hlog e (hgrow e he)) hstep hlog

/-- As long as no save replaces a stored key by another one: every tab that is through runs under
the stored key, and whoever loads the profile then gets the same key and peer id. -/
theorem one_identity_per_profile (hcodec : deps.KeypairRoundTrip) (s : Profile) (P : TabPool lib)
    (h : Run (tabSystem deps) (.start s) P) (hrace : NoKeyReplaced deps P.log) (i : Nat)
    (configJson : String) (identity : AppState.Identity lib)
    (hi : P.threads[i]? = some (configJson, .done identity)) :
    (∃ stored, P.shared.identity = some stored ∧
      deps.loadKeypair stored = .ok identity.keypair) ∧
    ∀ configJson' answers reloaded, answers.idbLoadBytes = .ok P.shared.identity →
      AppState.prepare deps configJson' answers = .ok reloaded →
        reloaded.keypair = identity.keypair ∧ reloaded.peerIdHex = identity.peerIdHex := by
  have hreturns : Returns (initTab deps configJson) (eventsOf i P.log) identity := h.returns hi
  obtain ⟨⟨tr', hsub, hload⟩, key, hkey, hid⟩ := initTab_returns deps hreturns
  obtain ⟨bytes, ⟨e, he, hsettles⟩, hbytes⟩ := loadOrGenerate_settles deps hcodec hload
  obtain ⟨n, entry, hn, -, rfl⟩ := mem_eventsOf.mp (hsub he)
  obtain ⟨stored, hstored, heq⟩ :=
    keysSettled_run deps h hrace entry (List.mem_of_getElem? hn) bytes hsettles
  have hkept : deps.loadKeypair stored = .ok identity.keypair := heq.trans hbytes
  refine ⟨⟨stored, hstored, hkept⟩, fun configJson' answers reloaded hanswer hprepare => ?_⟩
  obtain ⟨hidentity, key', hkey', hid'⟩ := prepare_ok deps hprepare
  have hsame : reloaded.keypair = identity.keypair := by
    rw [hstored] at hanswer
    cases hopen : answers.idbOpen with
    | error e => simp [AppState.loadIdentity, hopen, Except.mapError, bind, Except.bind] at hidentity
    | ok =>
      simp only [AppState.loadIdentity, hopen, hanswer, hkept, Except.mapError, bind,
        Except.bind] at hidentity
      exact (Except.ok.inj hidentity).symm
  rw [hsame, hkey] at hkey'
  rw [hid', hid, Except.ok.inj hkey']
  exact ⟨hsame, rfl⟩

end Tabs

/-! ### Two tabs -/

namespace TabsExample

def loadKey (bytes : Bytes) : Except String PubKey :=
  if h : bytes.length = 32 then .ok ⟨bytes, h⟩ else .error "keypair protobuf decode"

/-- Keypairs are stored as their bytes. -/
def deps : Deps (Libp2pIdentity.recorded []) where
  serde := .ofTexts [(intoBytes "config", .object [("bootstrap_addrs", .array [])])]
  peerKey _ := none
  loadKeypair := loadKey
  keypairBytes (key : PubKey) := .ok key.bytes
  debugString s := s

lemma keypairRoundTrip : deps.KeypairRoundTrip := by
  intro (key : PubKey) bytes h
  obtain rfl : key.bytes = bytes := Except.ok.inj h
  exact dif_pos key.length_eq

/-- Nothing fails, and tab `i` mints the key `[i; 32]`. -/
def answer (i : Nat) (s : Profile) :
    (o : InitOp) → Option (o.Ans (Libp2pIdentity.recorded []) × Profile)
  | .idbOpen => some (.ok (), s)
  | .idbLoadBytes => some (.ok s.identity, s)
  | .fresh => some (PubKey.replicate (UInt8.ofNat i), s)
  | .idbSaveBytes bytes => some (.ok (), ⟨some bytes⟩)
  | .idbLoadBindings => some (.ok [], s)
  | .netNew => some (.ok (), s)

lemma serves_of_answer (i : Nat) (s : Profile) (o : InitOp)
    (x : o.Ans (Libp2pIdentity.recorded [])) (s' : Profile) (h : answer i s o = some (x, s')) :
    (tabSystem deps).serve s o x s' := by
  cases o with
  | idbLoadBytes =>
    cases h
    exact ⟨Or.inl rfl, rfl⟩
  | idbSaveBytes bytes =>
    cases h
    exact Or.inl ⟨rfl, rfl⟩
  | idbOpen | fresh | idbLoadBindings | netNew =>
    cases h
    rfl

/-- Two tabs on an empty profile, served as scheduled. -/
def pool (schedule : List Nat) : TabPool (Libp2pIdentity.recorded []) :=
  schedule.foldl (Pool.turn answer)
    (((Pool.start ⟨none⟩).arrive (tabSystem deps) "config").arrive (tabSystem deps) "config")

lemma run_pool (schedule : List Nat) : Run (tabSystem deps) (.start ⟨none⟩) (pool schedule) :=
  ((Relation.ReflTransGen.single (Step.arrive _ _)).tail (Step.arrive _ _)).trans
    (run_turns serves_of_answer schedule _)

def identity (i : UInt8) : AppState.Identity (Libp2pIdentity.recorded []) :=
  ⟨PubKey.replicate i, hexLower (PubKey.replicate i).bytes, PubKey.replicate i, []⟩

end TabsExample

open TabsExample in
/-- The second tab loads after the first has saved, and goes on with its key. -/
theorem one_identity_per_profile_in_turn :
    ∃ P : TabPool (Libp2pIdentity.recorded []), Run (tabSystem deps) (.start ⟨none⟩) P ∧
      P.threads[1]? = some ("config", .done (identity 0)) ∧
      ∃ stored, P.shared.identity = some stored ∧
        deps.loadKeypair stored = .ok (PubKey.replicate 0) := by
  have hthread : (pool [0, 0, 0, 0, 0, 0, 1, 1, 1, 1]).threads[1]? =
      some ("config", .done (identity 0)) := rfl
  refine ⟨_, run_pool [0, 0, 0, 0, 0, 0, 1, 1, 1, 1], hthread, ?_⟩
  refine (one_identity_per_profile deps keypairRoundTrip _ _ (run_pool _) ?_ 1 _ _ hthread).1
  intro e he bytes stored hsave hbefore
  obtain ⟨n, hn⟩ := List.mem_iff_getElem?.mp he
  have hlt : n < 10 := (List.getElem?_eq_some_iff.mp hn).1
  -- the only save is the fourth entry, and finds no key
  interval_cases n <;> cases hn <;> first | cases hbefore; done | cases hsave

open TabsExample in
/-- Both tabs load before either saves: the first ends with a key that is not stored. -/
theorem two_tabs_two_keys :
    ∃ (P : TabPool (Libp2pIdentity.recorded [])) (i : Nat) (configJson : String)
      (identity : AppState.Identity (Libp2pIdentity.recorded [])),
      Run (tabSystem deps) (.start ⟨none⟩) P ∧ P.threads[i]? = some (configJson, .done identity) ∧
      ¬∃ stored, P.shared.identity = some stored ∧
        deps.loadKeypair stored = .ok identity.keypair := by
  refine ⟨_, 0, "config", identity 0, run_pool [0, 0, 1, 1, 0, 0, 1, 1, 0, 0, 1, 1], rfl, ?_⟩
  rintro ⟨stored, hstored, hload⟩
  have hlast : (pool [0, 0, 1, 1, 0, 0, 1, 1, 0, 0, 1, 1]).shared.identity =
      some (PubKey.replicate 1).bytes := rfl
  rw [hlast] at hstored
  obtain rfl := Option.some.inj hstored
  have hkey : loadKey (PubKey.replicate 1).bytes = .ok (PubKey.replicate 1) :=
    keypairRoundTrip (PubKey.replicate 1) _ rfl
  have hsame : (.ok (PubKey.replicate 1) : Except String PubKey) = .ok (PubKey.replicate 0) :=
    hkey.symm.trans hload
  exact absurd (Except.ok.inj hsame) (by decide)

end Laye
