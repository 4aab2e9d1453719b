import Laye.Calls
import Laye.Drive

/-!
# The client with its drive tasks

`init` builds a `Net` and spawns its drive task; what the client hands over goes through the
channel of that task to gossipsub, and what the client polls is what the task pushed. An `init`
that gets to its commit again drops the old `Net`, whose task goes on until its channel is empty.
-/

namespace Laye

/-- The payloads handed to `net.publish`, as commands. -/
def handedIn (log : List Observation) : List Cmd :=
  log.filterMap fun
    | .handed topic bytes => some (.publish topic bytes)
    | _ => none

lemma handedIn_append (as bs : List Observation) :
    handedIn (as ++ bs) = handedIn as ++ handedIn bs :=
  List.filterMap_append

def Cmd.isPublish : Cmd → Bool
  | .publish .. => true
  | _ => false

/-- A command the client may send. -/
def Cmd.OfClient : Cmd → Prop
  | .publish .. => True
  | .subscribe topic => isInternalTopic topic = false
  | .unsubscribe _ => False

/-- The events that `poll_events` returns to a call. -/
def ClientOp.events {lib : Libp2pIdentity} : ClientOp lib → List NetEvent
  | .pendingBytes events .. | .recvBytes events .. => events
  | _ => []

namespace AppState

variable {lib : Libp2pIdentity} {deps : Deps lib} {st st' : AppState lib}

/-! ### What a call leaves of the log and the net -/

lemma log_move (h : Move deps st st') : ∃ added, st'.log = st.log ++ added := by
  cases h with
  | quiet h =>
    obtain ⟨added, hlog, -⟩ := h.log
    exact ⟨added, hlog⟩
  | own | commit => exact ⟨[_], rfl⟩
  | accept => exact ⟨[], (List.append_nil _).symm⟩
  | event selfPubkey selfPeerId acc e =>
    rcases drainEvent_cases deps selfPubkey selfPeerId acc e with
      ⟨hlog, -, -⟩ | ⟨_, _, _, _, _, -, -, hst⟩ | ⟨_, _, _, _, -, -, hst⟩
    · exact ⟨[_], hlog⟩
    · exact ⟨[_, _], by rw [hst]; exact List.append_assoc _ _ _⟩
    · exact ⟨[_], by rw [hst]; rfl⟩

lemma log_step {op : ClientOp lib} (h : step deps st op = .ok st') :
    ∃ added, st'.log = st.log ++ added := by
  have hmoves := moves_step deps op h
  clear h
  induction hmoves with
  | refl => exact ⟨[], (List.append_nil _).symm⟩
  | tail _ hlast ih =>
    obtain ⟨added, hadded⟩ := ih
    obtain ⟨last, hlog⟩ := log_move hlast
    exact ⟨added ++ last, by rw [hlog, hadded, List.append_assoc]⟩

/-- Nothing is handed over on the way to a state without a net. -/
def HandsOnlyToNet (st st' : AppState lib) : Prop :=
  st'.net = none → st.net = none ∧ handedIn st'.log = handedIn st.log

lemma handsOnlyToNet_act {P : String → Bytes → Prop} (h : Act deps P st st') :
    HandsOnlyToNet st st' := by
  intro hnone
  cases h with
  | page | accept => exact ⟨hnone, rfl⟩
  | own => exact ⟨hnone, (handedIn_append _ [_]).trans (List.append_nil _)⟩
  | commit => cases hnone
  | close => exact ⟨Option.map_eq_none_iff.mp hnone, rfl⟩
  | send topic bytes =>
    have hwas : st.net = none := by
      obtain ⟨_, _, hframe, -⟩ := sendOrBuffer_frame st topic bytes
      rwa [hframe] at hnone
    refine ⟨hwas, ?_⟩
    simp only [sendOrBuffer]
    split
    · simp only [netPublish, observe, hwas]
      exact (handedIn_append _ [_]).trans (List.append_nil _)
    · exact (handedIn_append _ [_]).trans (List.append_nil _)

lemma handsOnlyToNet_step {op : ClientOp lib} (h : step deps st op = .ok st') :
    HandsOnlyToNet st st' := by
  cases hop : op.drains with
  | false =>
    refine (acts_step deps hop h).induction deps (motive := HandsOnlyToNet) (fun _ h => ⟨h, rfl⟩)
      (fun _ _ _ h h' hnone => ?_) (fun _ _ => handsOnlyToNet_act)
    exact ⟨(h (h' hnone).1).1, (h' hnone).2.trans (h (h' hnone).1).2⟩
  | true =>
    obtain ⟨order, events, rx, -, rfl⟩ := step_of_drains deps hop h
    intro hnone
    have hwas : st.net = none := (drainNetEvents_net deps st order events).symm.trans hnone
    obtain ⟨page, rx', heq⟩ := drainNetEvents_unwired deps hwas order events
    rw [heq]
    exact ⟨hwas, rfl⟩

lemma net_surfaced (r : Option LayeError × AppState lib) : (surfaced r).net = r.2.net := by
  obtain ⟨_ | err, st⟩ := r <;> rfl

lemma net_sendOrBuffer (st : AppState lib) (topic : String) (bytes : Bytes) :
    (st.sendOrBuffer topic bytes).2.net = st.net := by
  obtain ⟨_, _, hframe, -⟩ := sendOrBuffer_frame st topic bytes
  rw [hframe]

lemma net_publish (st : AppState lib) (topic : String) (bytes : Bytes) :
    (st.publish topic bytes).net = st.net := by
  rw [publish, net_surfaced, publishInner]
  split
  · rfl
  · have h := net_sendOrBuffer st topic bytes
    split <;> rename_i hsend <;> rw [hsend] at h <;> exact h

lemma net_subscribeOpaque (st : AppState lib) (topic : String) :
    (st.subscribeOpaque topic).net = st.net := by
  rw [subscribeOpaque, net_surfaced, subscribeOpaqueInner]
  split
  · rfl
  · split
    · split <;> rfl
    · rfl

lemma net_sendChat (st : AppState lib) (value : String) (now : UInt64) :
    (sendChat deps st value now).net = st.net := by
  unfold sendChat
  split
  · rfl
  · rw [net_surfaced, publishChat]
    split
    · rfl
    · split
      · rfl
      · rename_i bytes _
        have h := net_sendOrBuffer st CHAT_TOPIC bytes
        split <;> rename_i hsend <;> rw [hsend] at h <;> exact h

lemma net_republishSelfBindings (st : AppState lib) :
    (republishSelfBindings deps st).net = st.net := by
  unfold republishSelfBindings
  split
  · rfl
  · have h := net_sendOrBuffer st IDENTITY_TOPIC (encodeWire deps.serde st.selfBindings)
    split <;> rename_i hsend <;> rw [hsend] at h <;> exact h

lemma net_login (st : AppState lib) (json : String) : (login deps st json).net = st.net := by
  rw [login, net_surfaced, handleLoginMessage]
  split
  · rfl
  · rfl
  · exact net_republishSelfBindings _

lemma net_init (st : AppState lib) (configJson : String) (answers : InitAnswers lib) :
    (init deps st configJson answers).net = (prepare deps configJson answers).toOption.elim st.net
      fun identity => some ⟨identity.keypair, false⟩ := by
  have hinner : (init deps st configJson answers).net =
      (initInner deps st configJson answers).2.net := by
    unfold init
    split <;> rename_i hresult <;> rw [hresult] <;> rfl
  rw [hinner, initInner]
  split
  · rename_i hprepare
    rw [hprepare]
    rfl
  · rename_i identity hprepare
    rw [hprepare]
    split
    · rfl
    · rfl
    · rfl
    · exact net_republishSelfBindings _

end AppState

/-- A client, the task of its net, and the tasks of the nets it had before, oldest first. -/
structure Node (lib : Libp2pIdentity) where
  st : AppState lib
  current : Option Drive
  retired : List Drive

namespace Node

open AppState

variable {lib : Libp2pIdentity}

def start (dom : DomContext) : Node lib := ⟨AppState.start dom, none, []⟩

def drives (n : Node lib) : List Drive := n.retired ++ n.current.toList

/-- `subscribe_opaque_inner` sends on behalf of the host. -/
def subscribes : ClientOp lib → List Cmd
  | .subscribeOpaque topic => if isInternalTopic topic then [] else [.subscribe topic]
  | _ => []

/-- The commands of a call which leads from `st` to `st'`. -/
def commandsOf (op : ClientOp lib) (st st' : AppState lib) : List Cmd :=
  subscribes op ++ handedIn (st'.log.drop st.log.length)

/-- The configuration of an `init` that gets to its commit, and who the client is by it. -/
def committed (deps : Deps lib) : ClientOp lib → Option (BootConfig × Identity lib)
  | .init configJson answers => do
    let config ← (deps.serde.read BootConfig.ofJson (intoBytes configJson)).toOption
    let identity ← (prepare deps configJson answers).toOption
    return (config, identity)
  | _ => none

/-- The topics of the host and those `init_inner` appends. -/
def allTopics (config : BootConfig) : List String :=
  config.topics ++ [CHAT_TOPIC, LEGACY_CHAT_TOPIC, IDENTITY_TOPIC]

/-- The key and the arguments with which such an `init` calls `laye_net::new`. -/
def spawned (deps : Deps lib) (op : ClientOp lib) : Option (lib.Keypair × Drive) :=
  (committed deps op).map fun (config, identity) =>
    (identity.keypair, Drive.new config.bootstrapAddrs (allTopics config))

/-- A call of the host leads to the state `st'`. -/
def called (deps : Deps lib) (n : Node lib) (op : ClientOp lib) (st' : AppState lib) : Node lib :=
  let send (d : Drive) : Drive := (commandsOf op n.st st').foldl Drive.send d
  match spawned deps op with
  | none => { n with st := st', current := n.current.map send }
  | some (_, d) =>
    { st := st'
      current := some (send d)
      retired := n.retired ++ (n.current.map Drive.dropNet).toList }

/-- `std::mem::take` of the events of the net. -/
def poll (n : Node lib) : Node lib :=
  { n with current := n.current.map fun d => d.pollEvents.2 }

/-- The events that wait for the client. -/
def waiting (n : Node lib) : List NetEvent := n.current.elim [] Drive.events

/-- The channel of a task that ended is closed. -/
def noticeEnd (st : AppState lib) (d : Drive) : AppState lib :=
  if d.phase = .ended then { st with net := st.net.map fun net => { net with closed := true } }
  else st

/-- A call of the host, which the list has, or a turn of a task. -/
inductive Step (deps : Deps lib) (swarm : Swarm) : Node lib → List (ClientOp lib) → Node lib → Prop
  | call (n : Node lib) (op : ClientOp lib) (st' : AppState lib) (hop : op.drains = false)
      (hend : op ≠ .driveEnded) (h : step deps n.st op = .ok st') :
      Step deps swarm n [op] (n.called deps op st')
  | drain (n : Node lib) (op : ClientOp lib) (st' : AppState lib) (hop : op.drains = true)
      (hevents : op.events = n.waiting) (h : step deps n.st op = .ok st') :
      Step deps swarm n [op] (n.poll.called deps op st')
  | work (n : Node lib) (d d' : Drive) (hd : n.current = some d) (h : d.Works swarm d') :
      Step deps swarm n [] { n with st := noticeEnd n.st d', current := some d' }
  | retired (n : Node lib) (older newer : List Drive) (d d' : Drive)
      (hd : n.retired = older ++ d :: newer) (h : d.Works swarm d') :
      Step deps swarm n [] { n with retired := older ++ d' :: newer }

/-- Calls of the host and turns of the tasks, in any order; the list has the calls. -/
inductive Run (deps : Deps lib) (swarm : Swarm) : Node lib → List (ClientOp lib) → Node lib → Prop
  | refl (n : Node lib) : Run deps swarm n [] n
  | tail {n m n' : Node lib} {calls more : List (ClientOp lib)} (hrun : Run deps swarm n calls m)
      (h : Step deps swarm m more n') : Run deps swarm n (calls ++ more) n'

/-! ### Calls and their commands -/

variable {deps : Deps lib} {swarm : Swarm} {dom : DomContext} {n n' : Node lib}
  {st' : AppState lib} {op : ClientOp lib} {calls more : List (ClientOp lib)}

lemma config_of_prepare {configJson : String} {answers : InitAnswers lib} {identity : Identity lib}
    (h : prepare deps configJson answers = .ok identity) :
    ∃ config, deps.serde.read BootConfig.ofJson (intoBytes configJson) = .ok config := by
  obtain ⟨config, hconfig, -⟩ := bind_eq_ok.mp h
  cases hread : deps.serde.read BootConfig.ofJson (intoBytes configJson) with
  | ok config => exact ⟨config, rfl⟩
  | error e => simp [hread, Except.mapError] at hconfig

/-- The net changes with the task, and is never closed by a call. -/
lemma net_step {st : AppState lib} (hend : op ≠ .driveEnded) (h : step deps st op = .ok st') :
    st'.net = (spawned deps op).elim st.net fun s => some ⟨s.1, false⟩ := by
  cases op with
  | init configJson answers =>
    cases h
    rw [net_init, spawned, committed]
    cases hprepare : prepare deps configJson answers with
    | error e => cases (deps.serde.read BootConfig.ofJson (intoBytes configJson)).toOption <;> rfl
    | ok identity =>
      obtain ⟨config, hconfig⟩ := config_of_prepare hprepare
      rw [hconfig]
      rfl
  | publish topic bytes => cases h; exact net_publish st topic bytes
  | subscribeOpaque topic => cases h; exact net_subscribeOpaque st topic
  | sendChat value now => cases h; exact net_sendChat st value now
  | login json => cases h; exact net_login st json
  | pendingBytes | recvBytes =>
    obtain ⟨order, events, rx, -, rfl⟩ := step_of_drains deps rfl h
    exact drainNetEvents_net deps st order events
  | emitError payload => cases h; cases payload <;> rfl
  | dismissError id => cases h; rfl
  | driveEnded => exact absurd rfl hend

lemma ofClient_commandsOf (op : ClientOp lib) (st st' : AppState lib) :
    ∀ cmd ∈ commandsOf op st st', cmd.OfClient := by
  intro cmd hcmd
  rcases List.mem_append.mp hcmd with hcmd | hcmd
  · cases op with
    | subscribeOpaque topic =>
      cases hinternal : isInternalTopic topic <;> simp [subscribes, hinternal] at hcmd
      subst hcmd
      exact hinternal
    | _ => cases hcmd
  · obtain ⟨o, -, ho⟩ := List.mem_filterMap.mp hcmd
    cases o <;> cases ho
    trivial

lemma filter_handedIn (log : List Observation) :
    (handedIn log).filter Cmd.isPublish = handedIn log := by
  rw [List.filter_eq_self]
  intro cmd hcmd
  obtain ⟨o, -, ho⟩ := List.mem_filterMap.mp hcmd
  cases o <;> cases ho
  rfl

/-- The payloads among the commands of a call are those it hands over. -/
lemma filter_commandsOf {st : AppState lib} (h : step deps st op = .ok st') :
    handedIn st.log ++ (commandsOf op st st').filter Cmd.isPublish = handedIn st'.log := by
  obtain ⟨added, hlog⟩ := log_step h
  have hhost : (subscribes op).filter Cmd.isPublish = [] := by
    cases op with
    | subscribeOpaque topic =>
      rw [subscribes]
      split <;> rfl
    | _ => rfl
  rw [commandsOf, List.filter_append, filter_handedIn, hhost, hlog, List.drop_left, handedIn_append]
  rfl

lemma spawned_eq {s : lib.Keypair × Drive} (h : spawned deps op = some s) :
    ∃ config identity, committed deps op = some (config, identity) ∧
      s.2 = Drive.new config.bootstrapAddrs (allTopics config) := by
  obtain ⟨⟨config, identity⟩, hcommitted, rfl⟩ := Option.map_eq_some_iff.mp h
  exact ⟨config, identity, hcommitted, rfl⟩

lemma committed_of_not_spawned (h : spawned deps op = none) : committed deps op = none :=
  Option.map_eq_none_iff.mp h

lemma drives_called (deps : Deps lib) (n : Node lib) (op : ClientOp lib) (st' : AppState lib) :
    (n.called deps op st').drives =
      (spawned deps op).elim
        (n.retired ++ (n.current.map ((commandsOf op n.st st').foldl Drive.send)).toList)
        fun s => n.retired ++ (n.current.map Drive.dropNet).toList ++
          [(commandsOf op n.st st').foldl Drive.send s.2] := by
  unfold called drives
  cases spawned deps op <;> rfl

/-- What a call adds to what all tasks together recorded. -/
lemma flatMap_called {α : Type} (f : List Moment → List α)
    (happend : ∀ as bs, f (as ++ bs) = f as ++ f bs) (n : Node lib) (op : ClientOp lib)
    (st' : AppState lib) :
    (n.called deps op st').drives.flatMap (fun d => f d.history) =
      n.drives.flatMap (fun d => f d.history) ++
        if n.current = none ∧ spawned deps op = none then []
        else f ((commandsOf op n.st st').map .sent) := by
  rw [drives_called, drives]
  cases hspawned : spawned deps op with
  | none =>
    cases hcurrent : n.current with
    | none => simp
    | some d => simp [Drive.foldl_send, happend]
  | some s =>
    obtain ⟨config, identity, -, hnew⟩ := spawned_eq hspawned
    cases hcurrent : n.current <;> simp [hnew, Drive.foldl_send, Drive.new, Drive.dropNet]

/-! ### The invariant -/

/-- The arguments of a task are those that an `init` with this configuration gives it. -/
def configured (config : BootConfig) : List String × List String :=
  (config.bootstrapAddrs, allTopics config)

/-- The arguments of the tasks, in the order of the `init`s that spawned them. -/
def configuredBy (deps : Deps lib) (calls : List (ClientOp lib)) : List (List String × List String) :=
  calls.filterMap fun op => (committed deps op).map fun c => configured c.1

def argumentsOf (d : Drive) : List String × List String := (d.bootstrapAddrs, d.topics)

/-- The commands of the task are the client's. -/
def Serves (d : Drive) : Prop := ∀ cmd ∈ Drive.sentCmds d.history, cmd.OfClient

/-- What holds between the client and its tasks, but for the events polled. -/
structure Linked (deps : Deps lib) (swarm : Swarm) (dom : DomContext) (calls : List (ClientOp lib))
    (n : Node lib) : Prop where
  client : run deps (AppState.start dom) calls = .ok n.st
  arguments : n.drives.map argumentsOf = configuredBy deps calls
  tasks : ∀ d ∈ n.drives, d.Sound swarm ∧ Serves d
  connected : ∀ d, n.current = some d → d.netGone = false
  wired : n.current = none ↔ n.st.net = none
  open_ : ∀ net, n.st.net = some net → net.closed = false
  handed : (n.drives.flatMap fun d => Drive.sentCmds d.history).filter Cmd.isPublish =
    handedIn n.st.log

lemma run_snoc {st st' : AppState lib} {ops : List (ClientOp lib)}
    (hrun : run deps (AppState.start dom) ops = .ok st) (h : step deps st op = .ok st') :
    run deps (AppState.start dom) (ops ++ [op]) = .ok st' := by
  have hall : ∀ (ops : List (ClientOp lib)) (st₀ : AppState lib), run deps st₀ ops = .ok st →
      run deps st₀ (ops ++ [op]) = .ok st' := by
    intro ops
    induction ops with
    | nil =>
      intro st₀ hrun
      cases hrun
      exact run_cons_eq_ok.mpr ⟨st', h, rfl⟩
    | cons first ops ih =>
      intro st₀ hrun
      obtain ⟨st₁, hfirst, hrest⟩ := run_cons_eq_ok.mp hrun
      exact run_cons_eq_ok.mpr ⟨st₁, hfirst, ih st₁ hrest⟩
  exact hall ops _ hrun

lemma serves_sends {d : Drive} (h : Serves d) {cmds : List Cmd} (hcmds : ∀ cmd ∈ cmds, cmd.OfClient) :
    Serves (cmds.foldl Drive.send d) := by
  rw [Drive.foldl_send]
  intro cmd hcmd
  simp only [Drive.sentCmds_append, Drive.sentCmds_sent, List.mem_append] at hcmd
  exact hcmd.elim (h cmd) (hcmds cmd)

lemma arguments_send (cmds : List Cmd) (d : Drive) :
    argumentsOf (cmds.foldl Drive.send d) = argumentsOf d := by
  rw [Drive.foldl_send]
  rfl

lemma arguments_works {d d' : Drive} (h : d.Works swarm d') : argumentsOf d' = argumentsOf d := by
  obtain ⟨-, -, -, haddrs, htopics⟩ := Drive.works_frame h
  rw [argumentsOf, haddrs, htopics, argumentsOf]

lemma configuredBy_append (as bs : List (ClientOp lib)) :
    configuredBy deps (as ++ bs) = configuredBy deps as ++ configuredBy deps bs :=
  List.filterMap_append

/-- A call spawns a task exactly when it is an `init` that gets to its commit. -/
lemma arguments_called (n : Node lib) (op : ClientOp lib) (st' : AppState lib) :
    (n.called deps op st').drives.map argumentsOf =
      n.drives.map argumentsOf ++ configuredBy deps [op] := by
  rw [drives_called, drives]
  cases hspawned : spawned deps op with
  | none =>
    have hnone : configuredBy deps [op] = [] := by
      rw [configuredBy, List.filterMap_cons, committed_of_not_spawned hspawned]
      rfl
    cases n.current <;> simp [hnone, arguments_send]
  | some s =>
    obtain ⟨config, identity, hcommitted, hnew⟩ := spawned_eq hspawned
    have hone : configuredBy deps [op] = [configured config] := by
      rw [configuredBy, List.filterMap_cons, hcommitted]
      rfl
    have hlast : argumentsOf ((commandsOf op n.st st').foldl Drive.send s.2) = configured config := by
      rw [arguments_send, hnew]
      rfl
    have hdropped : ∀ d : Drive, argumentsOf d.dropNet = argumentsOf d := fun _ => rfl
    cases n.current <;> simp [hone, hlast, hdropped]

/-- The payloads handed over are those in the channels, whether or not they are taken yet. -/
lemma handed_called (h : Linked deps swarm dom calls n) (hend : op ≠ .driveEnded)
    (hstep : step deps n.st op = .ok st') :
    ((n.called deps op st').drives.flatMap fun d => Drive.sentCmds d.history).filter Cmd.isPublish =
      handedIn st'.log := by
  rw [flatMap_called Drive.sentCmds Drive.sentCmds_append, List.filter_append, h.handed,
    Drive.sentCmds_sent]
  split
  case isFalse => exact filter_commandsOf hstep
  case isTrue hnone =>
    have hnet : st'.net = none := by
      rw [net_step hend hstep, hnone.2]
      exact h.wired.mp hnone.1
    rw [(handsOnlyToNet_step hstep hnet).2]
    exact List.append_nil _

lemma linked_called (h : Linked deps swarm dom calls n) (hend : op ≠ .driveEnded)
    (hstep : step deps n.st op = .ok st') :
    Linked deps swarm dom (calls ++ [op]) (n.called deps op st') := by
  have hclient := run_snoc h.client hstep
  have harguments : (n.called deps op st').drives.map argumentsOf = configuredBy deps (calls ++ [op]) := by
    rw [arguments_called, h.arguments, configuredBy_append]
  have hnet := net_step hend hstep
  have hhanded := handed_called h hend hstep
  have hcmds := ofClient_commandsOf op n.st st'
  have hdrives := drives_called deps n op st'
  unfold called at harguments hhanded hdrives ⊢
  cases hspawned : spawned deps op with
  | none =>
    rw [hspawned] at harguments hhanded hdrives hnet
    refine ⟨hclient, harguments, fun d hd => ?_, fun d hd => ?_, ?_, fun net => ?_, hhanded⟩
    · rw [hdrives] at hd
      rcases List.mem_append.mp hd with hd | hd
      · exact h.tasks d (List.mem_append_left _ hd)
      · obtain ⟨d, hcurrent, rfl⟩ := Option.map_eq_some_iff.mp (Option.mem_toList.mp hd)
        obtain ⟨hsound, hserves⟩ :=
          h.tasks d (List.mem_append_right _ (Option.mem_toList.mpr hcurrent))
        exact ⟨Drive.sound_sends hsound (h.connected d hcurrent) _, serves_sends hserves hcmds⟩
    · obtain ⟨d, hcurrent, rfl⟩ := Option.map_eq_some_iff.mp hd
      rw [Drive.foldl_send]
      exact h.connected d hcurrent
    · rw [Option.map_eq_none_iff, hnet]
      exact h.wired
    · rw [hnet]
      exact h.open_ net
  | some s =>
    rw [hspawned] at harguments hhanded hdrives hnet
    obtain ⟨config, identity, -, hnew⟩ := spawned_eq hspawned
    refine ⟨hclient, harguments, fun d hd => ?_, fun d hd => ?_, ?_, fun net hsome => ?_, hhanded⟩
    · rw [hdrives] at hd
      rcases List.mem_append.mp hd with hd | hd
      · rcases List.mem_append.mp hd with hd | hd
        · exact h.tasks d (List.mem_append_left _ hd)
        · obtain ⟨d, hcurrent, rfl⟩ := Option.map_eq_some_iff.mp (Option.mem_toList.mp hd)
          obtain ⟨hsound, hserves⟩ :=
            h.tasks d (List.mem_append_right _ (Option.mem_toList.mpr hcurrent))
          exact ⟨Drive.sound_step hsound (.dropNet d), hserves⟩
      · rw [List.mem_singleton.mp hd, hnew]
        exact ⟨Drive.sound_sends (Drive.sound_new swarm _ _) rfl _,
          serves_sends (fun _ => by simp [Drive.new, Drive.sentCmds]) hcmds⟩
    · have hlast : (commandsOf op n.st st').foldl Drive.send s.2 = d := Option.some.inj hd
      rw [← hlast, Drive.foldl_send, hnew]
      rfl
    · rw [hnet]
      simp
    · rw [hnet] at hsome
      rw [← Option.some.inj hsome]

/-- The current task moves on, and the commands sent to it stay what they are. -/
lemma linked_current (h : Linked deps swarm dom calls n) {d d' : Drive} (hd : n.current = some d)
    (hsound : d'.Sound swarm) (hsent : Drive.sentCmds d'.history = Drive.sentCmds d.history)
    (hgone : d'.netGone = d.netGone) (harguments : argumentsOf d' = argumentsOf d) :
    Linked deps swarm dom calls { n with current := some d' } where
  client := h.client
  arguments := by
    rw [← h.arguments]
    simp [drives, hd, harguments]
  tasks := by
    intro e he
    rcases List.mem_append.mp he with he | he
    · exact h.tasks e (List.mem_append_left _ he)
    · rw [List.mem_singleton.mp he]
      have hserves := (h.tasks d (List.mem_append_right _ (Option.mem_toList.mpr hd))).2
      exact ⟨hsound, fun cmd hcmd => hserves cmd (hsent ▸ hcmd)⟩
  connected := by
    intro e he
    cases he
    exact hgone.trans (h.connected d hd)
  wired := by simpa [hd] using h.wired
  open_ := h.open_
  handed := by
    rw [← h.handed]
    simp [drives, hd, hsent]

lemma linked_poll (h : Linked deps swarm dom calls n) : Linked deps swarm dom calls n.poll := by
  unfold poll
  cases hd : n.current with
  | none =>
    have heq : n = { n with current := none } := by rw [← hd]
    exact heq ▸ h
  | some d =>
    have hsound := (h.tasks d (List.mem_append_right _ (Option.mem_toList.mpr hd))).1
    exact linked_current h hd (Drive.sound_step hsound (.poll d (h.connected d hd)))
      ((Drive.sentCmds_append _ _).trans (List.append_nil _)) rfl rfl

lemma linked_work (h : Linked deps swarm dom calls n) {d d' : Drive} (hd : n.current = some d)
    (hworks : d.Works swarm d') :
    Linked deps swarm dom calls { n with st := noticeEnd n.st d', current := some d' } := by
  obtain ⟨hsent, -, hgone, -⟩ := Drive.works_frame hworks
  have hsound := Drive.sound_works
    (h.tasks d (List.mem_append_right _ (Option.mem_toList.mpr hd))).1 hworks
  -- a task whose `Net` is there does not end
  have hrunning : d'.phase ≠ .ended := by
    intro hended
    have hgone' := (hsound.ended hended).1
    rw [hgone, h.connected d hd] at hgone'
    cases hgone'
  rw [noticeEnd, if_neg hrunning]
  exact linked_current h hd hsound hsent hgone (arguments_works hworks)

lemma linked_retired (h : Linked deps swarm dom calls n) {older newer : List Drive} {d d' : Drive}
    (hd : n.retired = older ++ d :: newer) (hworks : d.Works swarm d') :
    Linked deps swarm dom calls { n with retired := older ++ d' :: newer } := by
  obtain ⟨hsent, -⟩ := Drive.works_frame hworks
  have hmem : ∀ e ∈ older ++ d' :: newer ++ n.current.toList, e = d' ∨ e ∈ n.drives := by
    intro e he
    simp only [drives, hd, List.mem_append, List.mem_cons] at he ⊢
    tauto
  have hdmem : d ∈ n.drives := by simp [drives, hd]
  refine ⟨h.client, ?_, fun e he => ?_, h.connected, h.wired, h.open_, ?_⟩
  · rw [← h.arguments]
    simp [drives, hd, arguments_works hworks]
  · rcases hmem e he with rfl | he
    · obtain ⟨hsound, hserves⟩ := h.tasks d hdmem
      exact ⟨Drive.sound_works hsound hworks, fun cmd hcmd => hserves cmd (hsent ▸ hcmd)⟩
    · exact h.tasks e he
  · rw [← h.handed]
    simp [drives, hd, hsent]

/-- What holds between the client, its tasks and their swarms at any time. -/
structure Sound (deps : Deps lib) (swarm : Swarm) (dom : DomContext) (calls : List (ClientOp lib))
    (n : Node lib) : Prop where
  linked : Linked deps swarm dom calls n
  polled : (n.drives.flatMap fun d => Drive.polledEvents d.history) = polledIn n.st.log

/-- A call sends commands, which no task polls. -/
lemma polled_called (n : Node lib) (op : ClientOp lib) (st' : AppState lib) :
    ((n.called deps op st').drives.flatMap fun d => Drive.polledEvents d.history) =
      n.drives.flatMap fun d => Drive.polledEvents d.history := by
  rw [flatMap_called Drive.polledEvents Drive.polledEvents_append, Drive.polledEvents_sent, ite_self,
    List.append_nil]

lemma polled_poll (n : Node lib) :
    (n.poll.drives.flatMap fun d => Drive.polledEvents d.history) =
      (n.drives.flatMap fun d => Drive.polledEvents d.history) ++ n.waiting := by
  unfold poll drives waiting
  cases n.current with
  | none => simp
  | some d => simp [Drive.pollEvents, Drive.observe, Drive.polledEvents]

theorem sound_step (h : Sound deps swarm dom calls n) (hstep : Step deps swarm n more n') :
    Sound deps swarm dom (calls ++ more) n' := by
  have hst : ∀ (n : Node lib) op st', (n.called deps op st').st = st' := by
    intro n op st'
    unfold called
    cases spawned deps op <;> rfl
  cases hstep with
  | call op st' hop hend hcall =>
    refine ⟨linked_called h.linked hend hcall, ?_⟩
    rw [polled_called, h.polled, hst, step_polled deps op hcall, polledBy_of_not_drains _ hop,
      List.append_nil]
  | drain op st' hop hevents hcall =>
    have hend : op ≠ .driveEnded := by
      rintro rfl
      cases hop
    refine ⟨linked_called (linked_poll h.linked) hend hcall, ?_⟩
    have hpolled : polledBy n.st op = n.waiting := by
      obtain ⟨order, events, rx, hpolled, -⟩ := step_of_drains deps hop hcall
      have hop' : polledBy n.st op = if n.st.net.isSome then op.events else [] := by
        cases op with
        | pendingBytes | recvBytes => rfl
        | _ => cases hop
      rw [hop', hevents]
      split
      case isTrue => rfl
      case isFalse hnone =>
        rw [waiting, h.linked.wired.mpr (by simpa using hnone)]
        rfl
    rw [polled_called, polled_poll, h.polled, hst, step_polled deps op hcall, hpolled]
  | work d d' hd hworks =>
    rw [List.append_nil]
    refine ⟨linked_work h.linked hd hworks, ?_⟩
    have hlog : (noticeEnd n.st d').log = n.st.log := by
      unfold noticeEnd
      split <;> rfl
    change _ = polledIn (noticeEnd n.st d').log
    rw [hlog, ← h.polled]
    simp [drives, hd, (Drive.works_frame hworks).2.1]
  | retired older newer d d' hd hworks =>
    rw [List.append_nil]
    refine ⟨linked_retired h.linked hd hworks, ?_⟩
    rw [← h.polled]
    simp [drives, hd, (Drive.works_frame hworks).2.1]

lemma sound_start (deps : Deps lib) (swarm : Swarm) (dom : DomContext) :
    Sound deps swarm dom [] (start dom) where
  linked := ⟨rfl, rfl, by simp [start, drives], nofun, by simp [start, AppState.start], nofun, rfl⟩
  polled := rfl

theorem sound_run (hrun : Run deps swarm (start dom) calls n) : Sound deps swarm dom calls n := by
  induction hrun with
  | refl => exact sound_start deps swarm dom
  | tail _ hstep ih => exact sound_step ih hstep

/-! ### From the host to gossipsub -/

def payloadsOn (topic : String) (cmds : List Cmd) : List Bytes :=
  cmds.filterMap fun
    | .publish t bytes => if t = topic then some bytes else none
    | _ => none

/-- What a swarm was asked to publish on a topic. -/
def publishedOn (topic : String) (calls : List SwarmCall) : List Bytes :=
  calls.filterMap fun
    | .publish t bytes => if t = topic then some bytes else none
    | _ => none

lemma payloadsOn_append (topic : String) (as bs : List Cmd) :
    payloadsOn topic (as ++ bs) = payloadsOn topic as ++ payloadsOn topic bs :=
  List.filterMap_append

lemma payloadsOn_handedIn (topic : String) (log : List Observation) :
    payloadsOn topic (handedIn log) = handedFor topic log := by
  rw [payloadsOn, handedIn, List.filterMap_filterMap, handedFor]
  congr 1
  funext o
  cases o <;> rfl

lemma payloadsOn_filter (topic : String) (cmds : List Cmd) :
    payloadsOn topic (cmds.filter Cmd.isPublish) = payloadsOn topic cmds := by
  rw [payloadsOn, List.filterMap_filter, payloadsOn]
  congr 1
  funext cmd
  cases cmd <;> rfl

lemma publishedOn_calls (topic : String) (cmds : List Cmd) :
    publishedOn topic (cmds.map Cmd.call) = payloadsOn topic cmds := by
  rw [publishedOn, List.filterMap_map, payloadsOn]
  congr 1
  funext cmd
  cases cmd <;> rfl

lemma publishedOn_opening (topic : String) (bootstrapAddrs topics : List String) :
    publishedOn topic (Drive.opening swarm bootstrapAddrs topics) = [] := by
  rw [publishedOn, List.filterMap_eq_nil_iff]
  intro call hcall
  rcases List.mem_append.mp hcall with hcall | hcall <;>
    obtain ⟨_, -, rfl⟩ := List.mem_map.mp hcall <;> rfl

/-- What a swarm was asked to publish, and what waits in the channel, is what was sent. -/
lemma publishedOn_task {d : Drive} (h : d.Sound swarm) (topic : String) :
    publishedOn topic (Drive.swarmCalls d.history) ++ payloadsOn topic d.cmdRx =
      payloadsOn topic (Drive.sentCmds d.history) := by
  have hopening : publishedOn topic
      (if d.phase = .fresh then [] else Drive.opening swarm d.bootstrapAddrs d.topics) = [] := by
    split
    · rfl
    · exact publishedOn_opening topic _ _
  rw [h.commands, payloadsOn_append, h.calls, publishedOn, List.filterMap_append]
  change (publishedOn topic _ ++ publishedOn topic _) ++ _ = _
  rw [hopening, publishedOn_calls, List.nil_append]

lemma handedFor_eq (h : Sound deps swarm dom calls n) (topic : String) :
    (n.drives.flatMap fun d =>
      publishedOn topic (Drive.swarmCalls d.history) ++ payloadsOn topic d.cmdRx) =
      handedFor topic n.st.log := by
  rw [← payloadsOn_handedIn, ← h.linked.handed, payloadsOn_filter, payloadsOn, List.filterMap_flatMap]
  exact List.flatMap_congr fun d hd => publishedOn_task (h.linked.tasks d hd).1 topic

/-- In every state of a client with its tasks: task by task what its swarm was asked to publish on a
topic and then what waits in its channel, and after all tasks what waits for a mesh, stand in this
order in increasing places of what was submitted for the topic; a place is skipped only when a full
queue's worth of later payloads met no mesh; and the channel of the net is never closed. -/
theorem node_publishes_in_order (hrun : Run deps swarm (start dom) calls n) (topic : String) :
    let submitted := submittedFor topic n.st.log
    (∃ places : List Nat, places.Pairwise (· < ·) ∧
      places.map (fun i => (submitted[i]?).map Outbox.Submission.payload) =
        ((n.drives.flatMap fun d => publishedOn topic (Drive.swarmCalls d.history) ++
          payloadsOn topic d.cmdRx) ++ n.st.pendingOf topic).map some ∧
      ∀ i < submitted.length, i ∉ places → PENDING_SENDS_CAP ≤ Outbox.downAfter submitted i) ∧
    ∀ net, n.st.net = some net → net.closed = false := by
  have h := sound_run hrun
  obtain ⟨sentAt, queuedAt, hacc⟩ := (outbox_sound deps dom calls n.st h.linked.client topic).accounted
  refine ⟨⟨sentAt ++ queuedAt, hacc.picks.increasing, ?_, hacc.skipped⟩, h.linked.open_⟩
  rw [handedFor_eq h topic]
  exact hacc.picks.holds

section Example

/-- One configuration, without bootstrap addresses and with one topic. -/
def exampleDeps : Deps (Libp2pIdentity.recorded []) :=
  .plain (.ofTexts [(intoBytes "config", .object [("bootstrap_addrs", .array []),
    ("topics", .array [.string "pos"])])]) (fun _ => none)

def exampleSwarm : Swarm := ⟨fun _ => .ok (), fun _ _ => .ok ()⟩

def exampleInit : ClientOp (Libp2pIdentity.recorded []) :=
  .init "config" (.firstVisit (PubKey.replicate 7))

/-- A first visit: a peer subscribes and says something, the client answers and starts once more
before its answer is taken. -/
lemma exists_exampleRun : ∃ calls n, Run exampleDeps exampleSwarm (start .document) calls n ∧
    configuredBy exampleDeps calls = [([], ["pos", CHAT_TOPIC, LEGACY_CHAT_TOPIC, IDENTITY_TOPIC]),
      ([], ["pos", CHAT_TOPIC, LEGACY_CHAT_TOPIC, IDENTITY_TOPIC])] ∧
    n.drives.map (fun d => (publishedOn "pos" (Drive.swarmCalls d.history),
      payloadsOn "pos" d.cmdRx)) = [([], [[1]]), ([[2]], [])] ∧
    polledIn n.st.log = [.subscriptionChange "pos" "p" true, .message "pos" "p" [2] 5] := by
  have hinit : Run exampleDeps exampleSwarm (start .document) _ _ :=
    (Run.refl _).tail (.call _ exampleInit _ rfl nofun rfl)
  have hstarted := hinit.tail (.work _ _ _ rfl (.start _ rfl))
  have hseen := hstarted.tail
    (.work _ _ _ rfl (.turn _ _ (some (.subscribed "p" "pos", 4)) rfl rfl))
  have hsaid := hseen.tail
    (.work _ _ _ rfl (.turn _ _ (some (.message "relay" (some "p") "pos" [2], 5)) rfl rfl))
  have hdrained := hsaid.tail (.drain _ (.pendingBytes
    [.subscriptionChange "pos" "p" true, .message "pos" "p" [2] 5] ⟨id, fun _ => .refl _⟩ "pos")
    _ rfl rfl rfl)
  have hanswered := hdrained.tail (.call _ (.publish "pos" [1]) _ rfl nofun rfl)
  have hagain := hanswered.tail (.call _ exampleInit _ rfl nofun rfl)
  have hrestarted := hagain.tail (.work _ _ _ rfl (.start _ rfl))
  have hmore := hrestarted.tail (.call _ (.publish "pos" [2]) _ rfl nofun rfl)
  have hsent := hmore.tail (.work _ _ _ rfl (.turn _ _ none rfl rfl))
  exact ⟨_, _, hsent, rfl, rfl, rfl⟩

/-- The older task still has its payload when the newer one has published. -/
theorem node_publishes_in_order_two : ∃ calls n,
    Run exampleDeps exampleSwarm (start .document) calls n ∧
    (n.drives.flatMap fun d => publishedOn "pos" (Drive.swarmCalls d.history) ++
      payloadsOn "pos" d.cmdRx) = [[1], [2]] ∧
    ∃ places : List Nat, places.Pairwise (· < ·) ∧
      places.map (fun i => ((submittedFor "pos" n.st.log)[i]?).map Outbox.Submission.payload) =
        ([[1], [2]] ++ n.st.pendingOf "pos").map some := by
  obtain ⟨calls, n, hrun, -, hdrives, -⟩ := exists_exampleRun
  have hpublished : (n.drives.flatMap fun d => publishedOn "pos" (Drive.swarmCalls d.history) ++
      payloadsOn "pos" d.cmdRx) = [[1], [2]] := by
    have hflat := congrArg (fun pairs => pairs.flatMap fun pair => pair.1 ++ pair.2) hdrives
    rw [List.flatMap_map] at hflat
    exact hflat
  obtain ⟨⟨places, hincreasing, hholds, -⟩, -⟩ := node_publishes_in_order hrun "pos"
  rw [hpublished] at hholds
  exact ⟨calls, n, hrun, hpublished, places, hincreasing, hholds⟩

end Example

/-! ### From the swarm to the client -/

/-- A message that is pushed was seen by the task; it bears the signed source if there is one. -/
lemma saw_of_emitted {history : List Moment} {topic peer : String} {bytes : Bytes} {now : UInt64}
    (h : .message topic peer bytes now ∈ Drive.emittedEvents history) : ∃ via source,
      peer = source.getD via ∧ Moment.saw (.message via source topic bytes) now ∈ history := by
  obtain ⟨m, hm, hemits⟩ := List.mem_filterMap.mp h
  cases m with
  | sent | taken | polled => cases hemits
  | unparsed => simp [Moment.emits] at hemits
  | called call answer =>
    cases answer with
    | ok => cases hemits
    | error e => cases call <;> simp [Moment.emits, SwarmCall.failure] at hemits
  | saw event now' =>
    cases event with
    | message via source t data =>
      cases hemits
      exact ⟨via, source, rfl, hm⟩
    | _ => simp [Moment.emits, Drive.SwarmEvent.netEvent] at hemits

/-- The client neither leaves a topic nor subscribes to an internal one by a command. -/
lemma calls_of_task {d : Drive} (hsound : d.Sound swarm) (hserves : Serves d)
    (hstarted : d.phase ≠ .fresh) : ∃ later, Drive.swarmCalls d.history =
      d.topics.map .subscribe ++ later ∧
      ∀ topic, SwarmCall.unsubscribe topic ∉ later ∧
        (isInternalTopic topic = true → SwarmCall.subscribe topic ∉ later) := by
  have htaken : ∀ cmd ∈ Drive.takenCmds d.history, cmd.OfClient := by
    intro cmd hcmd
    refine hserves cmd ?_
    rw [hsound.commands]
    exact List.mem_append_left _ hcmd
  refine ⟨(d.bootstrapAddrs.filter fun addr => (swarm.parseMultiaddr addr).isOk).map .dial ++
    (Drive.takenCmds d.history).map Cmd.call, ?_, fun topic => ⟨fun hmem => ?_, fun hinternal hmem => ?_⟩⟩
  · rw [hsound.calls, if_neg hstarted, Drive.opening, List.append_assoc]
  · rcases List.mem_append.mp hmem with hmem | hmem <;> obtain ⟨cmd, hcmd, heq⟩ := List.mem_map.mp hmem
    · cases heq
    · cases cmd <;> cases heq
      exact htaken _ hcmd
  · rcases List.mem_append.mp hmem with hmem | hmem <;> obtain ⟨cmd, hcmd, heq⟩ := List.mem_map.mp hmem
    · cases heq
    · cases cmd <;> cases heq
      exact Bool.false_ne_true ((htaken _ hcmd).symm.trans hinternal)

/-- In every state of a client with its tasks: the tasks are those of the `init`s that got to their
commit, each with the topics of its configuration and the internal ones; a task that runs subscribed
to these first, and no command has it leave a topic or touch an internal one; the client polled, task
by task, a front part of what the task pushed; its view of the meshes is what these events make of
it; and a message it polled is one a task saw, under the name of the peer that signed it if there is
one. -/
theorem node_sees_its_swarms (hrun : Run deps swarm (start dom) calls n) :
    n.drives.map argumentsOf = configuredBy deps calls ∧
    (∀ d ∈ n.drives, d.phase ≠ .fresh → ∃ later, Drive.swarmCalls d.history =
      d.topics.map .subscribe ++ later ∧
      ∀ topic, SwarmCall.unsubscribe topic ∉ later ∧
        (isInternalTopic topic = true → SwarmCall.subscribe topic ∉ later)) ∧
    (∀ d ∈ n.drives, Drive.polledEvents d.history ++ d.events = Drive.emittedEvents d.history) ∧
    polledIn n.st.log = (n.drives.flatMap fun d => Drive.polledEvents d.history) ∧
    n.st.peersOf = Mesh.after (fun _ => ∅) (n.drives.flatMap fun d => Drive.polledEvents d.history) ∧
    ∀ topic peer bytes now, .message topic peer bytes now ∈ polledIn n.st.log →
      ∃ d ∈ n.drives, ∃ via source, peer = source.getD via ∧
        Moment.saw (.message via source topic bytes) now ∈ d.history := by
  have h := sound_run hrun
  have htracks := tracksMesh_run deps dom calls n.st h.linked.client
  refine ⟨h.linked.arguments,
    fun d hd => calls_of_task (h.linked.tasks d hd).1 (h.linked.tasks d hd).2,
    fun d hd => (h.linked.tasks d hd).1.events, h.polled.symm, ?_, ?_⟩
  · rw [htracks.peers, h.polled]
  · intro topic peer bytes now hmem
    rw [← h.polled] at hmem
    obtain ⟨d, hd, hmem⟩ := List.mem_flatMap.mp hmem
    refine ⟨d, hd, saw_of_emitted ?_⟩
    rw [← (h.linked.tasks d hd).1.events]
    exact List.mem_append_left _ hmem

/-- Both tasks have the topic of the configuration and the internal ones; the message comes from the
peer that signed it, not from the relay it came through. -/
theorem node_sees_its_swarms_two : ∃ calls n,
    Run exampleDeps exampleSwarm (start .document) calls n ∧
    n.drives.map (fun d => d.topics) = [["pos", CHAT_TOPIC, LEGACY_CHAT_TOPIC, IDENTITY_TOPIC],
      ["pos", CHAT_TOPIC, LEGACY_CHAT_TOPIC, IDENTITY_TOPIC]] ∧
    ∃ d ∈ n.drives, ∃ via source, "p" = Option.getD source via ∧
      Moment.saw (.message via source "pos" [2]) 5 ∈ d.history := by
  obtain ⟨calls, n, hrun, hconfigured, -, hpolled⟩ := exists_exampleRun
  obtain ⟨harguments, -, -, -, -, hsaw⟩ := node_sees_its_swarms hrun
  have htopics := congrArg (List.map Prod.snd) (harguments.trans hconfigured)
  rw [List.map_map] at htopics
  refine ⟨calls, n, hrun, htopics, hsaw "pos" "p" [2] 5 ?_⟩
  rw [hpolled]
  decide

end Node

end Laye
