import Mathlib.Data.List.Induction
import Laye.RxState
import Mathlib.Logic.Relation

/-!
# The drive task

`crates/net`: the commands of a `Net` go through an unbounded channel to the task that owns the
swarm, and what the swarm reports comes back through a shared list of events. The swarm of libp2p
is a parameter that answers every call, knowing all that happened before.
-/

namespace Laye

/-! ### Commands and swarm -/

inductive Cmd
  | publish (topic : String) (bytes : Bytes)
  | subscribe (topic : String)
  | unsubscribe (topic : String)
deriving DecidableEq

/-- What the drive task asks of the swarm. -/
inductive SwarmCall
  | publish (topic : String) (bytes : Bytes)
  | subscribe (topic : String)
  | unsubscribe (topic : String)
  | dial (addr : String)
deriving DecidableEq

def Cmd.call : Cmd → SwarmCall
  | .publish topic bytes => .publish topic bytes
  | .subscribe topic => .subscribe topic
  | .unsubscribe topic => .unsubscribe topic

/-- The event for a call that failed; `unsubscribe` has no error to report. -/
def SwarmCall.failure (e : String) : SwarmCall → Option NetError
  | .publish topic _ => some (.publishFailed topic e)
  | .subscribe topic => some (.subscribeFailed topic e)
  | .unsubscribe _ => none
  | .dial addr => some (.notConnected s!"dial {addr}: {e}")

/-- One level of an error: an `io::Error` with its kind, or another one with its text. -/
inductive ErrorLevel
  | io (kind : String)
  | other (text : String)

/-- What `source()` leads to, level by level; the levels of a circle never end. -/
abbrev ErrorChain := Nat → Option ErrorLevel

def ErrorLevel.parts : ErrorLevel → List String
  | .io kind => [s!"io::{kind}"]
  | .other text => if text.isEmpty then [] else [text]

/-- The loop of `decode_error_chain` at level `depth`, with `left` levels to go. -/
def decodeLoop (err : ErrorChain) : Nat → Nat → List String
  | 0, depth => if (err depth).isSome then ["…(chain truncated)"] else []
  | left + 1, depth =>
    match err depth with
    | none => []
    | some e => e.parts ++ decodeLoop err left (depth + 1)

def decodeErrorChain (err : ErrorChain) : String :=
  let parts := decodeLoop err 8 0
  if parts.isEmpty then "(no detail)" else " ← ".intercalate parts

/-- The events of the swarm that `handle_swarm_event` tells apart. -/
inductive Drive.SwarmEvent
  | connectionEstablished (peerId : String)
  | connectionClosed (peerId : String) (cause : Option ErrorChain)
  | outgoingConnectionError (peerId : Option String) (error : ErrorChain)
  | incomingConnectionError (error : ErrorChain)
  | message (propagationSource : String) (source : Option String) (topic : String) (data : Bytes)
  | subscribed (peerId topic : String)
  | unsubscribed (peerId topic : String)
  | other

/-- The event that `handle_swarm_event` pushes. -/
def Drive.SwarmEvent.netEvent (now : UInt64) : Drive.SwarmEvent → Option NetEvent
  | .connectionEstablished peerId => some (.peerUp peerId [])
  | .connectionClosed peerId cause =>
    some (.peerDown peerId ((cause.map decodeErrorChain).getD "graceful close (no cause reported)"))
  | .outgoingConnectionError peerId error =>
    let peerStr := peerId.getD "<unknown>"
    let chain := decodeErrorChain error
    some (.error (.notConnected s!"outgoing dial to {peerStr}: {chain}"))
  | .incomingConnectionError error =>
    let chain := decodeErrorChain error
    some (.error (.notConnected s!"incoming connection error: {chain}"))
  -- every message comes through the relay; the signed source tells the peers apart
  | .message propagationSource source topic data =>
    some (.message topic (source.getD propagationSource) data now)
  | .subscribed peerId topic => some (.subscriptionChange topic peerId true)
  | .unsubscribed peerId topic => some (.subscriptionChange topic peerId false)
  | .other => none

/-! ### The task and its `Net` -/

/-- What happens between a `Net`, its drive task and the swarm. -/
inductive Moment
  | sent (cmd : Cmd)
  | taken (cmd : Cmd)
  | called (call : SwarmCall) (answer : Except String Unit)
  | unparsed (addr e : String)
  | saw (event : Drive.SwarmEvent) (now : UInt64)
  | polled (events : List NetEvent)

/-- The event pushed at a moment. -/
def Moment.emits : Moment → Option NetEvent
  | .called call (.error e) => (call.failure e).map .error
  | .unparsed addr e => some (.error (.providerInternal s!"parse multiaddr {addr}: {e}"))
  | .saw event now => event.netEvent now
  | _ => none

/-- The swarm: which texts are addresses, and what it answers to a call after a history. -/
structure Swarm where
  parseMultiaddr : String → Except String Unit
  answer : List Moment → SwarmCall → Except String Unit

inductive Phase
  | fresh
  | running
  | ended
deriving DecidableEq

/-- One `laye_net::new`: the arguments of the task, how far it is, whether the `Net` is gone, what
stands in the channel and in the list of events, and the history, which nothing reads. -/
structure Drive where
  bootstrapAddrs : List String
  topics : List String
  phase : Phase
  netGone : Bool
  cmdRx : List Cmd
  events : List NetEvent
  history : List Moment

namespace Drive

def new (bootstrapAddrs topics : List String) : Drive :=
  ⟨bootstrapAddrs, topics, .fresh, false, [], [], []⟩

/-- What a moment leaves in the list of events is pushed there. -/
def observe (d : Drive) (m : Moment) : Drive :=
  { d with events := d.events ++ m.emits.toList, history := d.history ++ [m] }

/-- `cmd_tx.unbounded_send(cmd)`, while the receiver is there. -/
def send (d : Drive) (cmd : Cmd) : Drive :=
  { d.observe (.sent cmd) with cmdRx := d.cmdRx ++ [cmd] }

def pollEvents (d : Drive) : List NetEvent × Drive :=
  (d.events, { d.observe (.polled d.events) with events := [] })

def dropNet (d : Drive) : Drive := { d with netGone := true }

def callSwarm (swarm : Swarm) (d : Drive) (call : SwarmCall) : Drive :=
  d.observe (.called call (swarm.answer d.history call))

def dial (swarm : Swarm) (d : Drive) (addr : String) : Drive :=
  match swarm.parseMultiaddr addr with
  | .ok () => callSwarm swarm d (.dial addr)
  | .error e => d.observe (.unparsed addr e)

/-- `drive_swarm` up to its loop. -/
def start (swarm : Swarm) (d : Drive) : Drive :=
  let subscribed := d.topics.foldl (fun d topic => callSwarm swarm d (.subscribe topic)) d
  { d.bootstrapAddrs.foldl (dial swarm) subscribed with phase := .running }

def take (d : Drive) (cmd : Cmd) (rest : List Cmd) : Drive :=
  { d.observe (.taken cmd) with cmdRx := rest }

/-- One turn of the loop, with the swarm event that is ready: `select_biased!` looks at the channel
first. A turn that finds nothing ready is no turn. -/
def turn (swarm : Swarm) (d : Drive) (ready : Option (SwarmEvent × UInt64)) : Option Drive :=
  match d.cmdRx with
  | cmd :: rest => some (callSwarm swarm (d.take cmd rest) cmd.call)
  | [] =>
    if d.netGone then some { d with phase := .ended }
    else ready.map fun (event, now) => d.observe (.saw event now)

/-- What the task does by itself. -/
inductive Works (swarm : Swarm) : Drive → Drive → Prop
  | start (d : Drive) (h : d.phase = .fresh) : Works swarm d (d.start swarm)
  | turn (d d' : Drive) (ready : Option (SwarmEvent × UInt64)) (h : d.phase = .running)
      (hturn : d.turn swarm ready = some d') : Works swarm d d'

/-- The `Net` and the task take turns in any order. -/
inductive Step (swarm : Swarm) : Drive → Drive → Prop
  | send (d : Drive) (cmd : Cmd) (h : d.netGone = false) : Step swarm d (d.send cmd)
  | poll (d : Drive) (h : d.netGone = false) : Step swarm d d.pollEvents.2
  | dropNet (d : Drive) : Step swarm d d.dropNet
  | work (d d' : Drive) (h : Works swarm d d') : Step swarm d d'

abbrev Run (swarm : Swarm) : Drive → Drive → Prop := Relation.ReflTransGen (Step swarm)

/-! ### What the history says -/

def sentCmds (history : List Moment) : List Cmd :=
  history.filterMap fun
    | .sent cmd => some cmd
    | _ => none

def takenCmds (history : List Moment) : List Cmd :=
  history.filterMap fun
    | .taken cmd => some cmd
    | _ => none

def swarmCalls (history : List Moment) : List SwarmCall :=
  history.filterMap fun
    | .called call _ => some call
    | _ => none

def polledEvents (history : List Moment) : List NetEvent :=
  history.flatMap fun
    | .polled events => events
    | _ => []

def emittedEvents (history : List Moment) : List NetEvent := history.filterMap Moment.emits

section Append

variable (as bs : List Moment)

@[simp] lemma sentCmds_append : sentCmds (as ++ bs) = sentCmds as ++ sentCmds bs :=
  List.filterMap_append

@[simp] lemma takenCmds_append : takenCmds (as ++ bs) = takenCmds as ++ takenCmds bs :=
  List.filterMap_append

@[simp] lemma swarmCalls_append : swarmCalls (as ++ bs) = swarmCalls as ++ swarmCalls bs :=
  List.filterMap_append

@[simp] lemma polledEvents_append : polledEvents (as ++ bs) = polledEvents as ++ polledEvents bs :=
  List.flatMap_append

@[simp] lemma emittedEvents_append :
    emittedEvents (as ++ bs) = emittedEvents as ++ emittedEvents bs :=
  List.filterMap_append

end Append

/-- The calls made before the loop: the topics, then the addresses that parse. -/
def opening (swarm : Swarm) (bootstrapAddrs topics : List String) : List SwarmCall :=
  topics.map .subscribe ++
    (bootstrapAddrs.filter (fun addr => (swarm.parseMultiaddr addr).isOk)).map .dial

/-- No command waits when the task looks at what the network has to say. -/
def Attentive (history : List Moment) : Prop :=
  ∀ earlier event now later, history = earlier ++ .saw event now :: later →
    sentCmds earlier = takenCmds earlier

lemma attentive_snoc {history : List Moment} (h : Attentive history) {m : Moment}
    (hsaw : ∀ event now, m = .saw event now → sentCmds history = takenCmds history) :
    Attentive (history ++ [m]) := by
  intro earlier event now later heq
  rcases List.eq_nil_or_concat later with rfl | ⟨later, last, rfl⟩
  · obtain ⟨rfl, hlast⟩ := List.append_inj' heq rfl
    exact hsaw event now (List.singleton_inj.mp hlast)
  · rw [List.concat_eq_append, ← List.cons_append, ← List.append_assoc] at heq
    obtain ⟨rfl, -⟩ := List.append_inj' heq rfl
    exact h earlier event now later rfl

/-- What holds between a `Net`, its task and the swarm at any time. -/
structure Sound (swarm : Swarm) (d : Drive) : Prop where
  commands : sentCmds d.history = takenCmds d.history ++ d.cmdRx
  calls : swarmCalls d.history =
    (if d.phase = .fresh then [] else opening swarm d.bootstrapAddrs d.topics) ++
      (takenCmds d.history).map Cmd.call
  events : polledEvents d.history ++ d.events = emittedEvents d.history
  attentive : Attentive d.history
  fresh : d.phase = .fresh → takenCmds d.history = []
  ended : d.phase = .ended → d.netGone = true ∧ d.cmdRx = []

lemma sound_new (swarm : Swarm) (bootstrapAddrs topics : List String) :
    Sound swarm (new bootstrapAddrs topics) where
  commands := rfl
  calls := rfl
  events := rfl
  attentive := by simp [Attentive, new]
  fresh _ := rfl
  ended h := by cases h

/-! ### Steps -/

/-- `d'` is `d` after the calls `calls`, and nothing else but addresses that do not parse. -/
structure Called (calls : List SwarmCall) (d d' : Drive) : Prop where
  frame : d' = { d with events := d'.events, history := d'.history }
  moments : ∃ added, d'.history = d.history ++ added ∧
    d'.events = d.events ++ emittedEvents added ∧ swarmCalls added = calls ∧
    ∀ m ∈ added, (∃ call answer, m = .called call answer) ∨ ∃ addr e, m = .unparsed addr e

namespace Called

lemma refl (d : Drive) : Called [] d d := ⟨rfl, [], by simp, by simp [emittedEvents], rfl, by simp⟩

lemma trans {calls calls' : List SwarmCall} {d₁ d₂ d₃ : Drive} (h : Called calls d₁ d₂)
    (h' : Called calls' d₂ d₃) : Called (calls ++ calls') d₁ d₃ := by
  obtain ⟨added, hhist, hevents, hcalls, hadded⟩ := h.moments
  obtain ⟨added', hhist', hevents', hcalls', hadded'⟩ := h'.moments
  refine ⟨?_, added ++ added', ?_, ?_, ?_, ?_⟩
  · rw [h'.frame, h.frame]
  · rw [hhist', hhist, List.append_assoc]
  · rw [hevents', hevents, List.append_assoc, emittedEvents_append]
  · rw [swarmCalls_append, hcalls, hcalls']
  · intro m hm
    exact (List.mem_append.mp hm).elim (hadded m) (hadded' m)

lemma callSwarm (swarm : Swarm) (d : Drive) (call : SwarmCall) :
    Called [call] d (callSwarm swarm d call) := by
  refine ⟨rfl, [_], rfl, ?_, rfl, ?_⟩
  · simp [Drive.callSwarm, observe, emittedEvents, List.filterMap_cons]
    cases Moment.emits _ <;> rfl
  · simp

lemma dial (swarm : Swarm) (d : Drive) (addr : String) :
    Called (([addr].filter (fun addr => (swarm.parseMultiaddr addr).isOk)).map .dial) d
      (dial swarm d addr) := by
  cases h : swarm.parseMultiaddr addr with
  | ok u =>
    simp only [Drive.dial, h, List.filter_cons, Except.isOk, Except.toBool, if_true]
    exact callSwarm swarm d (.dial addr)
  | error e =>
    simp only [Drive.dial, h, List.filter_cons, Except.isOk, Except.toBool]
    exact ⟨rfl, [_], rfl, rfl, rfl, by simp⟩

/-- What each turn of a loop calls, the loop calls in order. -/
lemma foldl {α : Type} (f : Drive → α → Drive) (calls : α → List SwarmCall)
    (h : ∀ d a, Called (calls a) d (f d a)) (as : List α) (d : Drive) :
    Called (as.flatMap calls) d (as.foldl f d) := by
  induction as generalizing d with
  | nil => exact refl d
  | cons a as ih => exact (h d a).trans (ih (f d a))

variable {calls : List SwarmCall} {d d' : Drive}

lemma quiet {added : List Moment} (hadded : ∀ m ∈ added,
      (∃ call answer, m = .called call answer) ∨ ∃ addr e, m = .unparsed addr e) :
    sentCmds added = [] ∧ takenCmds added = [] ∧ polledEvents added = [] := by
  simp only [sentCmds, takenCmds, polledEvents, List.filterMap_eq_nil_iff, List.flatMap_eq_nil_iff]
  refine ⟨fun m hm => ?_, fun m hm => ?_, fun m hm => ?_⟩ <;>
    rcases hadded m hm with ⟨call, answer, rfl⟩ | ⟨addr, e, rfl⟩ <;> rfl

lemma history (h : Called calls d d') : sentCmds d'.history = sentCmds d.history ∧
    takenCmds d'.history = takenCmds d.history ∧
    polledEvents d'.history = polledEvents d.history ∧
    swarmCalls d'.history = swarmCalls d.history ++ calls ∧
    (polledEvents d.history ++ d.events = emittedEvents d.history →
      polledEvents d'.history ++ d'.events = emittedEvents d'.history) := by
  obtain ⟨added, hhist, hevents, rfl, hadded⟩ := h.moments
  obtain ⟨hsent, htaken, hpolled⟩ := quiet hadded
  rw [hhist, hevents]
  refine ⟨?_, ?_, ?_, swarmCalls_append _ _, fun hd => ?_⟩
  · rw [sentCmds_append, hsent, List.append_nil]
  · rw [takenCmds_append, htaken, List.append_nil]
  · rw [polledEvents_append, hpolled, List.append_nil]
  · rw [polledEvents_append, hpolled, List.append_nil, ← List.append_assoc, hd,
      emittedEvents_append]

lemma attentive (h : Called calls d d') (hd : Attentive d.history) : Attentive d'.history := by
  obtain ⟨added, hhist, -, -, hadded⟩ := h.moments
  rw [hhist]
  clear hhist
  induction added using List.reverseRecOn with
  | nil => rwa [List.append_nil]
  | append_singleton added m ih =>
    rw [← List.append_assoc]
    refine attentive_snoc (ih fun m hm => hadded m (List.mem_append_left _ hm)) ?_
    rintro event now rfl
    rcases hadded _ (List.mem_append_right _ List.mem_cons_self) with ⟨_, _, h⟩ | ⟨_, _, h⟩ <;>
      cases h

end Called

variable {swarm : Swarm} {d d' : Drive}

lemma called_start (swarm : Swarm) (d : Drive) :
    ∃ d₁, Called (opening swarm d.bootstrapAddrs d.topics) d d₁ ∧ d.start swarm = { d₁ with phase := .running } := by
  have htopics := Called.foldl (fun d topic => callSwarm swarm d (.subscribe topic))
    (fun topic => [.subscribe topic]) (fun d topic => Called.callSwarm swarm d _) d.topics d
  have haddrs := Called.foldl (dial swarm) _ (Called.dial swarm) d.bootstrapAddrs
    (d.topics.foldl (fun d topic => callSwarm swarm d (.subscribe topic)) d)
  have hdials : ∀ addrs : List String, (addrs.filter (fun addr =>
      (swarm.parseMultiaddr addr).isOk)).map SwarmCall.dial = addrs.flatMap fun addr =>
        ([addr].filter (fun addr => (swarm.parseMultiaddr addr).isOk)).map .dial := by
    intro addrs
    induction addrs with
    | nil => rfl
    | cons addr addrs ih =>
      rw [List.flatMap_cons, ← ih, ← List.map_append, ← List.filter_append]
      rfl
  refine ⟨_, ?_, rfl⟩
  rw [opening, List.map_eq_flatMap, hdials]
  exact htopics.trans haddrs

/-- A turn hands the first waiting command to the swarm, or else looks at one swarm event, or else
ends the task. -/
lemma turn_cases {ready : Option (SwarmEvent × UInt64)} (h : d.turn swarm ready = some d') :
    (∃ cmd rest, d.cmdRx = cmd :: rest ∧ d' = callSwarm swarm (d.take cmd rest) cmd.call) ∨
    (∃ event now, d.cmdRx = [] ∧ d' = d.observe (.saw event now)) ∨
    (d.cmdRx = [] ∧ d.netGone = true ∧ d' = { d with phase := .ended }) := by
  unfold turn at h
  split at h
  next cmd rest hrx => exact .inl ⟨cmd, rest, hrx, (Option.some.inj h).symm⟩
  next hrx =>
    split at h
    next hgone => exact .inr (.inr ⟨hrx, hgone, (Option.some.inj h).symm⟩)
    next =>
      obtain ⟨⟨event, now⟩, -, rfl⟩ := Option.map_eq_some_iff.mp h
      exact .inr (.inl ⟨event, now, hrx, rfl⟩)

lemma sound_start (h : Sound swarm d) (hfresh : d.phase = .fresh) : Sound swarm (d.start swarm) := by
  obtain ⟨d₁, hcalled, heq⟩ := called_start swarm d
  obtain ⟨hsent, htaken, -, hcalls, hevents⟩ := hcalled.history
  have hrx : d₁.cmdRx = d.cmdRx := by rw [hcalled.frame]
  have hargs : d₁.bootstrapAddrs = d.bootstrapAddrs ∧ d₁.topics = d.topics := by
    rw [hcalled.frame]
    exact ⟨rfl, rfl⟩
  rw [heq]
  refine ⟨?_, ?_, hevents h.events, hcalled.attentive h.attentive, nofun, nofun⟩
  · rw [hsent, htaken, hrx, h.commands]
  · change swarmCalls d₁.history =
      opening swarm d₁.bootstrapAddrs d₁.topics ++ (takenCmds d₁.history).map Cmd.call
    rw [hcalls, h.calls, if_pos hfresh, htaken, h.fresh hfresh, hargs.1, hargs.2]
    simp

/-- A moment between the host and the task, or between the network and the task. -/
lemma sound_moment (h : Sound swarm d) {m : Moment} {cmdRx : List Cmd} {events : List NetEvent}
    (htaken : takenCmds [m] = []) (hcalls : swarmCalls [m] = [])
    (hrx : d.cmdRx ++ sentCmds [m] = cmdRx)
    (hevents : polledEvents [m] ++ events = d.events ++ emittedEvents [m])
    (hsaw : ∀ event now, m = .saw event now → d.cmdRx = []) (hphase : d.phase ≠ .ended) :
    Sound swarm { d with cmdRx, events, history := d.history ++ [m] } where
  commands := by
    rw [sentCmds_append, takenCmds_append, htaken, List.append_nil, h.commands, List.append_assoc,
      hrx]
  calls := by
    rw [swarmCalls_append, takenCmds_append, htaken, hcalls, List.append_nil, List.append_nil]
    exact h.calls
  events := by
    rw [polledEvents_append, emittedEvents_append, List.append_assoc, hevents,
      ← List.append_assoc, h.events]
  attentive := attentive_snoc h.attentive fun event now hm => by
    rw [h.commands, hsaw event now hm, List.append_nil]
  fresh hf := by rw [takenCmds_append, htaken, List.append_nil, h.fresh hf]
  ended he := absurd he hphase

/-- A command that is taken is handed to the swarm at once. -/
lemma sound_taken (h : Sound swarm d) {cmd : Cmd} {rest : List Cmd} (hrx : d.cmdRx = cmd :: rest)
    (hrun : d.phase = .running) : Sound swarm (callSwarm swarm (d.take cmd rest) cmd.call) := by
  have hcalled := Called.callSwarm swarm (d.take cmd rest) cmd.call
  obtain ⟨hsent, htaken, -, hcalls, hevents⟩ := hcalled.history
  have hstarted : d.phase ≠ .fresh := by rw [hrun]; decide
  have hhistory : (d.take cmd rest).history = d.history ++ [.taken cmd] := rfl
  refine ⟨?_, ?_, hevents ?_, hcalled.attentive ?_, fun hf => absurd hf hstarted, fun he => ?_⟩
  · change _ = _ ++ rest
    rw [hsent, htaken, hhistory, sentCmds_append, takenCmds_append, h.commands, hrx]
    simp [sentCmds, takenCmds]
  · change _ = (if d.phase = .fresh then [] else opening swarm d.bootstrapAddrs d.topics) ++ _
    rw [hcalls, htaken, hhistory, swarmCalls_append, takenCmds_append, List.map_append,
      ← List.append_assoc, ← h.calls]
    simp [swarmCalls, takenCmds]
  · change polledEvents _ ++ (d.events ++ []) = _
    rw [hhistory, polledEvents_append, emittedEvents_append, ← h.events]
    simp [polledEvents, emittedEvents, Moment.emits]
  · exact attentive_snoc h.attentive nofun
  · exact absurd (hrun.symm.trans he) (by decide)

lemma sound_works (h : Sound swarm d) (hworks : Works swarm d d') : Sound swarm d' := by
  cases hworks with
  | start hfresh => exact sound_start h hfresh
  | turn _ ready hrun hturn =>
    have hphase : d.phase ≠ .ended := by rw [hrun]; decide
    obtain ⟨cmd, rest, hrx, rfl⟩ | ⟨event, now, hrx, rfl⟩ | ⟨hrx, hgone, rfl⟩ := turn_cases hturn
    · exact sound_taken h hrx hrun
    · refine sound_moment h rfl rfl (List.append_nil _) ?_ (fun _ _ _ => hrx) hphase
      cases hemits : Moment.emits (.saw event now) <;>
        simp [polledEvents, emittedEvents, hemits]
    · refine ⟨h.commands, ?_, h.events, h.attentive, nofun, fun _ => ⟨hgone, hrx⟩⟩
      simpa [hrun] using h.calls

theorem sound_step (h : Sound swarm d) (hstep : Step swarm d d') : Sound swarm d' := by
  cases hstep with
  | send cmd hopen =>
    exact sound_moment h rfl rfl rfl rfl nofun fun he => by simp [(h.ended he).1] at hopen
  | poll hopen =>
    refine sound_moment h rfl rfl (List.append_nil _) ?_ nofun
      fun he => by simp [(h.ended he).1] at hopen
    simp [polledEvents, emittedEvents, Moment.emits]
  | dropNet =>
    exact ⟨h.commands, h.calls, h.events, h.attentive, h.fresh, fun he => ⟨rfl, (h.ended he).2⟩⟩
  | work _ hworks => exact sound_works h hworks

theorem sound_run {bootstrapAddrs topics : List String}
    (hrun : Run swarm (new bootstrapAddrs topics) d) : Sound swarm d := by
  induction hrun with
  | refl => exact sound_new swarm bootstrapAddrs topics
  | tail _ hstep ih => exact sound_step ih hstep

/-- The task neither sends nor polls, and its arguments stay what they are. -/
lemma works_frame (h : Works swarm d d') : sentCmds d'.history = sentCmds d.history ∧
    polledEvents d'.history = polledEvents d.history ∧ d'.netGone = d.netGone ∧
    d'.bootstrapAddrs = d.bootstrapAddrs ∧ d'.topics = d.topics := by
  cases h with
  | start =>
    obtain ⟨d₁, hcalled, heq⟩ := called_start swarm d
    obtain ⟨hsent, -, hpolled, -⟩ := hcalled.history
    rw [heq]
    exact ⟨hsent, hpolled, by rw [hcalled.frame], by rw [hcalled.frame], by rw [hcalled.frame]⟩
  | turn _ ready hrun hturn =>
    obtain ⟨cmd, rest, -, rfl⟩ | ⟨event, now, -, rfl⟩ | ⟨-, -, rfl⟩ := turn_cases hturn
    · obtain ⟨hsent, -, hpolled, -⟩ := (Called.callSwarm swarm (d.take cmd rest) cmd.call).history
      rw [hsent, hpolled]
      refine ⟨?_, ?_, rfl, rfl, rfl⟩
      · exact (sentCmds_append _ _).trans (List.append_nil _)
      · exact (polledEvents_append _ _).trans (List.append_nil _)
    · refine ⟨?_, ?_, rfl, rfl, rfl⟩
      · exact (sentCmds_append _ _).trans (List.append_nil _)
      · exact (polledEvents_append _ _).trans (List.append_nil _)
    · exact ⟨rfl, rfl, rfl, rfl, rfl⟩

lemma step_args (hstep : Step swarm d d') :
    d'.bootstrapAddrs = d.bootstrapAddrs ∧ d'.topics = d.topics := by
  cases hstep with
  | send | poll | dropNet => exact ⟨rfl, rfl⟩
  | work _ hworks => exact (works_frame hworks).2.2.2

lemma run_args {bootstrapAddrs topics : List String}
    (hrun : Run swarm (new bootstrapAddrs topics) d) :
    d.bootstrapAddrs = bootstrapAddrs ∧ d.topics = topics := by
  induction hrun with
  | refl => exact ⟨rfl, rfl⟩
  | tail _ hstep ih => exact ⟨(step_args hstep).1.trans ih.1, (step_args hstep).2.trans ih.2⟩

lemma foldl_send (cmds : List Cmd) (d : Drive) : cmds.foldl send d =
    { d with cmdRx := d.cmdRx ++ cmds, history := d.history ++ cmds.map .sent } := by
  induction cmds generalizing d with
  | nil => simp
  | cons cmd cmds ih =>
    rw [List.foldl_cons, ih]
    simp [send, observe, Moment.emits]

lemma sentCmds_sent (cmds : List Cmd) : sentCmds (cmds.map .sent) = cmds := by
  simp [sentCmds, List.filterMap_map]

lemma polledEvents_sent (cmds : List Cmd) : polledEvents (cmds.map .sent) = [] := by
  simp [polledEvents, List.flatMap_eq_nil_iff]

lemma sound_sends (h : Sound swarm d) (hopen : d.netGone = false) (cmds : List Cmd) :
    Sound swarm (cmds.foldl send d) := by
  induction cmds generalizing d with
  | nil => exact h
  | cons cmd cmds ih => exact ih (sound_step h (.send d cmd hopen)) hopen

/-- However the `Net` and its task take turns: the commands accepted are those taken and those that
wait, in order; the swarm is asked for the topics and addresses of the configuration and then for
one call per command taken, in order; the events polled and those that wait are, in order, one for
each call that failed, each address that does not parse and each swarm event with a translation;
the task looks at the network only when no command waits; and it ends only when the `Net` is gone
and the channel is empty. -/
theorem drive_exactly_once {bootstrapAddrs topics : List String}
    (hrun : Run swarm (new bootstrapAddrs topics) d) :
    sentCmds d.history = takenCmds d.history ++ d.cmdRx ∧
      swarmCalls d.history = (if d.phase = .fresh then [] else opening swarm bootstrapAddrs topics) ++
        (takenCmds d.history).map Cmd.call ∧
      polledEvents d.history ++ d.events = emittedEvents d.history ∧
      Attentive d.history ∧ (d.phase = .ended → d.netGone = true ∧ d.cmdRx = []) := by
  have h := sound_run hrun
  obtain ⟨rfl, rfl⟩ := run_args hrun
  exact ⟨h.commands, h.calls, h.events, h.attentive, h.ended⟩

/-- A topic that cannot be subscribed to, a payload without a mesh, and a peer that comes up. -/
theorem drive_exactly_once_two :
    let swarm : Swarm := ⟨fun _ => .ok (), fun _ _ => .error "NoPeersSubscribedToTopic"⟩
    ∃ d, Run swarm (new ["/ip4/127.0.0.1"] ["pos"]) d ∧
      d.events = [.error (.subscribeFailed "pos" "NoPeersSubscribedToTopic"),
        .error (.notConnected "dial /ip4/127.0.0.1: NoPeersSubscribedToTopic"),
        .error (.publishFailed "pos" "NoPeersSubscribedToTopic"), .peerUp "a" []] ∧
      sentCmds d.history = takenCmds d.history ++ d.cmdRx ∧ d.cmdRx = [] := by
  intro swarm
  let d₁ := ((new ["/ip4/127.0.0.1"] ["pos"]).start swarm).send (.publish "pos" [1])
  let d₂ := callSwarm swarm (d₁.take (.publish "pos" [1]) []) (.publish "pos" [1])
  have hrun : Run swarm (new ["/ip4/127.0.0.1"] ["pos"])
      (d₂.observe (.saw (.connectionEstablished "a") 0)) :=
    .tail (.tail (.tail (.single (.work _ _ (.start _ rfl))) (.send _ _ rfl))
        (.work _ _ (.turn _ d₂ none rfl rfl)))
      (.work _ _ (.turn _ _ (some (.connectionEstablished "a", 0)) rfl rfl))
  exact ⟨_, hrun, rfl, (drive_exactly_once hrun).1, rfl⟩

/-! ### Error chains -/

lemma decodeLoop_eq {err : ErrorChain} {levels : List ErrorLevel} (left depth : Nat)
    (h : ∀ n ≤ left, err (depth + n) = levels[n]?) :
    decodeLoop err left depth = (levels.take left).flatMap ErrorLevel.parts ++
      if left < levels.length then ["…(chain truncated)"] else [] := by
  induction left generalizing depth levels with
  | zero =>
    have h0 := h 0 (Nat.le_refl 0)
    cases levels <;> simp_all [decodeLoop]
  | succ left ih =>
    have h0 := h 0 (Nat.zero_le _)
    cases levels with
    | nil => simp_all [decodeLoop]
    | cons e levels =>
      have hrest : ∀ n ≤ left, err (depth + 1 + n) = levels[n]? := by
        intro n hn
        have := h (n + 1) (by omega)
        rwa [List.getElem?_cons_succ, Nat.add_comm n 1, ← Nat.add_assoc] at this
      simp only [decodeLoop, Nat.add_zero, List.getElem?_cons_zero] at h0 ⊢
      simp [h0, ih _ hrest]

/-- The text of an error tells the levels of its chain from the outside in, at most eight of them,
and says when there are more, also of a chain that never ends. -/
theorem decodeErrorChain_eq {err : ErrorChain} {levels : List ErrorLevel}
    (h : ∀ n ≤ 8, err n = levels[n]?) :
    let parts := (levels.take 8).flatMap ErrorLevel.parts ++
      if 8 < levels.length then ["…(chain truncated)"] else []
    decodeErrorChain err = if parts = [] then "(no detail)" else " ← ".intercalate parts := by
  intro parts
  have hparts : decodeLoop err 8 0 = parts :=
    decodeLoop_eq 8 0 fun n hn => (congrArg err (Nat.zero_add n)).trans (h n hn)
  simp [decodeErrorChain, hparts]

end Drive

end Laye
