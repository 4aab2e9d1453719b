import Mathlib.Data.List.Induction
import Laye.Binding
import Laye.Lib.Outbox

/-!
# The WebSocket gateway

`crates/relaye/src/gateway.rs` and the two places of `main.rs` that meet it: browser clients share
a registry of sinks, their frames go to the sinks of the topic at once and to gossipsub through a
channel of commands.
-/

namespace Laye

/-- Command from a gateway client to the main loop. -/
inductive GatewayCmd
  | publish (topic : String) (bytes : Bytes)
deriving DecidableEq

def GATEWAY_SINK_CAPACITY : Nat := 128

structure BroadcastSink where
  cap : Nat
  queue : List Bytes
deriving DecidableEq

namespace BroadcastSink

def new (cap : Nat) : BroadcastSink := ⟨cap, []⟩

def push (sink : BroadcastSink) (bytes : Bytes) : BroadcastSink :=
  { sink with queue := Outbox.pushCapped sink.cap sink.queue bytes }

/-- `next` returns what `try_next` finds, and waits where that finds nothing. -/
def tryNext (sink : BroadcastSink) : Option Bytes × BroadcastSink :=
  match sink.queue with
  | [] => (none, sink)
  | bytes :: queue => (some bytes, { sink with queue })

end BroadcastSink

/-- One run of `handle_client`: its topic, the sink it holds, and the frame that it has taken off
the socket and not sent as a command yet. -/
structure GatewayClient where
  topic : String
  sink : BroadcastSink
  inFlight : Option Bytes
deriving DecidableEq

def GatewayClient.push (client : GatewayClient) (bytes : Bytes) : GatewayClient :=
  { client with sink := client.sink.push bytes }

/-! ### History

The state keeps a record that no function reads: who subscribed, what was broadcast and by whom,
what was popped, sent as a command and received by the main loop. -/

inductive GatewayEvent
  | subscribed (id : Nat) (topic : String)
  | frame (id : Nat) (topic : String) (bytes : Bytes)
  | message (topic : String) (bytes : Bytes)
  | popped (id : Nat) (bytes : Bytes)
  | sent (id : Nat) (cmd : GatewayCmd)
  | received (cmd : GatewayCmd)
deriving DecidableEq

/-- A client is known by the number of its sink. The registry holds numbers, as `Weak` references:
one that no client has any more does not upgrade. -/
structure Gateway where
  clients : HashMap Nat GatewayClient
  next : Nat
  registry : HashMap String (List Nat)
  channel : List GatewayCmd
  log : List GatewayEvent

inductive GatewayOp
  | subscribe (topic : String) (cap : Nat)
  | frame (id : Nat) (bytes : Bytes)
  | send (id : Nat)
  | message (topic : String) (bytes : Bytes)
  | pop (id : Nat)
  | disconnect (id : Nat)
  | recv

/-- A client that `handle_client` has accepted. -/
def GatewayOp.accept (topic : String) : GatewayOp := .subscribe topic GATEWAY_SINK_CAPACITY

/-- The `retain` of `broadcast`: live sinks get the bytes and keep their entry. -/
def retainLive (bytes : Bytes) :
    List Nat → HashMap Nat GatewayClient → List Nat × HashMap Nat GatewayClient
  | [], clients => ([], clients)
  | weak :: sinks, clients =>
    match clients weak with
    | some client =>
      let (kept, clients) := retainLive bytes sinks (clients.insert weak (client.push bytes))
      (weak :: kept, clients)
    | none => retainLive bytes sinks clients

namespace Gateway

def start : Gateway := ⟨HashMap.empty, 0, HashMap.empty, [], []⟩

def observe (g : Gateway) (e : GatewayEvent) : Gateway := { g with log := g.log ++ [e] }

def setClient (g : Gateway) (id : Nat) (client : GatewayClient) : Gateway :=
  { g with clients := g.clients.insert id client }

def sinksOf (g : Gateway) (topic : String) : List Nat := (g.registry topic).getD []

def subscribe (g : Gateway) (topic : String) (cap : Nat) : Gateway :=
  { g with
    clients := g.clients.insert g.next ⟨topic, .new cap, none⟩
    next := g.next + 1
    registry := g.registry.insert topic (g.sinksOf topic ++ [g.next]) }

def broadcast (g : Gateway) (topic : String) (bytes : Bytes) : Gateway :=
  match g.registry topic with
  | none => g
  | some sinks =>
    let (kept, clients) := retainLive bytes sinks g.clients
    { g with registry := g.registry.insert topic kept, clients }

def subscriberCount (g : Gateway) (topic : String) : Nat :=
  (g.sinksOf topic).countP (fun weak => (g.clients weak).isSome)

/-- One step of a client's task, of the main loop or of a sink's reader; `none` where the step
cannot happen. A client's task ends only where it waits, with no frame in flight. -/
def step (g : Gateway) : GatewayOp → Option Gateway
  | .subscribe topic cap => some ((g.subscribe topic cap).observe (.subscribed g.next topic))
  | .frame id bytes =>
    match g.clients id with
    | some ⟨topic, sink, none⟩ =>
      some (((g.setClient id ⟨topic, sink, some bytes⟩).broadcast topic bytes).observe
        (.frame id topic bytes))
    | _ => none
  | .send id =>
    match g.clients id with
    | some ⟨topic, sink, some bytes⟩ =>
      let cmd := .publish topic bytes
      some ({ g.setClient id ⟨topic, sink, none⟩ with channel := g.channel ++ [cmd] }.observe
        (.sent id cmd))
    | _ => none
  | .message topic bytes => some ((g.broadcast topic bytes).observe (.message topic bytes))
  | .pop id =>
    match g.clients id with
    | some client =>
      match client.sink.tryNext with
      | (some bytes, sink) => some ((g.setClient id { client with sink }).observe (.popped id bytes))
      | (none, _) => some g
    | none => none
  | .disconnect id =>
    match g.clients id with
    | some ⟨_, _, none⟩ => some { g with clients := g.clients.remove id }
    | _ => none
  | .recv =>
    match g.channel with
    | [] => none
    | cmd :: channel => some ({ g with channel }.observe (.received cmd))

def run (g : Gateway) (ops : List GatewayOp) : Option Gateway := ops.foldlM step g

lemma run_append (g : Gateway) (as bs : List GatewayOp) :
    g.run (as ++ bs) = (g.run as).bind (fun g => g.run bs) := List.foldlM_append

lemma run_snoc {ops : List GatewayOp} {op : GatewayOp} {g g' : Gateway} :
    g.run (ops ++ [op]) = some g' ↔ ∃ g₁, g.run ops = some g₁ ∧ g₁.step op = some g' := by
  rw [run_append, Option.bind_eq_some_iff]
  simp [run]

/-- What every step keeps, knowing the run before it, holds after every run. -/
lemma run_induction {motive : List GatewayOp → Gateway → Prop} (start : motive [] .start)
    (step : ∀ ops op g g', Gateway.start.run ops = some g → motive ops g → g.step op = some g' →
      motive (ops ++ [op]) g')
    {ops : List GatewayOp} {g : Gateway} (h : Gateway.start.run ops = some g) : motive ops g := by
  induction ops using List.reverseRecOn generalizing g with
  | nil =>
    cases h
    exact start
  | append_singleton ops op ih =>
    obtain ⟨g₁, hrun, hstep⟩ := run_snoc.mp h
    exact step ops op g₁ g hrun (ih hrun) hstep

end Gateway

namespace Gateway

/-- What a step can do. -/
inductive Stepped (g : Gateway) : GatewayOp → Gateway → Prop
  | subscribe (topic : String) (cap : Nat) : Stepped g (.subscribe topic cap)
      ((g.subscribe topic cap).observe (.subscribed g.next topic))
  | frame {id : Nat} {topic : String} {sink : BroadcastSink} (bytes : Bytes)
      (h : g.clients id = some ⟨topic, sink, none⟩) : Stepped g (.frame id bytes)
      (((g.setClient id ⟨topic, sink, some bytes⟩).broadcast topic bytes).observe
        (.frame id topic bytes))
  | send {id : Nat} {topic : String} {sink : BroadcastSink} {bytes : Bytes}
      (h : g.clients id = some ⟨topic, sink, some bytes⟩) : Stepped g (.send id)
      ({ g.setClient id ⟨topic, sink, none⟩ with
          channel := g.channel ++ [GatewayCmd.publish topic bytes] }.observe
        (.sent id (.publish topic bytes)))
  | message (topic : String) (bytes : Bytes) : Stepped g (.message topic bytes)
      ((g.broadcast topic bytes).observe (.message topic bytes))
  | pop {id : Nat} {topic : String} {cap : Nat} {bytes : Bytes} {queue : List Bytes}
      {inFlight : Option Bytes} (h : g.clients id = some ⟨topic, ⟨cap, bytes :: queue⟩, inFlight⟩) :
      Stepped g (.pop id) ((g.setClient id ⟨topic, ⟨cap, queue⟩, inFlight⟩).observe (.popped id bytes))
  | popNone (id : Nat) : Stepped g (.pop id) g
  | disconnect {id : Nat} {topic : String} {sink : BroadcastSink}
      (h : g.clients id = some ⟨topic, sink, none⟩) :
      Stepped g (.disconnect id) { g with clients := g.clients.remove id }
  | recv {cmd : GatewayCmd} {channel : List GatewayCmd} (h : g.channel = cmd :: channel) :
      Stepped g .recv ({ g with channel }.observe (.received cmd))

theorem stepped_of_step {g g' : Gateway} {op : GatewayOp} (h : g.step op = some g') :
    Stepped g op g' := by
  cases op with
  | subscribe topic cap =>
    cases h
    exact .subscribe topic cap
  | message topic bytes =>
    cases h
    exact .message topic bytes
  | frame id bytes =>
    simp only [step] at h
    split at h
    · rename_i hclient
      cases h
      exact .frame bytes hclient
    · cases h
  | send id =>
    simp only [step] at h
    split at h
    · rename_i hclient
      cases h
      exact .send hclient
    · cases h
  | pop id =>
    simp only [step] at h
    split at h
    · rename_i client hclient
      obtain ⟨topic, ⟨cap, queue⟩, inFlight⟩ := client
      cases queue with
      | nil =>
        cases h
        exact .popNone id
      | cons bytes queue =>
        cases h
        exact .pop hclient
    · cases h
  | disconnect id =>
    simp only [step] at h
    split at h
    · rename_i hclient
      cases h
      exact .disconnect hclient
    · cases h
  | recv =>
    simp only [step] at h
    split at h
    · cases h
    · rename_i cmd channel hchannel
      cases h
      exact .recv hchannel

end Gateway

/-! ### The registry -/

lemma retainLive_fst (bytes : Bytes) {sinks : List Nat} (hnodup : sinks.Nodup)
    (clients : HashMap Nat GatewayClient) :
    (retainLive bytes sinks clients).1 = sinks.filter (fun weak => (clients weak).isSome) := by
  induction sinks generalizing clients with
  | nil => rfl
  | cons weak sinks ih =>
    obtain ⟨hnew, hrest⟩ := List.nodup_cons.mp hnodup
    cases hlive : clients weak with
    | none => simp only [retainLive, hlive, ih hrest, List.filter_cons, Option.isSome_none,
        Bool.false_eq_true, if_false]
    | some client =>
      simp only [retainLive, hlive, ih hrest, List.filter_cons, Option.isSome_some, if_true]
      congr 1
      apply List.filter_congr
      intro other hother
      have hne : other ≠ weak := by
        rintro rfl
        exact hnew hother
      rw [HashMap.insert_of_ne _ _ hne]

/-- A sink in the list gets the bytes once. -/
lemma retainLive_snd (bytes : Bytes) {sinks : List Nat} (hnodup : sinks.Nodup)
    (clients : HashMap Nat GatewayClient) (id : Nat) :
    (retainLive bytes sinks clients).2 id =
      if id ∈ sinks then (clients id).map (·.push bytes) else clients id := by
  induction sinks generalizing clients with
  | nil => rfl
  | cons weak sinks ih =>
    obtain ⟨hnew, hrest⟩ := List.nodup_cons.mp hnodup
    by_cases hid : id = weak
    · subst hid
      cases hlive : clients id with
      | none => simp [retainLive, hlive, ih hrest, hnew]
      | some client => simp [retainLive, hlive, ih hrest, hnew]
    · cases hlive : clients weak with
      | none => simp [retainLive, hlive, ih hrest, hid]
      | some client => simp [retainLive, hlive, ih hrest, hid, HashMap.insert_of_ne _ _ hid]

namespace Gateway

/-- Every client stands once in the list of its topic, and in no other. -/
structure Registered (g : Gateway) : Prop where
  nodup : ∀ topic, (g.sinksOf topic).Nodup
  below : ∀ topic, ∀ id ∈ g.sinksOf topic, id < g.next
  fresh : ∀ id, g.next ≤ id → g.clients id = none
  listed : ∀ topic id client, g.clients id = some client →
    (id ∈ g.sinksOf topic ↔ topic = client.topic)

lemma broadcast_none {g : Gateway} {topic : String} (h : g.registry topic = none) (bytes : Bytes) :
    g.broadcast topic bytes = g := by simp [broadcast, h]

lemma broadcast_some {g : Gateway} {topic : String} {sinks : List Nat}
    (h : g.registry topic = some sinks) (bytes : Bytes) :
    g.broadcast topic bytes =
      { g with
        registry := g.registry.insert topic (retainLive bytes sinks g.clients).1
        clients := (retainLive bytes sinks g.clients).2 } := by
  simp [broadcast, h]

lemma broadcast_frame (g : Gateway) (topic : String) (bytes : Bytes) :
    (g.broadcast topic bytes).next = g.next ∧ (g.broadcast topic bytes).channel = g.channel ∧
      (g.broadcast topic bytes).log = g.log := by
  unfold broadcast
  split <;> exact ⟨rfl, rfl, rfl⟩

/-- A broadcast prunes the references that do not upgrade. -/
lemma broadcast_sinksOf {g : Gateway} (hreg : g.Registered) (topic : String) (bytes : Bytes)
    (t : String) :
    (g.broadcast topic bytes).sinksOf t =
      if t = topic then (g.sinksOf t).filter (fun weak => (g.clients weak).isSome)
      else g.sinksOf t := by
  cases hsinks : g.registry topic with
  | none =>
    rw [broadcast_none hsinks]
    by_cases ht : t = topic
    · subst ht
      simp [sinksOf, hsinks]
    · rw [if_neg ht]
  | some sinks =>
    have hnodup : sinks.Nodup := by simpa [sinksOf, hsinks] using hreg.nodup topic
    rw [broadcast_some hsinks]
    by_cases ht : t = topic
    · subst ht
      simp [sinksOf, hsinks, retainLive_fst bytes hnodup]
    · simp [sinksOf, ht, HashMap.insert_of_ne _ _ ht]

/-- A broadcast reaches the clients of the topic. -/
theorem broadcast_clients {g : Gateway} (hreg : g.Registered) (topic : String) (bytes : Bytes)
    (id : Nat) :
    (g.broadcast topic bytes).clients id =
      (g.clients id).map (fun client => if client.topic = topic then client.push bytes else client) := by
  have hmem : ∀ client, g.clients id = some client → (id ∈ g.sinksOf topic ↔ client.topic = topic) :=
    fun client h => (hreg.listed topic id client h).trans eq_comm
  cases hsinks : g.registry topic with
  | none =>
    rw [broadcast_none hsinks]
    cases hclient : g.clients id with
    | none => rfl
    | some client =>
      have hother : client.topic ≠ topic := by
        rw [Ne, ← hmem client hclient]
        simp [sinksOf, hsinks]
      simp [hother]
  | some sinks =>
    have hnodup : sinks.Nodup := by simpa [sinksOf, hsinks] using hreg.nodup topic
    rw [broadcast_some hsinks]
    cases hclient : g.clients id with
    | none => simp [retainLive_snd bytes hnodup, hclient]
    | some client =>
      have hin : id ∈ sinks ↔ client.topic = topic := by
        simpa [sinksOf, hsinks] using hmem client hclient
      simp only [retainLive_snd bytes hnodup, hclient, hin, Option.map_some]
      split <;> rfl

/-- The registry does not look at the channel and the log. -/
lemma Registered.of_same {g g' : Gateway} (hreg : g.Registered) (hclients : g'.clients = g.clients)
    (hnext : g'.next = g.next) (hregistry : g'.registry = g.registry) : g'.Registered := by
  have hsinks : g'.sinksOf = g.sinksOf := by
    funext topic
    rw [sinksOf, sinksOf, hregistry]
  refine ⟨?_, ?_, ?_, ?_⟩
  · rw [hsinks]
    exact hreg.nodup
  · rw [hsinks, hnext]
    exact hreg.below
  · rw [hclients, hnext]
    exact hreg.fresh
  · rw [hsinks, hclients]
    exact hreg.listed

lemma Registered.start : Registered .start where
  nodup _ := List.nodup_nil
  below _ _ h := by cases h
  fresh _ _ := rfl
  listed _ _ _ h := by cases h

/-- What a task does to its own client keeps the lists, as long as it keeps the topic. -/
lemma Registered.setClient {g : Gateway} (hreg : g.Registered) {id : Nat}
    {client client' : GatewayClient} (hclient : g.clients id = some client)
    (htopic : client'.topic = client.topic) : (g.setClient id client').Registered := by
  refine ⟨hreg.nodup, hreg.below, fun other hother => ?_, fun topic other client₁ hother => ?_⟩
  · have hne : other ≠ id := by
      rintro rfl
      simp [hreg.fresh other hother] at hclient
    exact (HashMap.insert_of_ne _ _ hne).trans (hreg.fresh other hother)
  · by_cases hid : other = id
    · subst hid
      simp only [Gateway.setClient, HashMap.insert_self, Option.some.injEq] at hother
      subst hother
      rw [htopic]
      exact hreg.listed topic other client hclient
    · simp only [Gateway.setClient, HashMap.insert_of_ne _ _ hid] at hother
      exact hreg.listed topic other client₁ hother

lemma Registered.broadcast {g : Gateway} (hreg : g.Registered) (topic : String) (bytes : Bytes) :
    (g.broadcast topic bytes).Registered := by
  refine ⟨fun t => ?_, fun t id hid => ?_, fun id hid => ?_, fun t id client hclient => ?_⟩
  · rw [broadcast_sinksOf hreg]
    split
    · exact (hreg.nodup t).filter _
    · exact hreg.nodup t
  · rw [broadcast_sinksOf hreg] at hid
    rw [(g.broadcast_frame topic bytes).1]
    apply hreg.below t
    split at hid
    · exact List.mem_of_mem_filter hid
    · exact hid
  · rw [(g.broadcast_frame topic bytes).1] at hid
    rw [broadcast_clients hreg, hreg.fresh id hid, Option.map_none]
  · rw [broadcast_clients hreg, Option.map_eq_some_iff] at hclient
    obtain ⟨old, hold, rfl⟩ := hclient
    have hsame : (if old.topic = topic then old.push bytes else old).topic = old.topic := by
      split <;> rfl
    rw [broadcast_sinksOf hreg, hsame, ← hreg.listed t id old hold]
    split
    · simp [hold]
    · rfl

lemma Registered.subscribe {g : Gateway} (hreg : g.Registered) (topic : String) (cap : Nat) :
    (g.subscribe topic cap).Registered := by
  have hsinks : ∀ t, (g.subscribe topic cap).sinksOf t =
      if t = topic then g.sinksOf t ++ [g.next] else g.sinksOf t := by
    intro t
    by_cases ht : t = topic
    · subst ht
      simp [Gateway.subscribe, sinksOf]
    · simp [Gateway.subscribe, sinksOf, ht, HashMap.insert_of_ne _ _ ht]
  refine ⟨fun t => ?_, fun t id hid => ?_, fun id hid => ?_, fun t id client hclient => ?_⟩
  · rw [hsinks]
    split
    · rw [List.nodup_append]
      refine ⟨hreg.nodup t, List.pairwise_singleton _ _, fun id hid other hother => ?_⟩
      rw [List.mem_singleton.mp hother]
      exact Nat.ne_of_lt (hreg.below t id hid)
    · exact hreg.nodup t
  · have hnext : (g.subscribe topic cap).next = g.next + 1 := rfl
    rw [hsinks] at hid
    rw [hnext]
    split at hid
    · rcases List.mem_append.mp hid with hid | hid
      · exact Nat.lt_succ_of_lt (hreg.below t id hid)
      · rw [List.mem_singleton.mp hid]
        exact Nat.lt_succ_self _
    · exact Nat.lt_succ_of_lt (hreg.below t id hid)
  · have hlt : g.next < id := hid
    exact (HashMap.insert_of_ne _ _ (Nat.ne_of_gt hlt)).trans (hreg.fresh id (Nat.le_of_lt hlt))
  · rw [hsinks]
    by_cases hid : id = g.next
    · subst hid
      simp only [Gateway.subscribe, HashMap.insert_self, Option.some.injEq] at hclient
      subst hclient
      have hnew : g.next ∉ g.sinksOf t := fun h => Nat.lt_irrefl _ (hreg.below t _ h)
      by_cases ht : t = topic <;> simp [ht, hnew]
    · simp only [Gateway.subscribe, HashMap.insert_of_ne _ _ hid] at hclient
      rw [← hreg.listed t id client hclient]
      by_cases ht : t = topic <;> simp [ht, hid]

lemma Registered.remove {g : Gateway} (hreg : g.Registered) (id : Nat) :
    { g with clients := g.clients.remove id }.Registered := by
  refine ⟨hreg.nodup, hreg.below, fun other hother => ?_, fun topic other client hclient => ?_⟩
  · by_cases hid : other = id
    · subst hid
      exact HashMap.remove_self _ _
    · exact (HashMap.remove_of_ne _ hid).trans (hreg.fresh other hother)
  · by_cases hid : other = id
    · subst hid
      simp at hclient
    · exact hreg.listed topic other client ((HashMap.remove_of_ne _ hid).symm.trans hclient)

lemma Registered.step {g g' : Gateway} (hreg : g.Registered) {op : GatewayOp}
    (h : Stepped g op g') : g'.Registered := by
  cases h with
  | subscribe topic cap => exact (hreg.subscribe topic cap).of_same rfl rfl rfl
  | @frame id topic sink bytes hclient =>
    have hset : (g.setClient id ⟨topic, sink, some bytes⟩).Registered := hreg.setClient hclient rfl
    exact (hset.broadcast topic bytes).of_same rfl rfl rfl
  | @send id topic sink bytes hclient =>
    have hset : (g.setClient id ⟨topic, sink, none⟩).Registered := hreg.setClient hclient rfl
    exact hset.of_same rfl rfl rfl
  | message topic bytes => exact (hreg.broadcast topic bytes).of_same rfl rfl rfl
  | @pop id topic cap bytes queue inFlight hclient =>
    have hset : (g.setClient id ⟨topic, ⟨cap, queue⟩, inFlight⟩).Registered :=
      hreg.setClient hclient rfl
    exact hset.of_same rfl rfl rfl
  | popNone id => exact hreg
  | disconnect hclient => exact hreg.remove _
  | recv hchannel => exact hreg.of_same rfl rfl rfl

lemma Registered.run {ops : List GatewayOp} {g : Gateway} (h : Gateway.start.run ops = some g) :
    g.Registered :=
  run_induction (motive := fun _ g => g.Registered) .start
    (fun _ _ _ _ _ ih hstep => ih.step (stepped_of_step hstep)) h

/-- The count is that of the topic's clients, whether or not a broadcast has pruned the list. -/
theorem subscriberCount_eq {g : Gateway} (hreg : g.Registered) (topic : String) :
    ∃ ids : List Nat, ids.Nodup ∧ g.subscriberCount topic = ids.length ∧
      ∀ id, id ∈ ids ↔ ∃ client, g.clients id = some client ∧ client.topic = topic := by
  refine ⟨(g.sinksOf topic).filter (fun weak => (g.clients weak).isSome), (hreg.nodup topic).filter _,
    List.countP_eq_length_filter, fun id => ?_⟩
  rw [List.mem_filter, Option.isSome_iff_exists]
  constructor
  · rintro ⟨hlisted, client, hclient⟩
    exact ⟨client, hclient, ((hreg.listed topic id client hclient).mp hlisted).symm⟩
  · rintro ⟨client, hclient, rfl⟩
    exact ⟨(hreg.listed _ id client hclient).mpr rfl, client, hclient⟩

end Gateway

end Laye
