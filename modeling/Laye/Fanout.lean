import Mathlib.Data.List.TakeWhile
import Laye.Gateway
import Laye.Lib.DropOldest

/-!
# What the gateway makes of a broadcast

A sink is a queue that drops its oldest frame, offered the broadcasts on its topic, however the
steps of the clients, the main loop and the readers interleave. Every frame of a client becomes one
command.
-/

namespace Laye

open DropOldest

namespace GatewayEvent

/-- The client that an event is about. -/
def client : GatewayEvent → Option Nat
  | .subscribed id _ | .frame id _ _ | .popped id _ | .sent id _ => some id
  | .message _ _ | .received _ => none

def subscribes (id : Nat) : GatewayEvent → Bool
  | .subscribed i _ => i == id
  | _ => false

def heardOn (topic : String) : GatewayEvent → Option Bytes
  | .frame _ t bytes | .message t bytes => if t = topic then some bytes else none
  | _ => none

def poppedFrom (id : Nat) : GatewayEvent → Option Bytes
  | .popped i bytes => if i = id then some bytes else none
  | _ => none

def frameOf (id : Nat) : GatewayEvent → Option (String × Bytes)
  | .frame i topic bytes => if i = id then some (topic, bytes) else none
  | _ => none

def commandOf (id : Nat) : GatewayEvent → Option GatewayCmd
  | .sent i cmd => if i = id then some cmd else none
  | _ => none

def sentCmd : GatewayEvent → Option GatewayCmd
  | .sent _ cmd => some cmd
  | _ => none

def receivedCmd : GatewayEvent → Option GatewayCmd
  | .received cmd => some cmd
  | _ => none

end GatewayEvent

open GatewayEvent

/-- The client frames and mesh messages broadcast on a topic since `id` subscribed. -/
def broadcastsSince (id : Nat) (topic : String) (log : List GatewayEvent) : List Bytes :=
  (log.dropWhile (fun e => !e.subscribes id)).filterMap (heardOn topic)

def poppedBy (id : Nat) (log : List GatewayEvent) : List Bytes := log.filterMap (poppedFrom id)

/-- The binary frames of a client, with its topic. -/
def framesOf (id : Nat) (log : List GatewayEvent) : List (String × Bytes) := log.filterMap (frameOf id)

def commandsOf (id : Nat) (log : List GatewayEvent) : List GatewayCmd := log.filterMap (commandOf id)

lemma poppedBy_append (id : Nat) (as bs : List GatewayEvent) :
    poppedBy id (as ++ bs) = poppedBy id as ++ poppedBy id bs := List.filterMap_append

lemma framesOf_append (id : Nat) (as bs : List GatewayEvent) :
    framesOf id (as ++ bs) = framesOf id as ++ framesOf id bs := List.filterMap_append

lemma commandsOf_append (id : Nat) (as bs : List GatewayEvent) :
    commandsOf id (as ++ bs) = commandsOf id as ++ commandsOf id bs := List.filterMap_append

lemma broadcastsSince_append {id : Nat} {t : String} {log : List GatewayEvent}
    (h : .subscribed id t ∈ log) (topic : String) (added : List GatewayEvent) :
    broadcastsSince id topic (log ++ added) =
      broadcastsSince id topic log ++ added.filterMap (heardOn topic) := by
  have hfound : (log.dropWhile (fun e => !e.subscribes id)).isEmpty = false := by
    rw [List.isEmpty_eq_false_iff, Ne, List.dropWhile_eq_nil_iff]
    intro hall
    simpa [subscribes] using hall _ h
  rw [broadcastsSince, List.dropWhile_append, hfound, if_neg Bool.false_ne_true,
    List.filterMap_append, broadcastsSince]

lemma broadcastsSince_subscribed {id : Nat} {log : List GatewayEvent}
    (h : ∀ e ∈ log, id ∉ e.client) (topic : String) :
    broadcastsSince id topic (log ++ [.subscribed id topic]) = [] := by
  have hnone : log.dropWhile (fun e => !e.subscribes id) = [] := by
    rw [List.dropWhile_eq_nil_iff]
    intro e he
    have hnot := h e he
    cases e with
    | subscribed i t => simpa [client, subscribes] using fun heq => hnot (by simp [client, heq])
    | frame | message | popped | sent | received => rfl
  rw [broadcastsSince, List.dropWhile_append, hnone]
  simp [subscribes, heardOn]

/-- The command that a client has not sent yet. -/
def GatewayClient.waiting (client : GatewayClient) : Option GatewayCmd :=
  client.inFlight.map (.publish client.topic)

/-- The topic and the bytes that an operation broadcasts. -/
def GatewayOp.broadcastIn (g : Gateway) : GatewayOp → Option (String × Bytes)
  | .frame id bytes => (g.clients id).map (fun client => (client.topic, bytes))
  | .message topic bytes => some (topic, bytes)
  | _ => none

/-- At some step of the run the `i`-th broadcast was the oldest in the full queue of `id`, and a
newer one arrived. -/
def DroppedAsOldest (ops : List GatewayOp) (id i : Nat) : Prop :=
  ∃ pre op post g client bytes, ops = pre ++ op :: post ∧ Gateway.start.run pre = some g ∧
    g.clients id = some client ∧ op.broadcastIn g = some (client.topic, bytes) ∧
    client.sink.queue.length = client.sink.cap ∧
    client.sink.queue = (broadcastsSince id client.topic g.log).drop i

lemma DroppedAsOldest.snoc {ops : List GatewayOp} {id i : Nat} (h : DroppedAsOldest ops id i)
    (op : GatewayOp) : DroppedAsOldest (ops ++ [op]) id i := by
  obtain ⟨pre, op', post, g, client, bytes, rfl, hrest⟩ := h
  exact ⟨pre, op', post ++ [op], g, client, bytes, by simp, hrest⟩

namespace Gateway

/-! ### One step -/

/-- What a step does to the sink of a client that is there after it. -/
inductive SinkStep (g g' : Gateway) (op : GatewayOp) (id : Nat) (client' : GatewayClient) : Prop
  | opened (hid : id = g.next) (hqueue : client'.sink.queue = [])
      (hlog : g'.log = g.log ++ [.subscribed id client'.topic])
  | kept (client : GatewayClient) (added : List GatewayEvent) (hclient : g.clients id = some client)
      (htopic : client'.topic = client.topic) (hsink : client'.sink = client.sink)
      (hlog : g'.log = g.log ++ added) (hheard : added.filterMap (heardOn client.topic) = [])
      (hpopped : poppedBy id added = [])
  | pushed (client : GatewayClient) (bytes : Bytes) (added : List GatewayEvent)
      (hclient : g.clients id = some client) (htopic : client'.topic = client.topic)
      (hsink : client'.sink = client.sink.push bytes) (hlog : g'.log = g.log ++ added)
      (hheard : added.filterMap (heardOn client.topic) = [bytes]) (hpopped : poppedBy id added = [])
      (hop : op.broadcastIn g = some (client.topic, bytes))
  | popped (client : GatewayClient) (bytes : Bytes) (hclient : g.clients id = some client)
      (htopic : client'.topic = client.topic) (hcap : client'.sink.cap = client.sink.cap)
      (hqueue : client.sink.queue = bytes :: client'.sink.queue)
      (hlog : g'.log = g.log ++ [.popped id bytes])

/-- A broadcast, after a step of a task that touched neither topics nor sinks. -/
lemma sinkStep_broadcast {g g₁ : Gateway} (hreg : g₁.Registered) {op : GatewayOp} {topic : String}
    {bytes : Bytes} (hsame : ∀ id client₁, g₁.clients id = some client₁ → ∃ client,
      g.clients id = some client ∧ client₁.topic = client.topic ∧ client₁.sink = client.sink)
    (hlog : g₁.log = g.log) (e : GatewayEvent)
    (he : ∀ t, e.heardOn t = if topic = t then some bytes else none) (hpop : ∀ id, e.poppedFrom id = none)
    (hop : op.broadcastIn g = some (topic, bytes)) {id : Nat} {client' : GatewayClient}
    (h : ((g₁.broadcast topic bytes).observe e).clients id = some client') :
    SinkStep g ((g₁.broadcast topic bytes).observe e) op id client' := by
  have hadded : ((g₁.broadcast topic bytes).observe e).log = g.log ++ [e] := by
    rw [observe, (g₁.broadcast_frame topic bytes).2.2, hlog]
  have hpopped : poppedBy id [e] = [] := by simp [poppedBy, hpop]
  rw [observe, broadcast_clients hreg, Option.map_eq_some_iff] at h
  obtain ⟨client₁, h₁, hpush⟩ := h
  obtain ⟨client, hclient, htopic, hsink⟩ := hsame id client₁ h₁
  by_cases ht : client₁.topic = topic
  · rw [if_pos ht] at hpush
    subst hpush
    refine .pushed client bytes [e] hclient htopic ?_ hadded ?_ hpopped ?_
    · rw [← hsink]
      rfl
    · simp [he, ← htopic, ht]
    · rw [hop, ← htopic, ht]
  · rw [if_neg ht] at hpush
    subst hpush
    refine .kept client [e] hclient htopic hsink hadded ?_ hpopped
    simp [he, ← htopic, Ne.symm ht]

/-- A step of one task that keeps its client's topic and sink. -/
lemma setClient_same {g : Gateway} {id : Nat} {client : GatewayClient} (client₁ : GatewayClient)
    (hclient : g.clients id = some client) (htopic : client₁.topic = client.topic)
    (hsink : client₁.sink = client.sink) {other : Nat} {client' : GatewayClient}
    (h : (g.setClient id client₁).clients other = some client') :
    ∃ client, g.clients other = some client ∧ client'.topic = client.topic ∧
      client'.sink = client.sink := by
  by_cases hid : other = id
  · subst hid
    simp only [setClient, HashMap.insert_self, Option.some.injEq] at h
    subst h
    exact ⟨client, hclient, htopic, hsink⟩
  · simp only [setClient, HashMap.insert_of_ne _ _ hid] at h
    exact ⟨client', h, rfl, rfl⟩

theorem sinkStep {g g' : Gateway} (hreg : g.Registered) {op : GatewayOp} (hstep : Stepped g op g')
    {id : Nat} {client' : GatewayClient} (h : g'.clients id = some client') :
    SinkStep g g' op id client' := by
  cases hstep with
  | subscribe topic cap =>
    by_cases hid : id = g.next
    · subst hid
      simp only [observe, subscribe, HashMap.insert_self, Option.some.injEq] at h
      subst h
      exact .opened rfl rfl rfl
    · simp only [observe, subscribe, HashMap.insert_of_ne _ _ hid] at h
      exact .kept client' [_] h rfl rfl rfl rfl rfl
  | @frame sender topic sink bytes hclient =>
    have hset : (g.setClient sender ⟨topic, sink, some bytes⟩).Registered := hreg.setClient hclient rfl
    have hop : (GatewayOp.frame sender bytes).broadcastIn g = some (topic, bytes) := by
      rw [GatewayOp.broadcastIn, hclient]
      rfl
    exact sinkStep_broadcast hset (fun _ _ => setClient_same ⟨topic, sink, some bytes⟩ hclient rfl rfl)
      rfl _ (fun _ => rfl) (fun _ => rfl) hop h
  | message topic bytes =>
    exact sinkStep_broadcast hreg (fun _ client h => ⟨client, h, rfl, rfl⟩) rfl _ (fun _ => rfl)
      (fun _ => rfl) rfl h
  | @send sender topic sink bytes hclient =>
    obtain ⟨client, hold, htopic, hsink⟩ := setClient_same ⟨topic, sink, none⟩ hclient rfl rfl h
    exact .kept client [_] hold htopic hsink rfl rfl rfl
  | @pop reader topic cap bytes queue inFlight hclient =>
    by_cases hid : id = reader
    · subst hid
      simp only [observe, setClient, HashMap.insert_self, Option.some.injEq] at h
      subst h
      exact .popped _ bytes hclient rfl rfl rfl rfl
    · simp only [observe, setClient, HashMap.insert_of_ne _ _ hid] at h
      exact .kept client' [_] h rfl rfl rfl rfl (by simp [poppedBy, poppedFrom, Ne.symm hid])
  | popNone => exact .kept client' [] h rfl rfl (List.append_nil _).symm rfl rfl
  | @disconnect gone topic sink hclient =>
    by_cases hid : id = gone
    · subst hid
      simp at h
    · simp only [HashMap.remove_of_ne _ hid] at h
      exact .kept client' [] h rfl rfl (List.append_nil _).symm rfl rfl
  | recv hchannel => exact .kept client' [_] h rfl rfl rfl rfl rfl

/-! ### The record -/

lemma Registered.lt_next {g : Gateway} (hreg : g.Registered) {id : Nat} {client : GatewayClient}
    (h : g.clients id = some client) : id < g.next := by
  by_contra hge
  simp [hreg.fresh id (Nat.le_of_not_lt hge)] at h

/-- The record tells every client's subscription, and nothing of clients to come. -/
structure Recorded (g : Gateway) : Prop where
  below : ∀ e ∈ g.log, ∀ id ∈ e.client, id < g.next
  subscribed : ∀ id client, g.clients id = some client → .subscribed id client.topic ∈ g.log

/-- What a step adds to the record is about a client that is there after it. -/
lemma log_step {g g' : Gateway} (hreg : g.Registered) {op : GatewayOp} (hstep : Stepped g op g') :
    g.next ≤ g'.next ∧ ∃ added, g'.log = g.log ++ added ∧ ∀ e ∈ added, ∀ id ∈ e.client, id < g'.next := by
  cases hstep with
  | subscribe topic cap =>
    refine ⟨Nat.le_succ _, _, rfl, fun e he id hid => ?_⟩
    rw [List.mem_singleton.mp he] at hid
    cases hid
    exact Nat.lt_succ_self _
  | @frame sender topic sink bytes hclient =>
    have hnext := ((g.setClient sender ⟨topic, sink, some bytes⟩).broadcast_frame topic bytes).1
    have hlog := ((g.setClient sender ⟨topic, sink, some bytes⟩).broadcast_frame topic bytes).2.2
    refine ⟨hnext.ge, _, congrArg (· ++ _) hlog, fun e he id hid => ?_⟩
    rw [List.mem_singleton.mp he] at hid
    cases hid
    exact (hreg.lt_next hclient).trans_eq hnext.symm
  | message topic bytes =>
    refine ⟨(g.broadcast_frame topic bytes).1.ge, _,
      congrArg (· ++ _) (g.broadcast_frame topic bytes).2.2, fun e he id hid => ?_⟩
    rw [List.mem_singleton.mp he] at hid
    cases hid
  | send hclient | pop hclient =>
    refine ⟨Nat.le_refl _, _, rfl, fun e he id hid => ?_⟩
    rw [List.mem_singleton.mp he] at hid
    cases hid
    exact hreg.lt_next hclient
  | popNone | disconnect =>
    exact ⟨Nat.le_refl _, [], (List.append_nil _).symm, by simp⟩
  | recv hchannel =>
    refine ⟨Nat.le_refl _, _, rfl, fun e he id hid => ?_⟩
    rw [List.mem_singleton.mp he] at hid
    cases hid

lemma Recorded.step {g g' : Gateway} (hreg : g.Registered) (hrec : g.Recorded) {op : GatewayOp}
    (hstep : Stepped g op g') : g'.Recorded := by
  obtain ⟨hnext, added, hlog, hadded⟩ := log_step hreg hstep
  refine ⟨fun e he id hid => ?_, fun id client' hclient' => ?_⟩
  · rw [hlog] at he
    rcases List.mem_append.mp he with he | he
    · exact Nat.lt_of_lt_of_le (hrec.below e he id hid) hnext
    · exact hadded e he id hid
  · have hold : ∀ client, g.clients id = some client → .subscribed id client.topic ∈ g'.log := by
      intro client hclient
      rw [hlog]
      exact List.mem_append_left _ (hrec.subscribed id client hclient)
    cases sinkStep hreg hstep hclient' with
    | opened _ _ hopened =>
      rw [hopened]
      exact List.mem_append_right _ List.mem_cons_self
    | kept client _ hclient htopic | pushed client _ _ hclient htopic | popped client _ hclient htopic =>
      rw [htopic]
      exact hold client hclient

lemma Recorded.run {ops : List GatewayOp} {g : Gateway} (h : Gateway.start.run ops = some g) :
    g.Recorded :=
  run_induction (motive := fun _ g => g.Recorded) ⟨by simp [Gateway.start], by simp [Gateway.start]⟩
    (fun _ _ _ _ hrun ih hstep => ih.step (Registered.run hrun) (stepped_of_step hstep)) h

lemma Recorded.poppedBy_next {g : Gateway} (hrec : g.Recorded) : poppedBy g.next g.log = [] := by
  apply List.filterMap_eq_nil_iff.mpr
  intro e he
  have hbelow := hrec.below e he
  cases e with
  | popped id bytes =>
    have hne : id ≠ g.next := Nat.ne_of_lt (hbelow id rfl)
    simp [poppedFrom, hne]
  | subscribed | frame | message | sent | received => rfl

/-! ### Sinks -/

/-- The sink of a client is accounted for. -/
theorem accounted {ops : List GatewayOp} {g : Gateway} (h : Gateway.start.run ops = some g) :
    ∀ id client, g.clients id = some client → 0 < client.sink.cap →
      ∃ poppedAt, Accounted client.sink.cap (broadcastsSince id client.topic g.log)
        (poppedBy id g.log) client.sink.queue poppedAt (DroppedAsOldest ops id) := by
  refine run_induction (motive := fun ops g => ∀ id client, g.clients id = some client →
    0 < client.sink.cap → ∃ poppedAt, Accounted client.sink.cap
      (broadcastsSince id client.topic g.log) (poppedBy id g.log) client.sink.queue poppedAt
      (DroppedAsOldest ops id)) (fun _ _ h => by cases h) ?_ h
  intro ops op g g' hrun ih hstep id client' hclient' hcap
  have hrec := Recorded.run hrun
  cases sinkStep (Registered.run hrun) (stepped_of_step hstep) hclient' with
  | opened hid hqueue hlog =>
    subst hid
    have hfresh : ∀ e ∈ g.log, g.next ∉ e.client :=
      fun e he hmem => Nat.lt_irrefl _ (hrec.below e he _ hmem)
    have hpopped : poppedBy g.next g'.log = [] := by
      rw [hlog, poppedBy_append, hrec.poppedBy_next]
      rfl
    rw [hpopped, hqueue, hlog, broadcastsSince_subscribed hfresh]
    exact ⟨[], .start _ _⟩
  | kept client added hclient htopic hsink hlog hheard hpopped =>
    rw [hsink] at hcap ⊢
    obtain ⟨poppedAt, hacc⟩ := ih id client hclient hcap
    have hoffered : broadcastsSince id client'.topic g'.log = broadcastsSince id client.topic g.log := by
      rw [hlog, htopic, broadcastsSince_append (hrec.subscribed id client hclient), hheard,
        List.append_nil]
    rw [hoffered, hlog, poppedBy_append, hpopped, List.append_nil]
    exact ⟨poppedAt, hacc.mono (fun _ hi => hi.snoc op)⟩
  | pushed client bytes added hclient htopic hsink hlog hheard hpopped hop =>
    rw [hsink] at hcap ⊢
    obtain ⟨poppedAt, hacc⟩ := ih id client hclient hcap
    have hoffered : broadcastsSince id client'.topic g'.log =
        broadcastsSince id client.topic g.log ++ [bytes] := by
      rw [hlog, htopic, broadcastsSince_append (hrec.subscribed id client hclient), hheard]
    rw [hoffered, hlog, poppedBy_append, hpopped, List.append_nil]
    refine ⟨poppedAt, (hacc.mono (fun _ hi => hi.snoc op)).offer hcap bytes (fun hfull => ?_)⟩
    exact ⟨ops, op, [], g, client, bytes, rfl, hrun, hclient, hop, hfull, hacc.queue_eq⟩
  | popped client bytes hclient htopic hsame hqueue hlog =>
    rw [hsame] at hcap ⊢
    obtain ⟨poppedAt, hacc⟩ := ih id client hclient hcap
    have hoffered : broadcastsSince id client'.topic g'.log = broadcastsSince id client.topic g.log := by
      rw [hlog, htopic, broadcastsSince_append (hrec.subscribed id client hclient)]
      exact List.append_nil _
    have hout : poppedBy id [GatewayEvent.popped id bytes] = [bytes] := by simp [poppedBy, poppedFrom]
    rw [hqueue] at hacc
    rw [hoffered, hlog, poppedBy_append, hout]
    exact ⟨_, (hacc.mono (fun _ hi => hi.snoc op)).pop⟩

/-! ### Commands -/

/-- The command that a client's task has not sent yet. -/
def waitingOf (g : Gateway) (id : Nat) : List GatewayCmd :=
  ((g.clients id).bind GatewayClient.waiting).toList

/-- What a step does to the frames and the commands of a client. -/
inductive TaskStep (g g' : Gateway) (id : Nat) : Prop
  | idle (added : List GatewayEvent) (hlog : g'.log = g.log ++ added) (hframes : framesOf id added = [])
      (hcommands : commandsOf id added = []) (hwaiting : g'.waitingOf id = g.waitingOf id)
  | took (topic : String) (bytes : Bytes) (hlog : g'.log = g.log ++ [.frame id topic bytes])
      (hidle : g.waitingOf id = []) (hwaiting : g'.waitingOf id = [.publish topic bytes])
  | sent (cmd : GatewayCmd) (hlog : g'.log = g.log ++ [.sent id cmd]) (hwas : g.waitingOf id = [cmd])
      (hwaiting : g'.waitingOf id = [])

lemma waitingOf_broadcast {g : Gateway} (hreg : g.Registered) (topic : String) (bytes : Bytes)
    (id : Nat) : (g.broadcast topic bytes).waitingOf id = g.waitingOf id := by
  rw [waitingOf, broadcast_clients hreg, waitingOf]
  cases g.clients id with
  | none => rfl
  | some client =>
    rw [Option.map_some]
    split <;> rfl

theorem taskStep {g g' : Gateway} (hreg : g.Registered) {op : GatewayOp} (hstep : Stepped g op g')
    (id : Nat) : TaskStep g g' id := by
  have hother : ∀ {other : Nat} (client : GatewayClient), id ≠ other →
      (g.setClient other client).waitingOf id = g.waitingOf id := by
    intro other client hne
    simp only [waitingOf, setClient, HashMap.insert_of_ne _ _ hne]
  cases hstep with
  | subscribe topic cap =>
    refine .idle [_] rfl rfl rfl ?_
    by_cases hid : id = g.next
    · subst hid
      simp [waitingOf, observe, subscribe, GatewayClient.waiting, hreg.fresh]
    · simp only [waitingOf, observe, subscribe, HashMap.insert_of_ne _ _ hid]
  | @frame sender topic sink bytes hclient =>
    have hset : (g.setClient sender ⟨topic, sink, some bytes⟩).Registered := hreg.setClient hclient rfl
    have hlog := ((g.setClient sender ⟨topic, sink, some bytes⟩).broadcast_frame topic bytes).2.2
    have hwaiting := waitingOf_broadcast hset topic bytes id
    by_cases hid : id = sender
    · subst hid
      refine .took topic bytes (congrArg (· ++ _) hlog) ?_ (hwaiting.trans ?_)
      · simp [waitingOf, hclient, GatewayClient.waiting]
      · simp [waitingOf, setClient, GatewayClient.waiting]
    · refine .idle _ (congrArg (· ++ _) hlog) ?_ rfl (hwaiting.trans (hother _ hid))
      simp [framesOf, frameOf, Ne.symm hid]
  | message topic bytes =>
    exact .idle _ (congrArg (· ++ _) (g.broadcast_frame topic bytes).2.2) rfl rfl
      (waitingOf_broadcast hreg topic bytes id)
  | @send sender topic sink bytes hclient =>
    by_cases hid : id = sender
    · subst hid
      refine .sent _ rfl ?_ ?_
      · simp [waitingOf, hclient, GatewayClient.waiting]
      · simp [waitingOf, observe, setClient, GatewayClient.waiting]
    · exact .idle [_] rfl rfl (by simp [commandsOf, commandOf, Ne.symm hid]) (hother _ hid)
  | @pop reader topic cap bytes queue inFlight hclient =>
    refine .idle [_] rfl rfl rfl ?_
    by_cases hid : id = reader
    · subst hid
      simp [waitingOf, observe, setClient, hclient, GatewayClient.waiting]
    · exact hother _ hid
  | popNone => exact .idle [] (List.append_nil _).symm rfl rfl rfl
  | @disconnect gone topic sink hclient =>
    refine .idle [] (List.append_nil _).symm rfl rfl ?_
    by_cases hid : id = gone
    · subst hid
      simp [waitingOf, hclient, GatewayClient.waiting]
    · simp only [waitingOf, HashMap.remove_of_ne _ hid]
  | recv hchannel => exact .idle [_] rfl rfl rfl rfl

/-- Every frame of a client is one command, the last one maybe still to be sent. -/
theorem commandsOf_run {ops : List GatewayOp} {g : Gateway} (h : Gateway.start.run ops = some g)
    (id : Nat) : commandsOf id g.log ++ g.waitingOf id =
      (framesOf id g.log).map (fun frame => .publish frame.1 frame.2) := by
  refine run_induction (motive := fun _ g => commandsOf id g.log ++ g.waitingOf id =
    (framesOf id g.log).map (fun frame => .publish frame.1 frame.2)) rfl ?_ h
  intro ops op g g' hrun ih hstep
  cases taskStep (Registered.run hrun) (stepped_of_step hstep) id with
  | idle added hlog hframes hcommands hwaiting =>
    rw [hlog, commandsOf_append, framesOf_append, hframes, hcommands, hwaiting, List.append_nil,
      List.append_nil]
    exact ih
  | took topic bytes hlog hidle hwaiting =>
    have hframe : framesOf id [.frame id topic bytes] = [(topic, bytes)] := by simp [framesOf, frameOf]
    have hcommand : commandsOf id [.frame id topic bytes] = [] := rfl
    rw [hidle, List.append_nil] at ih
    rw [hlog, commandsOf_append, framesOf_append, hframe, hcommand, hwaiting, List.append_nil, ih,
      List.map_append]
    rfl
  | sent cmd hlog hwas hwaiting =>
    have hframe : framesOf id [.sent id cmd] = [] := rfl
    have hcommand : commandsOf id [.sent id cmd] = [cmd] := by simp [commandsOf, commandOf]
    rw [hwas] at ih
    rw [hlog, commandsOf_append, framesOf_append, hframe, hcommand, hwaiting, List.append_nil,
      List.append_nil]
    exact ih

/-- What a step sends joins the channel at one end, and what it receives leaves at the other. -/
lemma channel_step {g g' : Gateway} {op : GatewayOp} (hstep : Stepped g op g') :
    ∃ added, g'.log = g.log ++ added ∧
      added.filterMap receivedCmd ++ g'.channel = g.channel ++ added.filterMap sentCmd := by
  cases hstep with
  | subscribe | pop => exact ⟨[_], rfl, (List.append_nil _).symm⟩
  | @frame sender topic sink bytes hclient =>
    have hframe := (g.setClient sender ⟨topic, sink, some bytes⟩).broadcast_frame topic bytes
    exact ⟨[_], congrArg (· ++ _) hframe.2.2, hframe.2.1.trans (List.append_nil _).symm⟩
  | message topic bytes =>
    have hframe := g.broadcast_frame topic bytes
    exact ⟨[_], congrArg (· ++ _) hframe.2.2, hframe.2.1.trans (List.append_nil _).symm⟩
  | send => exact ⟨[_], rfl, rfl⟩
  | popNone | disconnect => exact ⟨[], (List.append_nil _).symm, (List.append_nil _).symm⟩
  | recv hchannel => exact ⟨[_], rfl, hchannel.symm.trans (List.append_nil _).symm⟩

/-- The channel loses no command and keeps their order. -/
theorem channel_run {ops : List GatewayOp} {g : Gateway} (h : Gateway.start.run ops = some g) :
    g.log.filterMap receivedCmd ++ g.channel = g.log.filterMap sentCmd := by
  refine run_induction (motive := fun _ g => g.log.filterMap receivedCmd ++ g.channel =
    g.log.filterMap sentCmd) rfl ?_ h
  intro ops op g g' _ ih hstep
  obtain ⟨added, hlog, hmoved⟩ := channel_step (stepped_of_step hstep)
  rw [hlog, List.filterMap_append, List.filterMap_append, List.append_assoc, hmoved,
    ← List.append_assoc, ih]

/-- Whatever the order of the steps: what a live sink has popped and then what it has queued stand
in the broadcasts on its topic since it subscribed, each in a place of its own and in order; the
queue is their end and fits the capacity; a place is skipped only for the oldest in a full queue.
Every frame of a client is one command on its topic, in the client's order, and the main loop
receives the commands as they were sent. -/
theorem fan_out {ops : List GatewayOp} {g : Gateway} (h : Gateway.start.run ops = some g) :
    (∀ id client, g.clients id = some client → 1 ≤ client.sink.cap →
      let heard := broadcastsSince id client.topic g.log
      client.sink.queue <:+ heard ∧ client.sink.queue.length ≤ client.sink.cap ∧
        ∃ places, Places heard places (poppedBy id g.log ++ client.sink.queue) ∧
          ∀ i < heard.length, i ∉ places → DroppedAsOldest ops id i) ∧
    (∀ id, commandsOf id g.log ++ g.waitingOf id =
      (framesOf id g.log).map (fun frame => .publish frame.1 frame.2)) ∧
    g.log.filterMap receivedCmd ++ g.channel = g.log.filterMap sentCmd := by
  refine ⟨fun id client hclient hcap => ?_, commandsOf_run h, channel_run h⟩
  obtain ⟨poppedAt, hacc⟩ := accounted h id client hclient hcap
  exact ⟨hacc.suffix, hacc.bounded, _, hacc.all, fun i hi hnot => hacc.missing hi hnot⟩

/-- A frame and a mesh message before the second client's sink, of capacity one, is read. -/
def slowReader : List GatewayOp :=
  [.accept "rave-chat/v1", .subscribe "rave-chat/v1" 1, .frame 0 [1], .send 0,
    .message "rave-chat/v1" [2], .pop 1, .recv]

theorem fan_out_slowReader : ∃ g, Gateway.start.run slowReader = some g ∧
    commandsOf 0 g.log = [.publish "rave-chat/v1" [1]] ∧ poppedBy 1 g.log = [[2]] ∧
    DroppedAsOldest slowReader 1 0 := by
  have hrun : Gateway.start.run slowReader = some _ := rfl
  refine ⟨_, hrun, rfl, rfl, ?_⟩
  obtain ⟨-, -, places, hplaces, hmissing⟩ := (fan_out hrun).1 1 _ rfl (by decide)
  have hheard : Places ([[1], [2]] : List Bytes) places [[2]] := hplaces
  refine hmissing 0 (by decide) (fun hmem => ?_)
  have hfirst := List.mem_map_of_mem (f := fun i => ([[1], [2]] : List Bytes)[i]?) hmem
  rw [hheard.holds] at hfirst
  simp at hfirst

end Gateway

end Laye
