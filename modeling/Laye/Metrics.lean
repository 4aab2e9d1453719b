import Mathlib.Data.List.DropRight
import Laye.Fanout
import Laye.Stats

/-!
# What the relay reports of itself

The main loop of `crates/relaye/src/main.rs` takes the events of the swarm, the commands of the
gateway and the ticks of its timer as they come, while the gateway's clients go on. A tick keeps a
sample for the status page and reports it to the metrics; of the messages it reports how many have
come since the tick before.
-/

namespace Laye

def STATS_HISTORY_LEN : Nat := 60

/-- `f64`: conversion from `u64`, and division. -/
structure Doubles (F : Type) where
  ofU64 : UInt64 → F
  div : F → F → F

/-- One call of `Metrics`. -/
inductive Metric (F : Type)
  | gauge (name : String) (value : F)
  | counter (name : String) (delta : UInt64)

/-- `RelayeStats` with the histories that the status page shows. -/
structure SampledStats (F : Type) extends RelayeStats where
  peerHistory : List UInt64 := []
  msgRateHistory : List F := []

/-- A `VecDeque` that `push_sample` keeps at its length. -/
def pushHistory {α : Type} (history : List α) (x : α) : List α :=
  (if history.length = STATS_HISTORY_LEN then history.tail else history) ++ [x]

def SampledStats.pushSample {F : Type} (s : SampledStats F) (msgRate : F) : SampledStats F :=
  { s with
    peerHistory := pushHistory s.peerHistory s.peerCount
    msgRateHistory := pushHistory s.msgRateHistory msgRate }

/-- The main loop with what it shares, and the calls it has made of its metrics. -/
structure MainLoop (F : Type) where
  stats : SampledStats F
  registry : Gateway
  lastMsgs : UInt64
  metrics : List (Metric F)

/-- What happens to the relay. What comes from gossipsub is an event of the swarm. -/
inductive MainOp (PeerId F : Type)
  | event (e : SwarmEvent PeerId)
  | gateway (op : GatewayOp) (h : ∀ topic bytes, op ≠ .message topic bytes)
  | tick (uptime : F) (rss : UInt64)

namespace MainLoop

variable {PeerId F : Type}

def start : MainLoop F := ⟨{}, .start, 0, []⟩

/-- The record of the gateway goes on with what is broadcast to it. -/
def recorded (e : SwarmEvent PeerId) (registry : Gateway) : Gateway :=
  match e with
  | .message topic data => registry.observe (.message topic data)
  | _ => registry

def onEvent (m : MainLoop F) (e : SwarmEvent PeerId) : MainLoop F :=
  let (s, registry) := handleEvent (m.stats.toRelayeStats, m.registry) e
  { m with stats := { m.stats with toRelayeStats := s }, registry := recorded e registry }

/-- Messages per second, over `secs` seconds. -/
def rate (doubles : Doubles F) (secs msgsDelta : UInt64) : F :=
  doubles.div (doubles.ofU64 msgsDelta) (doubles.ofU64 secs)

def onTick (doubles : Doubles F) (secs : UInt64) (uptime : F) (rss : UInt64) (m : MainLoop F) :
    MainLoop F :=
  let msgsDelta := saturatingSub m.stats.totalMsgsRelayed m.lastMsgs
  { m with
    stats := m.stats.pushSample (rate doubles secs msgsDelta)
    lastMsgs := m.stats.totalMsgsRelayed
    metrics := m.metrics ++ [
      .gauge "relaye_connections" (doubles.ofU64 m.stats.peerCount),
      .gauge "relaye_msgs_per_sec" (rate doubles secs msgsDelta),
      .gauge "relaye_uptime_secs" uptime,
      .gauge "relaye_mem_rss_bytes" (doubles.ofU64 rss),
      .counter "relaye_messages_total" msgsDelta] }

/-- One turn of the main loop or of a client's task; `none` where it cannot happen. -/
def step (doubles : Doubles F) (secs : UInt64) (m : MainLoop F) :
    MainOp PeerId F → Option (MainLoop F)
  | .event e => some (m.onEvent e)
  | .gateway op _ => (m.registry.step op).map fun registry => { m with registry }
  | .tick uptime rss => some (m.onTick doubles secs uptime rss)

def run (doubles : Doubles F) (secs : UInt64) (m : MainLoop F) (ops : List (MainOp PeerId F)) :
    Option (MainLoop F) := ops.foldlM (step doubles secs) m

/-- The deltas of a counter, report after report. -/
def counters (wanted : String) (metrics : List (Metric F)) : List UInt64 :=
  metrics.filterMap fun
    | .counter name delta => if name = wanted then some delta else none
    | _ => none

/-- The values of a gauge, report after report. -/
def gauges (wanted : String) (metrics : List (Metric F)) : List F :=
  metrics.filterMap fun
    | .gauge name value => if name = wanted then some value else none
    | _ => none

/-! ### What a run has heard -/

/-- The events so far, and those that were there at each tick. -/
structure Heard (PeerId : Type) where
  events : List (SwarmEvent PeerId)
  ticks : List (List (SwarmEvent PeerId))

def Heard.step (h : Heard PeerId) : MainOp PeerId F → Heard PeerId
  | .event e => { h with events := h.events ++ [e] }
  | .gateway .. => h
  | .tick .. => { h with ticks := h.ticks ++ [h.events] }

def heard (ops : List (MainOp PeerId F)) : Heard PeerId := ops.foldl Heard.step ⟨[], []⟩

/-- A message of gossipsub. -/
def messageOf : SwarmEvent PeerId → Option (String × Bytes)
  | .message topic data => some (topic, data)
  | _ => none

/-- A message of gossipsub in the record of the gateway. -/
def broadcastOf : GatewayEvent → Option (String × Bytes)
  | .message topic bytes => some (topic, bytes)
  | _ => none

/-- What `total_msgs_relayed` is after these events. -/
def relayed (events : List (SwarmEvent PeerId)) : Nat :=
  min (2 ^ 64 - 1) (events.filterMap messageOf).length

/-! ### Counters -/

lemma saturatingAdd_one_toNat (a : UInt64) :
    (saturatingAdd a 1).toNat = min (2 ^ 64 - 1) (a.toNat + 1) := by
  have hone : (1 : UInt64).toNat = 1 := rfl
  have hlt := a.toNat_lt
  unfold saturatingAdd
  rw [hone]
  split
  · rename_i hfits
    rw [UInt64.toNat_add, hone, Nat.mod_eq_of_lt hfits]
    omega
  · rw [UInt64.toNat_ofNat_of_lt' (by decide)]
    omega

lemma saturatingSub_toNat {a b : UInt64} (h : b.toNat ≤ a.toNat) :
    (saturatingSub a b).toNat = a.toNat - b.toNat := by
  have hle : b ≤ a := UInt64.le_iff_toNat_le.mpr h
  rw [saturatingSub, if_pos hle, UInt64.toNat_sub_of_le _ _ hle]

/-- `handle_event` counts the same whatever the registry. -/
lemma handleEvent_stats (s : RelayeStats) (g g' : Gateway) (e : SwarmEvent PeerId) :
    (handleEvent (s, g) e).1 = (handleEvent (s, g') e).1 := by
  cases e <;> rfl

lemma statsAfter_concat (g : Gateway) (events : List (SwarmEvent PeerId)) (e : SwarmEvent PeerId) :
    statsAfter .start (events ++ [e]) = (handleEvent (statsAfter .start events, g) e).1 := by
  obtain ⟨g', hg'⟩ := statsAfter_snoc .start events e
  rw [hg', handleEvent_stats]

lemma total_statsAfter (events : List (SwarmEvent PeerId)) :
    (statsAfter .start events).totalMsgsRelayed.toNat = relayed events := by
  induction events using List.reverseRecOn with
  | nil => rfl
  | append_singleton events e ih =>
    rw [statsAfter_concat .start, relayed, List.filterMap_append, List.length_append]
    rw [relayed] at ih
    cases e with
    | message topic data =>
      have hadd := saturatingAdd_one_toNat (statsAfter .start events).totalMsgsRelayed
      have hone : (([.message topic data] : List (SwarmEvent PeerId)).filterMap messageOf).length = 1 :=
        rfl
      rw [hone]
      apply hadd.trans
      rw [ih]
      omega
    | _ => exact ih

lemma relayed_mono {before events : List (SwarmEvent PeerId)} (h : before <+: events) :
    relayed before ≤ relayed events := by
  have hle := (h.sublist.filterMap messageOf).length_le
  unfold relayed
  omega

/-- A history holds the last samples there were. -/
lemma pushHistory_rtake {α : Type} (samples : List α) (x : α) :
    pushHistory (samples.rtake STATS_HISTORY_LEN) x = (samples ++ [x]).rtake STATS_HISTORY_LEN := by
  have hlast : (samples ++ [x]).rtake STATS_HISTORY_LEN =
      samples.rtake (STATS_HISTORY_LEN - 1) ++ [x] := List.rtake_concat_succ ..
  rw [hlast, pushHistory]
  congr 1
  unfold List.rtake STATS_HISTORY_LEN
  rw [List.length_drop]
  split
  · rw [List.tail_drop]
    congr 1
    omega
  · rw [Nat.sub_eq_zero_of_le (by omega), Nat.sub_eq_zero_of_le (by omega)]

/-- The gateway's own steps broadcast nothing that came from gossipsub. -/
lemma broadcastOf_step {g g' : Gateway} {op : GatewayOp}
    (hop : ∀ topic bytes, op ≠ .message topic bytes) (hstep : g.step op = some g') :
    g'.log.filterMap broadcastOf = g.log.filterMap broadcastOf := by
  cases Gateway.stepped_of_step hstep with
  | message topic bytes => exact absurd rfl (hop topic bytes)
  | @frame id topic sink bytes hclient =>
    have hframe := (g.setClient id ⟨topic, sink, some bytes⟩).broadcast_frame topic bytes
    rw [Gateway.observe, List.filterMap_append, hframe.2.2]
    exact List.append_nil _
  | popNone | disconnect => rfl
  | subscribe | send | pop | recv =>
    rw [Gateway.observe, List.filterMap_append]
    exact List.append_nil _

/-! ### Runs -/

variable {doubles : Doubles F} {secs : UInt64}

/-- What holds of the relay, given what it has heard. -/
structure Sound (doubles : Doubles F) (secs : UInt64) (m : MainLoop F) (h : Heard PeerId) :
    Prop where
  stats : m.stats.toRelayeStats = statsAfter .start h.events
  earlier : ∀ events ∈ h.ticks, events <+: h.events
  last : m.lastMsgs.toNat = relayed (h.ticks.getLast?.getD [])
  sum : ((counters "relaye_messages_total" m.metrics).map UInt64.toNat).sum = m.lastMsgs.toNat
  reports : (counters "relaye_messages_total" m.metrics).length = h.ticks.length
  sums : ∀ (k : Nat) events, h.ticks[k]? = some events →
    (((counters "relaye_messages_total" m.metrics).take (k + 1)).map UInt64.toNat).sum =
      relayed events
  connections : gauges "relaye_connections" m.metrics =
    h.ticks.map fun events => doubles.ofU64 (statsAfter .start events).peerCount
  peers : m.stats.peerHistory =
    (h.ticks.map fun events => (statsAfter .start events).peerCount).rtake STATS_HISTORY_LEN
  rates : gauges "relaye_msgs_per_sec" m.metrics =
    (counters "relaye_messages_total" m.metrics).map (rate doubles secs)
  rateHistory : m.stats.msgRateHistory =
    (gauges "relaye_msgs_per_sec" m.metrics).rtake STATS_HISTORY_LEN
  gateway : ∃ ops, Gateway.start.run ops = some m.registry
  messages : m.registry.log.filterMap broadcastOf = h.events.filterMap messageOf

lemma sound_start : Sound doubles secs start (⟨[], []⟩ : Heard PeerId) where
  stats := rfl
  earlier := by simp
  last := rfl
  sum := rfl
  reports := rfl
  sums := by simp
  connections := rfl
  peers := rfl
  rates := rfl
  rateHistory := rfl
  gateway := ⟨[], rfl⟩
  messages := rfl

lemma Sound.lastMsgs_le {m : MainLoop F} {h : Heard PeerId} (hs : Sound doubles secs m h) :
    m.lastMsgs.toNat ≤ m.stats.totalMsgsRelayed.toNat := by
  have htotal : m.stats.totalMsgsRelayed.toNat = relayed h.events := by
    rw [hs.stats, total_statsAfter]
  rw [htotal, hs.last]
  apply relayed_mono
  cases hlast : h.ticks.getLast? with
  | none => exact List.nil_prefix
  | some events => exact hs.earlier events (List.mem_of_getLast? hlast)

/-- An event: the record of the gateway goes on as its `message` step does. -/
lemma Sound.onEvent {m : MainLoop F} {h : Heard PeerId} (hs : Sound doubles secs m h)
    (e : SwarmEvent PeerId) : Sound doubles secs (m.onEvent e) ⟨h.events ++ [e], h.ticks⟩ := by
  have hstats : (m.onEvent e).stats.toRelayeStats = statsAfter .start (h.events ++ [e]) := by
    rw [statsAfter_concat m.registry, ← hs.stats]
    rfl
  have hearlier : ∀ events ∈ h.ticks, events <+: h.events ++ [e] :=
    fun events hevents => (hs.earlier events hevents).trans (List.prefix_append _ _)
  have hregistry : (∃ ops, Gateway.start.run ops = some (m.onEvent e).registry) ∧
      (m.onEvent e).registry.log.filterMap broadcastOf = (h.events ++ [e]).filterMap messageOf := by
    rw [List.filterMap_append, ← hs.messages]
    obtain ⟨ops, hops⟩ := hs.gateway
    cases e with
    | message topic data =>
      constructor
      · have hstep := @step_message PeerId m.stats.toRelayeStats m.registry topic data
        exact ⟨ops ++ [.message topic data], Gateway.run_snoc.mpr ⟨_, hops, hstep⟩⟩
      · have hlog := (m.registry.broadcast_frame topic data).2.2
        change (((m.registry.broadcast topic data).log ++ [_]).filterMap _) = _
        rw [hlog, List.filterMap_append]
        rfl
    | _ => exact ⟨⟨ops, hops⟩, (List.append_nil _).symm⟩
  exact { hs with
    stats := hstats
    earlier := hearlier
    gateway := hregistry.1
    messages := hregistry.2 }

lemma Sound.onGateway {m : MainLoop F} {h : Heard PeerId} (hs : Sound doubles secs m h)
    {op : GatewayOp} (hop : ∀ topic bytes, op ≠ .message topic bytes) {registry : Gateway}
    (hstep : m.registry.step op = some registry) : Sound doubles secs { m with registry } h := by
  obtain ⟨ops, hops⟩ := hs.gateway
  have hrun : Gateway.start.run (ops ++ [op]) = some registry :=
    Gateway.run_snoc.mpr ⟨_, hops, hstep⟩
  exact { hs with
    gateway := ⟨_, hrun⟩
    messages := (broadcastOf_step hop hstep).trans hs.messages }

/-! ### A tick -/

lemma counters_onTick (m : MainLoop F) (uptime : F) (rss : UInt64) :
    counters "relaye_messages_total" (m.onTick doubles secs uptime rss).metrics =
      counters "relaye_messages_total" m.metrics ++
        [saturatingSub m.stats.totalMsgsRelayed m.lastMsgs] := by
  simp [onTick, counters]

lemma gauges_onTick (m : MainLoop F) (uptime : F) (rss : UInt64) :
    gauges "relaye_connections" (m.onTick doubles secs uptime rss).metrics =
        gauges "relaye_connections" m.metrics ++ [doubles.ofU64 m.stats.peerCount] ∧
      gauges "relaye_msgs_per_sec" (m.onTick doubles secs uptime rss).metrics =
        gauges "relaye_msgs_per_sec" m.metrics ++
          [rate doubles secs (saturatingSub m.stats.totalMsgsRelayed m.lastMsgs)] := by
  simp [onTick, gauges]

/-- Reports that add up at every tick go on to do so with one more. -/
lemma sums_concat {ticks : List (List (SwarmEvent PeerId))} {now : List (SwarmEvent PeerId)}
    {reports : List UInt64} {delta : UInt64} (hlength : reports.length = ticks.length)
    (hsums : ∀ (k : Nat) events, ticks[k]? = some events →
      ((reports.take (k + 1)).map UInt64.toNat).sum = relayed events)
    (hall : ((reports ++ [delta]).map UInt64.toNat).sum = relayed now) (k : Nat)
    (events : List (SwarmEvent PeerId)) (hk : (ticks ++ [now])[k]? = some events) :
    (((reports ++ [delta]).take (k + 1)).map UInt64.toNat).sum = relayed events := by
  by_cases hold : k < ticks.length
  · rw [List.getElem?_append_left hold] at hk
    rw [List.take_append_of_le_length (by omega)]
    exact hsums k events hk
  · have hlt := (List.getElem?_eq_some_iff.mp hk).1
    rw [List.length_append, List.length_singleton] at hlt
    have hlast : k = ticks.length := by omega
    rw [hlast, List.getElem?_concat_length, Option.some.injEq] at hk
    rw [List.take_of_length_le, hall, hk]
    rw [List.length_append, hlength, hlast]
    rfl

/-- The message counter is reported by as much as it grew, so that the reports add up. -/
lemma Sound.onTick {m : MainLoop F} {h : Heard PeerId} (hs : Sound doubles secs m h) (uptime : F)
    (rss : UInt64) :
    Sound doubles secs (m.onTick doubles secs uptime rss) ⟨h.events, h.ticks ++ [h.events]⟩ := by
  have hpeer : m.stats.peerCount = (statsAfter .start h.events).peerCount := by rw [hs.stats]
  have hnow : m.stats.totalMsgsRelayed.toNat = relayed h.events := by
    rw [hs.stats, total_statsAfter]
  have hsum : ((counters "relaye_messages_total" m.metrics ++
      [saturatingSub m.stats.totalMsgsRelayed m.lastMsgs]).map UInt64.toNat).sum =
      m.stats.totalMsgsRelayed.toNat := by
    have hle := hs.lastMsgs_le
    rw [List.map_append, List.sum_append, hs.sum, List.map_singleton, List.sum_singleton,
      saturatingSub_toNat hle]
    omega
  refine { hs with
    earlier := ?_
    last := ?_
    sum := ?_
    reports := ?_
    sums := ?_
    connections := ?_
    peers := ?_
    rates := ?_
    rateHistory := ?_ }
  · intro events hevents
    rcases List.mem_append.mp hevents with hold | hnew
    · exact hs.earlier events hold
    · rw [List.mem_singleton.mp hnew]
  · rw [List.getLast?_concat]
    exact hnow
  · rw [counters_onTick]
    exact hsum
  · rw [counters_onTick, List.length_append, List.length_append, hs.reports]
    rfl
  · rw [counters_onTick]
    exact sums_concat hs.reports hs.sums (hsum.trans hnow)
  · rw [(gauges_onTick m uptime rss).1, hs.connections, hpeer, List.map_append]
    rfl
  · rw [List.map_append, List.map_singleton, ← hpeer, ← pushHistory_rtake, ← hs.peers]
    rfl
  · rw [(gauges_onTick m uptime rss).2, counters_onTick, List.map_append, hs.rates]
    rfl
  · rw [(gauges_onTick m uptime rss).2, ← pushHistory_rtake, ← hs.rateHistory]
    rfl

/-! ### All steps -/

lemma sound_step {m m' : MainLoop F} {h : Heard PeerId} (hs : Sound doubles secs m h)
    {op : MainOp PeerId F} (hstep : m.step doubles secs op = some m') :
    Sound doubles secs m' (h.step op) := by
  cases op with
  | event e =>
    cases hstep
    exact hs.onEvent e
  | gateway op hop =>
    obtain ⟨registry, hgateway, rfl⟩ := Option.map_eq_some_iff.mp hstep
    exact hs.onGateway hop hgateway
  | tick uptime rss =>
    cases hstep
    exact hs.onTick uptime rss

lemma sound_run {m m' : MainLoop F} {h : Heard PeerId} (hs : Sound doubles secs m h)
    {ops : List (MainOp PeerId F)} (hrun : m.run doubles secs ops = some m') :
    Sound doubles secs m' (ops.foldl Heard.step h) := by
  induction ops generalizing m h with
  | nil =>
    cases hrun
    exact hs
  | cons op ops ih =>
    obtain ⟨m₁, hstep, hrest⟩ := Option.bind_eq_some_iff.mp hrun
    exact ih (sound_step hs hstep) hrest

variable [DecidableEq PeerId]

/-- While connections close only once they are open, `peer_count` at a tick is how many are. -/
lemma Sound.openConnections {m : MainLoop F} {h : Heard PeerId} (hs : Sound doubles secs m h)
    (hclosed : ClosesOpen h.events) (hcount : h.events.countP SwarmEvent.isEstablished < 2 ^ 64) :
    h.ticks.map (fun events => (statsAfter .start events).peerCount) =
      h.ticks.map fun events => UInt64.ofNat (openAfter events).length := by
  apply List.map_congr_left
  intro events hevents
  have hbefore := hs.earlier events hevents
  have hle := hbefore.sublist.countP_le (p := SwarmEvent.isEstablished)
  have hcounts := countsConnections .start (hclosed.of_prefix hbefore) (by omega)
  rw [← hcounts.peers, UInt64.ofNat_toNat]

/-- In every run of the relay, whatever the order of events, commands and ticks: after each tick the
reports of the message counter add up to the messages gossipsub had brought, which are those the
gateway was given to broadcast. One gauge is how many connections were open, another the rate of the
messages reported, and the status page has the last sixty values of both. -/
theorem ticks_report_the_relay {ops : List (MainOp PeerId F)} {m : MainLoop F}
    (hrun : start.run doubles secs ops = some m) (hclosed : ClosesOpen (heard ops).events)
    (hcount : (heard ops).events.countP SwarmEvent.isEstablished < 2 ^ 64) :
    let reports := counters "relaye_messages_total" m.metrics
    let connections := (heard ops).ticks.map fun events => UInt64.ofNat (openAfter events).length
    reports.length = (heard ops).ticks.length ∧
    (∀ (k : Nat) events, (heard ops).ticks[k]? = some events →
      ((reports.take (k + 1)).map UInt64.toNat).sum =
        min (2 ^ 64 - 1) (events.filterMap messageOf).length) ∧
    gauges "relaye_connections" m.metrics = connections.map doubles.ofU64 ∧
    m.stats.peerHistory = connections.rtake STATS_HISTORY_LEN ∧
    gauges "relaye_msgs_per_sec" m.metrics = reports.map (rate doubles secs) ∧
    m.stats.msgRateHistory = (gauges "relaye_msgs_per_sec" m.metrics).rtake STATS_HISTORY_LEN ∧
    m.registry.log.filterMap broadcastOf = (heard ops).events.filterMap messageOf ∧
    ∃ steps, Gateway.start.run steps = some m.registry := by
  have hs : Sound doubles secs m (heard ops) := sound_run sound_start hrun
  have hopen := hs.openConnections hclosed hcount
  refine ⟨hs.reports, hs.sums, ?_, ?_, hs.rates, hs.rateHistory, hs.messages, hs.gateway⟩
  · rw [← hopen, hs.connections, List.map_map]
    rfl
  · rw [← hopen]
    exact hs.peers

def exampleDoubles : Doubles Rat := ⟨fun n => n.toNat, fun a b => a / b⟩

/-- A message before the first tick, two and a departure before the second. -/
def exampleOps : List (MainOp String Rat) :=
  [.event (.connectionEstablished "a" 0), .gateway (.accept "rave-chat/v1") nofun,
    .event (.message "rave-chat/v1" [1]), .tick 2 4096, .event (.message "rave-chat/v1" [2]),
    .event (.message "laye-chat/v1" [3]), .event (.connectionClosed "a" 0), .tick 4 4096]

lemma closesOpen_exampleOps : ClosesOpen (heard exampleOps).events := by
  have hopened := closesOpen_nil.snoc (e := .connectionEstablished "a" 0) nofun
  have hfirst := hopened.snoc (e := .message "rave-chat/v1" [1]) nofun
  have hsecond := hfirst.snoc (e := .message "rave-chat/v1" [2]) nofun
  have hthird := hsecond.snoc (e := .message "laye-chat/v1" [3]) nofun
  exact hthird.snoc (e := .connectionClosed "a" 0) (by rintro _ _ ⟨⟩; decide)

theorem ticks_report_the_relay_two : ∃ m, start.run exampleDoubles 2 exampleOps = some m ∧
    ((counters "relaye_messages_total" m.metrics).map UInt64.toNat).sum = 3 ∧
    m.stats.peerHistory = [1, 0] := by
  have hrun : start.run exampleDoubles 2 exampleOps = some _ := rfl
  obtain ⟨hlength, hsums, -, hpeers, -⟩ :=
    ticks_report_the_relay hrun closesOpen_exampleOps (by decide)
  have hall := hsums 1 _ rfl
  rw [List.take_of_length_le (i := 1 + 1) hlength.le] at hall
  exact ⟨_, hrun, hall, hpeers⟩

end MainLoop

end Laye
