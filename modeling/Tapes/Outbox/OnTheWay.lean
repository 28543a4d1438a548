import Tapes.Outbox.Hosted

namespace Tapes.Outbox

open Tapes.Js Tapes.Machine
open Tapes.Events (LineSafe Log NoSeparator PlaybackEvent StoredEvent Totals admitAll
  admits_admitAll dedupeKey keyOf recordOf replay storedKey tally tallyOf)

/-! What holds of plays on their way, of the requests that carry them and of what the host does with
them, and what a step leaves. -/

/-- The event is in the log, as the host took it. -/
def InLog (isDate : JsString → Bool) (system : System) (event : PlaybackEvent) : Prop :=
  ∃ stored : StoredEvent, Hosts isDate event stored.toPlaybackEvent ∧
    recordOf stored ∈ replay system.host.store.dir

def Queued (system : System) (event : PlaybackEvent) : Prop :=
  ∃ device, event.deviceId = some device ∧ event ∈ system.queues device

def isOf (url : JsString) (line : JsValue) : Bool :=
  (line.get (js "recordingUrl")).string? = some url

/-- How many plays the rollup has of a recording. -/
def Host.plays (host : Host) (url : JsString) : Nat :=
  ((host.rollup.get? url).map Totals.plays).getD 0

/-- Nothing is said of plays that were enqueued during the flush of a batch which is then refused.
Appends that have resolved count only when their ingest has gone on. -/
structure Delivered (isDate : JsString → Bool) (system : System) : Prop where
  kept : ∀ event ∈ system.enqueued, event ∉ system.crossed → Queued system event ∨
    InLog isDate system event ∨ event ∈ system.evicted ∨ event ∈ system.refused
  once : ((replay system.host.store.dir).map storedKey).Nodup
  counted : ∀ url, system.host.plays url + (system.host.unrecorded.filter (·.recordingUrl = url)).length =
    ((replay system.host.store.dir).filter (isOf url)).length

/-- A device enqueues its own events, each id once. -/
def OwnEvents (isDate : JsString → Bool) (system : System) : Action → Prop
  | .enqueue device event => Sendable isDate event ∧ event.deviceId = some device ∧
      ∀ other ∈ system.enqueued, other.deviceId = event.deviceId → other.id ≠ event.id
  | _ => True

/-- And when each was played is on one line. -/
def OnOneLine (isDate : JsString → Bool) (system : System) (action : Action) : Prop :=
  OwnEvents isDate system action ∧
    ∀ device event, action = .enqueue device event → NoSeparator event.occurredAt

variable {isDate : JsString → Bool} {limits : Limits} {cap : Nat} {system next : System}
  {log more : Log} {event other hosted : PlaybackEvent} {device : JsString} {id : ExchangeId}
  {exchange : Exchange} {batch : List PlaybackEvent} {judged : Judged} {append : RunningAppend}
  {phase : Phase} {keys : List JsString}

/-! ## The invariant -/

def Logged (log : Log) (event : PlaybackEvent) : Prop := hostedKey event ∈ keysOf log

def System.Batch (system : System) (id : ExchangeId) (batch : List PlaybackEvent) : Prop :=
  ∃ exchange, system.exchanges id = some exchange ∧ exchange.batch = batch

/-- What the host has of an event is from the batch. -/
def Sent (isDate : JsString → Bool) (batch : List PlaybackEvent) (hosted : PlaybackEvent) : Prop :=
  ∃ event ∈ batch, Hosts isDate event hosted

structure Judged.Of (isDate : JsString → Bool) (judged : Judged) (batch : List PlaybackEvent) :
    Prop where
  valid : ∀ hosted ∈ judged.valid, Sent isDate batch hosted
  rejected : ∀ rejection ∈ judged.rejected, rejection.retryable = true

/-- The phases of a request: an answer settles events of the batch only when they are logged. -/
def Phase.Fine (isDate : JsString → Bool) (log : Log) (batch : List PlaybackEvent) : Phase → Prop
  | .judging candidates judged =>
      (∀ candidate ∈ candidates, ∃ event ∈ batch, candidate.1 = reread (eventValue event)) ∧
        judged.Of isDate batch
  | .answered (.ok response) =>
      ∀ event ∈ batch, event.id ∈ settledIds batch response → Logged log event
  | .sent | .appending | .answered (.error _) | .dropped => True

structure Exchange.Fine (isDate : JsString → Bool) (system : System) (log : Log)
    (exchange : Exchange) : Prop where
  batch : ∀ event ∈ exchange.batch, event ∈ system.enqueued ∧ event.deviceId = some exchange.device
  phase : exchange.phase.Fine isDate log exchange.batch
  queue : exchange.awaited = true → ∀ event ∈ system.queues exchange.device,
    event ∈ exchange.batch ∨ event ∈ exchange.came

/-- Of what an append has taken or found, the keys are among these. -/
structure RunningAppend.Of (isDate : JsString → Bool) (keys : List JsString) (append : RunningAppend)
    (batch : List PlaybackEvent) : Prop where
  accepted : ∀ stored ∈ append.accepted, Sent isDate batch stored.toPlaybackEvent ∧
    keyOf stored ∈ keys
  duplicates : ∀ id ∈ append.duplicates, ∃ event ∈ batch, event.id = id ∧ hostedKey event ∈ keys
  rejected : ∀ rejection ∈ append.rejected, rejection.retryable = true

structure Sound (isDate : JsString → Bool) (system : System) (log : Log) : Prop where
  host : HostSound system.host log
  proper : ∀ event ∈ system.enqueued, Sendable isDate event ∧ NoSeparator event.occurredAt
  distinct : ∀ event ∈ system.enqueued, ∀ other ∈ system.enqueued,
    event.deviceId = other.deviceId → event.id = other.id → event = other
  queues : ∀ device, ∀ event ∈ system.queues device,
    event ∈ system.enqueued ∧ event.deviceId = some device
  kept : ∀ event ∈ system.enqueued, event ∉ system.crossed → Queued system event ∨
    Logged log event ∨ event ∈ system.evicted ∨ event ∈ system.refused
  origin : ∀ entry ∈ log, Sent isDate system.enqueued entry.2.toPlaybackEvent
  exchanges : ∀ id exchange, system.exchanges id = some exchange → exchange.Fine isDate system log
  tail : ∀ pending ∈ system.host.tail, ∃ batch,
    system.Batch pending.exchange batch ∧ pending.judged.Of isDate batch
  writing : ∀ append, system.host.writing = some append → ∃ batch,
    system.Batch append.exchange batch ∧
      append.Of isDate (keysOf log ++ append.accepted.map keyOf) batch
  resolved : ∀ append ∈ system.host.resolved, ∃ batch,
    system.Batch append.exchange batch ∧ append.Of isDate (keysOf log) batch

/-! ### What it says -/

/-- The events of a batch, and of all batches, are known by their keys. -/
theorem Sound.of_key (sound : Sound isDate system log) (first : event ∈ system.enqueued)
    (second : other ∈ system.enqueued) (same : hostedKey event = hostedKey other) : event = other := by
  obtain ⟨devices, ids⟩ := (sound.proper event first).1.of_key (sound.proper other second).1 same
  exact sound.distinct event first other second devices ids

theorem Sound.inLog (sound : Sound isDate system log) (member : event ∈ system.enqueued)
    (logged : Logged log event) : InLog isDate system event := by
  obtain ⟨entry, inside, same⟩ := List.mem_map.mp logged
  obtain ⟨other, enqueued, hosts⟩ := sound.origin entry inside
  have key : hostedKey other = hostedKey event := hosts.key.symm.trans same
  obtain rfl := sound.of_key enqueued member key
  refine ⟨entry.2, hosts, sound.host.holds.replay_perm.mem_iff.mpr ?_⟩
  exact List.mem_map.mpr ⟨entry, inside, rfl⟩

theorem tally_plays (events : List StoredEvent) (url : JsString) :
    (tally events url).1 = (events.filter (·.recordingUrl = url)).length := by
  induction events with
  | nil => rfl
  | cons event rest induction =>
      have split : tally (event :: rest) url = Events.counted event url + tally rest url := by
        simp [tally]
      rw [split, Prod.fst_add, induction, Events.counted]
      by_cases same : event.recordingUrl = url
      · subst same
        simp [Nat.add_comm]
      · simp [same]

theorem isOf_recordOf (stored : StoredEvent) (url : JsString) :
    isOf url (recordOf stored) = decide (stored.recordingUrl = url) := by
  have member : (js "recordingUrl", JsValue.string stored.recordingUrl) ∈
      Events.eventMembers stored := by
    simp [Events.eventMembers]
  have found := Events.get_storedValue stored member
  rw [isOf, recordOf, found]
  simp [JsValue.isUndefined, reread, JsValue.string?]

theorem Host.plays_eq (host : Host) (url : JsString) :
    host.plays url = (tallyOf host.rollup url).1 := by
  rw [Host.plays, tallyOf]
  cases host.rollup.get? url <;> rfl

theorem Sound.delivered (sound : Sound isDate system log) : Delivered isDate system := by
  refine ⟨?_, ?_, ?_⟩
  · intro event member uncrossed
    obtain queued | logged | dropped := sound.kept event member uncrossed
    · exact .inl queued
    · exact .inr (.inl (sound.inLog member logged))
    · exact .inr (.inr dropped)
  · exact sound.host.holds.keys.nodup_iff.mpr sound.host.holds.distinct
  · intro url
    have counted := congrArg Prod.fst (congrFun sound.host.counted url)
    rw [Pi.add_apply, Prod.fst_add, tally_plays, tally_plays, ← Host.plays_eq] at counted
    rw [counted, (sound.host.holds.replay_perm.filter _).length_eq, List.filter_map, List.length_map,
      List.filter_map, List.length_map]
    congr 1
    refine List.filter_congr fun entry _ => ?_
    exact (isOf_recordOf entry.2 url).symm

/-! ## The requests and the host -/

theorem Phase.Fine.mono (fine : phase.Fine isDate log batch)
    (grown : ∀ key ∈ keysOf log, key ∈ keysOf more) : phase.Fine isDate more batch := by
  cases phase with
  | sent | appending | dropped => trivial
  | judging candidates judged => exact fine
  | answered answer =>
      cases answer with
      | error status => trivial
      | ok response => exact fun event member settled => grown _ (fine event member settled)

theorem RunningAppend.Of.mono {wider : List JsString} (of : append.Of isDate keys batch)
    (grown : ∀ key ∈ keys, key ∈ wider) : append.Of isDate wider batch := by
  refine ⟨?_, ?_, of.rejected⟩
  · intro stored member
    obtain ⟨sent, inside⟩ := of.accepted stored member
    exact ⟨sent, grown _ inside⟩
  · intro id member
    obtain ⟨event, sent, same, inside⟩ := of.duplicates id member
    exact ⟨event, sent, same, grown _ inside⟩

/-- Requests go on or begin. None changes its batch. -/
theorem Sound.withExchanges {exchanges : Table ExchangeId Exchange} (sound : Sound isDate system log)
    (batches : ∀ name batch, system.Batch name batch →
      ∃ later, exchanges name = some later ∧ later.batch = batch)
    (fine : ∀ name exchange, exchanges name = some exchange → exchange.Fine isDate system log) :
    Sound isDate { system with exchanges := exchanges } log := by
  refine ⟨sound.host, sound.proper, sound.distinct, sound.queues, sound.kept, sound.origin, ?_, ?_, ?_,
    ?_⟩
  · intro name exchange found
    have kept := fine name exchange found
    exact ⟨kept.batch, kept.phase, kept.queue⟩
  · intro pending member
    obtain ⟨batch, held, of⟩ := sound.tail pending member
    exact ⟨batch, batches _ _ held, of⟩
  · intro append running
    obtain ⟨batch, held, of⟩ := sound.writing append running
    exact ⟨batch, batches _ _ held, of⟩
  · intro append member
    obtain ⟨batch, held, of⟩ := sound.resolved append member
    exact ⟨batch, batches _ _ held, of⟩

/-- A request goes on, with the batch it has. -/
theorem Sound.put (sound : Sound isDate system log) (found : system.exchanges id = some exchange)
    {later : Exchange} (device : later.device = exchange.device) (same : later.batch = exchange.batch)
    (came : later.came = exchange.came) (awaits : later.awaited = true → exchange.awaited = true)
    (fine : later.phase.Fine isDate log exchange.batch) : Sound isDate (system.put id later) log := by
  refine sound.withExchanges ?_ ?_
  · rintro name batch ⟨before, there, rfl⟩
    by_cases renamed : name = id
    · subst renamed
      rw [found] at there
      cases there
      exact ⟨later, Table.put_self, same⟩
    · exact ⟨before, (Table.put_other renamed).trans there, rfl⟩
  · intro name held there
    obtain ⟨rfl, rfl⟩ | ⟨_, before⟩ := Table.put_cases there
    · refine ⟨?_, ?_, ?_⟩
      · rw [same, device]
        exact (sound.exchanges name exchange found).batch
      · rw [same]
        exact fine
      · intro awaited
        rw [same, device, came]
        exact (sound.exchanges name exchange found).queue (awaits awaited)
    · exact sound.exchanges name held before

theorem moveTo_eq (found : system.exchanges id = some exchange) (phase : Phase) :
    system.moveTo id phase = system.put id (exchange.to phase) := by
  rw [System.moveTo, System.put, Table.modify_eq_put found]

theorem Sound.moveTo (sound : Sound isDate system log) (found : system.exchanges id = some exchange)
    (fine : phase.Fine isDate log exchange.batch) : Sound isDate (system.moveTo id phase) log := by
  rw [moveTo_eq found]
  exact sound.put found rfl rfl rfl (fun awaited => awaited) fine

theorem Sound.withHost {host : Host} (sound : Sound isDate system log) (holds : HostSound host more)
    (grown : ∀ key ∈ keysOf log, key ∈ keysOf more)
    (origin : ∀ entry ∈ more, entry ∈ log ∨ Sent isDate system.enqueued entry.2.toPlaybackEvent)
    (tail : ∀ pending ∈ host.tail, pending ∈ system.host.tail ∨ ∃ batch,
      system.Batch pending.exchange batch ∧ pending.judged.Of isDate batch)
    (writing : ∀ append, host.writing = some append → ∃ batch,
      system.Batch append.exchange batch ∧
        append.Of isDate (keysOf more ++ append.accepted.map keyOf) batch)
    (resolved : ∀ append ∈ host.resolved, append ∈ system.host.resolved ∨ ∃ batch,
      system.Batch append.exchange batch ∧ append.Of isDate (keysOf more) batch) :
    Sound isDate { system with host := host } more := by
  refine ⟨holds, sound.proper, sound.distinct, sound.queues, ?_, ?_, ?_, ?_, writing, ?_⟩
  · intro event member uncrossed
    obtain queued | logged | dropped := sound.kept event member uncrossed
    · exact .inl queued
    · exact .inr (.inl (grown _ logged))
    · exact .inr (.inr dropped)
  · intro entry member
    obtain old | new := origin entry member
    · exact sound.origin entry old
    · exact new
  · intro name held there
    have fine := sound.exchanges name held there
    exact ⟨fine.batch, fine.phase.mono grown, fine.queue⟩
  · intro pending member
    obtain old | new := tail pending member
    · exact sound.tail pending old
    · exact new
  · intro append member
    obtain old | new := resolved append member
    · obtain ⟨batch, held, of⟩ := sound.resolved append old
      exact ⟨batch, held, of.mono grown⟩
    · exact new

/-! ### A request -/

theorem Sound.batch_enqueued (sound : Sound isDate system log) (held : system.Batch id batch)
    (member : event ∈ batch) : event ∈ system.enqueued := by
  obtain ⟨exchange, found, rfl⟩ := held
  exact ((sound.exchanges id exchange found).batch event member).1

/-- Events of one batch are of one device. -/
theorem Sound.batch_distinct (sound : Sound isDate system log) (held : system.Batch id batch)
    (member : event ∈ batch) (also : other ∈ batch) (same : event.id = other.id) : event = other := by
  obtain ⟨exchange, found, rfl⟩ := held
  have fine := (sound.exchanges id exchange found).batch
  obtain ⟨enqueued, device⟩ := fine event member
  obtain ⟨otherEnqueued, otherDevice⟩ := fine other also
  exact sound.distinct event enqueued other otherEnqueued (device.trans otherDevice.symm) same

theorem Sound.receive (sound : Sound isDate system log)
    (found : system.exchanges id = some exchange)
    (taken : receive limits system id exchange = some next) : Sound isDate next log := by
  unfold Outbox.receive at taken
  split at taken
  · split at taken
    · cases taken
      exact sound.moveTo found trivial
    · rename_i events read
      cases taken
      refine sound.moveTo found ⟨fun candidate member => sent_of_readBatch read member, ?_, ?_⟩
      · intro hosted absent
        cases absent
      · intro rejection absent
        cases absent
  · cases taken

/-- No event of a batch is malformed, so that what is rejected may be sent again. -/
theorem Judged.Of.judge {candidate : JsValue × Nat} (of : judged.Of isDate batch) (known : Bool)
    (sent : event ∈ batch) (hosts : Hosts isDate event hosted)
    (read : candidate.1 = reread (eventValue event)) :
    (judge isDate known candidate judged).Of isDate batch := by
  unfold Outbox.judge
  rw [read, show validate isDate (reread (eventValue event)) = .ok hosted from hosts]
  cases known with
  | true =>
      refine ⟨?_, of.rejected⟩
      intro each member
      obtain old | new := List.mem_append.mp member
      · exact of.valid each old
      · rw [List.mem_singleton] at new
        exact ⟨event, sent, new ▸ hosts⟩
  | false =>
      refine ⟨of.valid, ?_⟩
      intro rejection member
      obtain old | new := List.mem_append.mp member
      · exact of.rejected rejection old
      · rw [List.mem_singleton] at new
        rw [new]

theorem Sound.judgeNext {known : Bool} (sound : Sound isDate system log)
    (found : system.exchanges id = some exchange)
    (taken : judgeNext isDate known system id exchange = some next) : Sound isDate next log := by
  unfold Outbox.judgeNext at taken
  split at taken
  · rename_i candidate rest judged judging
    cases taken
    have fine := (sound.exchanges id exchange found).phase
    rw [judging] at fine
    obtain ⟨candidates, of⟩ := fine
    obtain ⟨event, sent, read⟩ := candidates candidate List.mem_cons_self
    obtain ⟨hosted, hosts⟩ := (sound.proper event (sound.batch_enqueued ⟨_, found, rfl⟩ sent)).1.wellFormed
    exact sound.moveTo found ⟨fun other member => candidates other (List.mem_cons_of_mem _ member),
      of.judge known sent hosts read⟩
  · cases taken

theorem Sound.callAppend {now : Int} (sound : Sound isDate system log)
    (found : system.exchanges id = some exchange)
    (taken : callAppend now system id exchange = some next) : Sound isDate next log := by
  unfold Outbox.callAppend at taken
  split at taken
  · rename_i judged judging
    cases taken
    have fine := (sound.exchanges id exchange found).phase
    rw [judging] at fine
    have moved : Sound isDate (system.moveTo id .appending) log := sound.moveTo found trivial
    have batch : (system.moveTo id .appending).Batch id exchange.batch := by
      rw [moveTo_eq found]
      exact ⟨_, Table.put_self, rfl⟩
    refine moved.withHost (sound.host.withTail _) (fun _ held => held) (fun _ => .inl) ?_ moved.writing
      fun _ => .inl
    intro pending member
    obtain old | new := List.mem_append.mp member
    · exact .inl old
    · rw [List.mem_singleton] at new
      rw [new]
      exact .inr ⟨exchange.batch, batch, fine.2⟩
  · cases taken

/-! ### The host -/

/-- What the loop of `append` takes or finds of a batch. -/
theorem Judged.Of.admitted {host : Host} {pending : PendingAppend}
    (of : pending.judged.Of isDate batch) (index : ∀ key, key ∈ host.store.seen ↔ key ∈ keys) :
    RunningAppend.Of isDate
      (keys ++ (admitAll host.store.seen pending.judged.valid (toISOString pending.now)).accepted.map keyOf)
      ⟨pending.exchange, pending.judged.rejected,
        (admitAll host.store.seen pending.judged.valid (toISOString pending.now)).accepted,
        (admitAll host.store.seen pending.judged.valid (toISOString pending.now)).duplicates,
        Events.segmentDay pending.now⟩ batch := by
  have admits := admits_admitAll host.store.seen pending.judged.valid (toISOString pending.now)
  refine ⟨?_, ?_, of.rejected⟩
  · intro stored member
    have new := (admits.new stored.toPlaybackEvent).mpr (List.mem_map_of_mem member)
    obtain ⟨earlier, later, split, -⟩ := new
    refine ⟨of.valid _ (by simp [split]), List.mem_append_right _ (List.mem_map_of_mem member)⟩
  · intro id member
    obtain ⟨hosted, valid, named, held⟩ := admits.duplicates id member
    obtain ⟨event, sent, hosts⟩ := of.valid hosted valid
    refine ⟨event, sent, hosts.validated.id.symm.trans named, ?_⟩
    rw [← hosts.key, List.mem_append, ← index]
    exact (admits.index _).mp held

theorem Sound.begin {pending : PendingAppend} {rest : List PendingAppend}
    (sound : Sound isDate system log) (idle : system.host.writing = none)
    (waiting : system.host.tail = pending :: rest) :
    Sound isDate { system with host := Host.begin { system.host with tail := rest } pending } log := by
  obtain ⟨batch, held, of⟩ := sound.tail pending (waiting ▸ List.mem_cons_self)
  have safe : ∀ hosted ∈ pending.judged.valid, LineSafe hosted := by
    intro hosted valid
    obtain ⟨event, sent, hosts⟩ := of.valid hosted valid
    obtain ⟨sendable, dated⟩ := sound.proper event (sound.batch_enqueued held sent)
    exact sendable.lineSafe dated hosts
  have admitted := of.admitted (sound.host.index_idle idle)
  have later (each : PendingAppend) (member : each ∈ rest) : each ∈ system.host.tail :=
    waiting ▸ List.mem_cons_of_mem _ member
  have host : HostSound (Host.begin { system.host with tail := rest } pending) log :=
    (sound.host.withTail rest).begin idle safe
  unfold Host.begin at host ⊢
  dsimp only at host ⊢
  split
  · rename_i nothing
    rw [if_pos nothing] at host
    refine sound.withHost host (fun _ => id) (fun _ => .inl) (fun each member => .inl (later each member))
      ?_ ?_
    · intro append running
      rw [idle] at running
      cases running
    · intro append member
      obtain old | new := List.mem_append.mp member
      · exact .inl old
      · rw [List.mem_singleton] at new
        rw [new]
        rw [nothing, List.map_nil, List.append_nil] at admitted
        rw [nothing]
        exact .inr ⟨batch, held, admitted⟩
  · rename_i nonempty
    rw [if_neg nonempty] at host
    refine sound.withHost host (fun _ => id) (fun _ => .inl) (fun each member => .inl (later each member))
      ?_ fun _ => .inl
    intro append running
    cases running
    exact ⟨batch, held, admitted⟩

theorem Sound.wrote (sound : Sound isDate system log) (running : system.host.writing = some append) :
    Sound isDate { system with host := system.host.wrote append } (grown log append) := by
  obtain ⟨batch, held, of⟩ := sound.writing append running
  have keys (key : JsString) (member : key ∈ keysOf log ++ append.accepted.map keyOf) :
      key ∈ keysOf (grown log append) :=
    mem_keysOf_grown.mpr (List.mem_append.mp member)
  refine sound.withHost (sound.host.wrote running)
    (fun key member => keys key (List.mem_append_left _ member)) ?_ (fun _ => .inl) ?_ ?_
  · intro entry member
    obtain old | new := List.mem_append.mp member
    · exact .inl old
    · obtain ⟨stored, accepted, rfl⟩ := List.mem_map.mp new
      obtain ⟨event, sent, hosts⟩ := (of.accepted stored accepted).1
      exact .inr ⟨event, sound.batch_enqueued held sent, hosts⟩
  · intro other still
    cases still
  · intro other member
    obtain old | new := List.mem_append.mp member
    · exact .inl old
    · rw [List.mem_singleton] at new
      rw [new]
      exact .inr ⟨batch, held, of.mono keys⟩

/-- The file write fails: the request is dropped, and its keys are forgotten. -/
theorem Sound.failed (sound : Sound isDate system log) (running : system.host.writing = some append) :
    Sound isDate { system.moveTo append.exchange .dropped with host := system.host.failed append } log := by
  obtain ⟨batch, ⟨exchange, found, _⟩, _⟩ := sound.writing append running
  have moved : Sound isDate (system.moveTo append.exchange .dropped) log :=
    sound.moveTo found trivial
  refine moved.withHost (sound.host.failed running) (fun _ => id) (fun _ => .inl) (fun _ => .inl) ?_
    fun _ => .inl
  intro other still
  cases still

/-- Every event that the response settles is in the log. -/
theorem Sound.settled (sound : Sound isDate system log) (held : system.Batch append.exchange batch)
    (of : append.Of isDate (keysOf log) batch) (member : event ∈ batch)
    (settles : event.id ∈ settledIds batch append.response) : Logged log event := by
  rw [settledIds, List.mem_append, List.mem_append] at settles
  obtain (accepted | duplicate) | rejected := settles
  · obtain ⟨stored, taken, same⟩ := List.mem_map.mp accepted
    obtain ⟨⟨other, sent, hosts⟩, key⟩ := of.accepted stored taken
    obtain rfl := sound.batch_distinct held sent member (hosts.validated.id.symm.trans same)
    rw [Logged, ← hosts.key]
    exact key
  · obtain ⟨other, sent, same, key⟩ := of.duplicates event.id duplicate
    obtain rfl := sound.batch_distinct held sent member same
    exact key
  · obtain ⟨rejection, rejects, names⟩ := List.mem_filterMap.mp rejected
    rw [Rejection.settles, if_pos (of.rejected rejection rejects)] at names
    cases names

theorem Sound.record {rest : List RunningAppend} (sound : Sound isDate system log)
    (resolved : system.host.resolved = append :: rest) :
    Sound isDate { system.moveTo append.exchange (.answered (.ok append.response)) with
      host := Host.recorded { system.host with resolved := rest } append } log := by
  obtain ⟨batch, held, of⟩ := sound.resolved append (resolved ▸ List.mem_cons_self)
  obtain ⟨exchange, found, rfl⟩ := held
  have fine : (Phase.answered (.ok append.response)).Fine isDate log exchange.batch :=
    fun event member settles => sound.settled ⟨exchange, found, rfl⟩ of member settles
  have moved := sound.moveTo found fine
  refine moved.withHost (sound.host.recorded resolved) (fun _ => id) (fun _ => .inl) (fun _ => .inl)
    moved.writing ?_
  intro other member
  exact .inl (resolved ▸ List.mem_cons_of_mem append member)

theorem Sound.restart (sound : Sound isDate system log) :
    Sound isDate { system with
      exchanges := fun id => (system.exchanges id).map Exchange.cut
      host := openHost system.host.store.dir } log := by
  refine ⟨hostSound_openHost sound.host.holds, sound.proper, sound.distinct, sound.queues, sound.kept,
    sound.origin, ?_, ?_, ?_, ?_⟩
  · intro name held found
    obtain ⟨exchange, there, rfl⟩ := Option.map_eq_some_iff.mp found
    obtain ⟨batch, phase, queue⟩ := sound.exchanges name exchange there
    unfold Exchange.cut
    split
    · exact ⟨batch, trivial, queue⟩
    · exact ⟨batch, trivial, queue⟩
    · exact ⟨batch, phase, queue⟩
    · exact ⟨batch, phase, queue⟩
    · exact ⟨batch, phase, queue⟩
  · intro pending absent
    cases absent
  · intro append absent
    cases absent
  · intro append absent
    cases absent

/-! ## The queues -/

theorem mem_enqueueEvent {queue : List PlaybackEvent} (member : other ∈ queue ++ [event]) :
    other ∈ enqueueEvent queue event cap ∨ other ∈ evictedBy queue event cap := by
  rw [enqueueEvent, evictedBy, or_comm, ← List.mem_append, List.take_append_drop]
  exact member

/-- A queue loses plays. What leaves it is logged, evicted, refused or crossed. -/
theorem Sound.requeue {queue evicted refused crossed : List PlaybackEvent}
    (sound : Sound isDate system log) (within : ∀ event ∈ queue, event ∈ system.queues device)
    (wasEvicted : ∀ event ∈ system.evicted, event ∈ evicted)
    (wasRefused : ∀ event ∈ system.refused, event ∈ refused)
    (wasCrossed : ∀ event ∈ system.crossed, event ∈ crossed)
    (left : ∀ event ∈ system.queues device, event ∉ crossed → event ∈ queue ∨ Logged log event ∨
      event ∈ evicted ∨ event ∈ refused) :
    Sound isDate { system with
      queues := Function.update system.queues device queue
      evicted := evicted
      refused := refused
      crossed := crossed } log := by
  have others (name : JsString) (different : name ≠ device) :
      Function.update system.queues device queue name = system.queues name :=
    Function.update_of_ne different ..
  have here : Function.update system.queues device queue device = queue := Function.update_self ..
  refine ⟨sound.host, sound.proper, sound.distinct, ?_, ?_, sound.origin, ?_, sound.tail,
    sound.writing, sound.resolved⟩
  · intro name event member
    by_cases same : name = device
    · subst same
      exact sound.queues name event (within event (here ▸ member))
    · exact sound.queues name event (others name same ▸ member)
  · intro event member uncrossed
    have before : event ∉ system.crossed := fun earlier => uncrossed (wasCrossed event earlier)
    obtain ⟨name, scope, queued⟩ | logged | dropped | denied := sound.kept event member before
    · by_cases same : name = device
      · subst same
        obtain still | gone := left event queued uncrossed
        · rw [← here] at still
          exact .inl ⟨name, scope, still⟩
        · exact .inr gone
      · rw [← others name same] at queued
        exact .inl ⟨name, scope, queued⟩
    · exact .inr (.inl logged)
    · exact .inr (.inr (.inl (wasEvicted event dropped)))
    · exact .inr (.inr (.inr (wasRefused event denied)))
  · intro name held found
    have fine := sound.exchanges name held found
    refine ⟨fine.batch, fine.phase, fun awaited event member => fine.queue awaited event ?_⟩
    by_cases same : held.device = device
    · replace member : event ∈ Function.update system.queues device queue held.device := member
      rw [same, here] at member
      rw [same]
      exact within event member
    · exact others held.device same ▸ member

/-- The flushes under way hear of a play. -/
theorem Sound.hears (sound : Sound isDate system log) (device : JsString) (event : PlaybackEvent) :
    Sound isDate { system with
      exchanges := fun id => (system.exchanges id).map (·.hears device event) } log := by
  have kept (exchange : Exchange) : (exchange.hears device event).device = exchange.device ∧
      (exchange.hears device event).batch = exchange.batch ∧
        (exchange.hears device event).phase = exchange.phase ∧
          (exchange.hears device event).awaited = exchange.awaited ∧
            ∀ other ∈ exchange.came, other ∈ (exchange.hears device event).came := by
    unfold Exchange.hears
    split
    · exact ⟨rfl, rfl, rfl, rfl, fun _ => List.mem_append_left _⟩
    · exact ⟨rfl, rfl, rfl, rfl, fun _ => id⟩
  refine sound.withExchanges ?_ ?_
  · rintro name batch ⟨exchange, found, rfl⟩
    exact ⟨exchange.hears device event, by simp only [found, Option.map_some], (kept exchange).2.1⟩
  · intro name held found
    obtain ⟨exchange, there, rfl⟩ := Option.map_eq_some_iff.mp found
    obtain ⟨owner, batch, phase, awaits, came⟩ := kept exchange
    have fine := sound.exchanges name exchange there
    refine ⟨?_, ?_, ?_⟩
    · rw [batch, owner]
      exact fine.batch
    · rw [batch, phase]
      exact fine.phase
    · rw [awaits, owner, batch]
      intro awaited other member
      exact (fine.queue awaited other member).imp_right (came other)

/-- A play comes that the flushes under way have heard of. -/
theorem Sound.enqueued (sound : Sound isDate system log) (sendable : Sendable isDate event)
    (dated : NoSeparator event.occurredAt) (scope : event.deviceId = some device)
    (new : ∀ other ∈ system.enqueued, other.deviceId = event.deviceId → other.id ≠ event.id)
    (heard : ∀ id exchange, system.exchanges id = some exchange → exchange.awaited = true →
      exchange.device = device → event ∈ exchange.came) :
    Sound isDate { system with
      queues := Function.update system.queues device (system.queues device ++ [event])
      enqueued := system.enqueued ++ [event] } log := by
  have old (other : PlaybackEvent) (member : other ∈ system.enqueued) :
      other ∈ system.enqueued ++ [event] := List.mem_append_left _ member
  have others (name : JsString) (different : name ≠ device) :
      Function.update system.queues device (system.queues device ++ [event]) name =
        system.queues name := Function.update_of_ne different ..
  have here : Function.update system.queues device (system.queues device ++ [event]) device =
      system.queues device ++ [event] := Function.update_self ..
  refine ⟨sound.host, ?_, ?_, ?_, ?_, ?_, ?_, sound.tail, sound.writing, sound.resolved⟩
  · intro other member
    obtain before | last := List.mem_append.mp member
    · exact sound.proper other before
    · rw [List.mem_singleton] at last
      subst last
      exact ⟨sendable, dated⟩
  · intro first member second also devices ids
    obtain before | last := List.mem_append.mp member
    · obtain too | latest := List.mem_append.mp also
      · exact sound.distinct first before second too devices ids
      · rw [List.mem_singleton] at latest
        subst latest
        exact absurd ids (new first before devices)
    · rw [List.mem_singleton] at last
      subst last
      obtain too | latest := List.mem_append.mp also
      · exact absurd ids.symm (new second too devices.symm)
      · rw [List.mem_singleton] at latest
        exact latest.symm
  · intro name other member
    by_cases same : name = device
    · subst same
      replace member : other ∈ Function.update system.queues name _ name := member
      rw [here] at member
      obtain before | last := List.mem_append.mp member
      · obtain ⟨enqueued, owned⟩ := sound.queues name other before
        exact ⟨old other enqueued, owned⟩
      · rw [List.mem_singleton] at last
        subst last
        exact ⟨List.mem_append_right _ List.mem_cons_self, scope⟩
    · replace member : other ∈ Function.update system.queues device _ name := member
      rw [others name same] at member
      obtain ⟨enqueued, owned⟩ := sound.queues name other member
      exact ⟨old other enqueued, owned⟩
  · intro other member uncrossed
    obtain before | last := List.mem_append.mp member
    · obtain ⟨name, owned, queued⟩ | gone := sound.kept other before uncrossed
      · refine .inl ⟨name, owned, ?_⟩
        by_cases same : name = device
        · subst same
          have still := List.mem_append_left [event] queued
          rwa [← here] at still
        · rwa [← others name same] at queued
      · exact .inr gone
    · rw [List.mem_singleton] at last
      subst last
      refine .inl ⟨device, scope, ?_⟩
      have queued : other ∈ system.queues device ++ [other] :=
        List.mem_append_right _ List.mem_cons_self
      rwa [← here] at queued
  · intro entry member
    obtain ⟨other, before, hosts⟩ := sound.origin entry member
    exact ⟨other, old other before, hosts⟩
  · intro name held found
    obtain ⟨batch, phase, queue⟩ := sound.exchanges name held found
    refine ⟨fun other sent => ⟨old other (batch other sent).1, (batch other sent).2⟩, phase, ?_⟩
    intro awaited other member
    by_cases same : held.device = device
    · replace member : other ∈ Function.update system.queues device _ held.device := member
      rw [same, here] at member
      obtain before | last := List.mem_append.mp member
      · exact queue awaited other (same ▸ before)
      · rw [List.mem_singleton] at last
        subst last
        exact .inr (heard name held found awaited same)
    · replace member : other ∈ Function.update system.queues device _ held.device := member
      rw [others held.device same] at member
      exact queue awaited other member

theorem Sound.enqueue (sound : Sound isDate system log) (sendable : Sendable isDate event)
    (dated : NoSeparator event.occurredAt) (scope : event.deviceId = some device)
    (new : ∀ other ∈ system.enqueued, other.deviceId = event.deviceId → other.id ≠ event.id) :
    Sound isDate { system with
      queues := Function.update system.queues device (enqueueEvent (system.queues device) event cap)
      exchanges := fun id => (system.exchanges id).map (·.hears device event)
      enqueued := system.enqueued ++ [event]
      evicted := system.evicted ++ evictedBy (system.queues device) event cap } log := by
  have heard : ∀ id exchange, (system.exchanges id).map (·.hears device event) = some exchange →
      exchange.awaited = true → exchange.device = device → event ∈ exchange.came := by
    intro id exchange found awaited owned
    obtain ⟨before, -, rfl⟩ := Option.map_eq_some_iff.mp found
    unfold Exchange.hears at awaited owned ⊢
    split
    · exact List.mem_append_right _ List.mem_cons_self
    · rename_i deaf
      rw [if_neg deaf] at awaited owned
      exact absurd ⟨awaited, owned⟩ deaf
  have enqueued := (sound.hears device event).enqueued sendable dated scope new heard
  have queue : Function.update system.queues device (system.queues device ++ [event]) device =
      system.queues device ++ [event] := Function.update_self ..
  have fromQueue (other : PlaybackEvent)
      (member : other ∈ enqueueEvent (system.queues device) event cap) :
      other ∈ Function.update system.queues device (system.queues device ++ [event]) device := by
    rw [queue]
    exact List.mem_of_mem_drop member
  have left (other : PlaybackEvent)
      (member : other ∈ Function.update system.queues device (system.queues device ++ [event]) device)
      (_ : other ∉ system.crossed) :
      other ∈ enqueueEvent (system.queues device) event cap ∨ Logged log other ∨
        other ∈ system.evicted ++ evictedBy (system.queues device) event cap ∨
          other ∈ system.refused := by
    rw [queue] at member
    obtain still | gone := mem_enqueueEvent member
    · exact .inl still
    · exact .inr (.inr (.inl (List.mem_append_right _ gone)))
  have requeued :=
    enqueued.requeue fromQueue (fun _ => List.mem_append_left _) (fun _ => id) (fun _ => id) left
  simp only [Function.update_idem] at requeued
  exact requeued

theorem Sound.flush (sound : Sound isDate system log) (free : system.exchanges id = none)
    (queue : system.queues device = batch) :
    Sound isDate (system.put id ⟨device, batch, true, .sent, []⟩) log := by
  refine sound.withExchanges ?_ ?_
  · rintro name sent ⟨before, there, rfl⟩
    have different : name ≠ id := by
      intro same
      rw [same, free] at there
      cases there
    exact ⟨before, (Table.put_other different).trans there, rfl⟩
  · intro name held there
    obtain ⟨rfl, rfl⟩ | ⟨_, before⟩ := Table.put_cases there
    · refine ⟨fun event member => ?_, trivial, fun _ event member => ?_⟩
      · rw [← queue] at member
        exact sound.queues device event member
      · rw [← queue]
        exact .inl member
    · exact sound.exchanges name held before

/-- An answer takes from the queue only what is in the log, and a refusal what was in the batch, or
came since. -/
theorem Sound.settle (sound : Sound isDate system log) (found : system.exchanges id = some exchange)
    (taken : settle system id exchange = some next) : Sound isDate next log := by
  have fine := sound.exchanges id exchange found
  have ended : Sound isDate (system.put id exchange.unawaited) log :=
    sound.put found rfl rfl rfl (fun still => by cases still) fine.phase
  unfold Outbox.settle at taken
  dsimp only at taken
  split at taken
  · rename_i awaited _
    split at taken
    · cases taken
      refine ended.requeue ?_ (fun _ member => member) (fun _ => List.mem_append_left _)
        (fun _ => List.mem_append_left _) ?_
      · intro event absent
        cases absent
      · intro event member uncrossed
        obtain sent | came := fine.queue awaited event member
        · exact .inr (.inr (.inr (List.mem_append_right _ sent)))
        · exact absurd (List.mem_append_right _ came) uncrossed
    · cases taken
      exact ended
  · rename_i response _ answered
    cases taken
    refine ended.requeue ?_ (fun _ member => member) (fun _ member => member)
      (fun _ member => member) ?_
    · exact fun event member => (List.mem_filter.mp member).1
    · intro event member _
      by_cases settles : event ∈ exchange.batch ∧ event.id ∈ settledIds exchange.batch response
      · have settled := fine.phase
        rw [answered] at settled
        exact .inr (.inl (settled event settles.1 settles.2))
      · refine .inl (List.mem_filter.mpr ⟨member, decide_eq_true ?_⟩)
        by_cases sent : event.id ∈ exchange.batch.map PlaybackEvent.id
        · obtain ⟨other, inside, same⟩ := List.mem_map.mp sent
          obtain ⟨otherEnqueued, otherDevice⟩ := fine.batch other inside
          obtain ⟨enqueued, scope⟩ := sound.queues exchange.device event member
          obtain rfl := sound.distinct other otherEnqueued event enqueued
            (otherDevice.trans scope.symm) same
          have unsettled : other.id ∉ settledIds exchange.batch response :=
            fun settled => settles ⟨inside, settled⟩
          exact .inr (List.mem_map_of_mem
            (List.mem_filter.mpr ⟨inside, decide_eq_true unsettled⟩))
        · exact .inl sent
  · cases taken

end Tapes.Outbox
