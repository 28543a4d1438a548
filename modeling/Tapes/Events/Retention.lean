import Tapes.Events.Aggregates
import Tapes.Machine.Run

namespace Tapes.Events

open Tapes.Js Tapes.Machine

/-! Retention: the aggregate store's sweep over the event store's segments, one
step for each stretch between two awaits, with crashes. -/

/-- `aggregates.json`; a missing file reads as an empty one. -/
structure BaselineFile where
  foldedSegments : List Day
  recordings : TotalsMap

structure Disk where
  log : Log
  baseline : BaselineFile

/-- What the process holds of both stores. -/
structure Stores where
  seen : List JsString
  baseline : TotalsMap
  foldedSegments : List Day
  rollup : TotalsMap

/-- What a sweep awaits: the read of a segment, the write of the baseline with the
segment in it, the unlink, or the last write that drops the unlinked names. -/
inductive SweepPhase where
  | reading (day : Day)
  | writing (day : Day) (expiring : List StoredEvent)
  | unlinking (day : Day) (expiring : List StoredEvent)
  | settling

/-- A sweep under way. `segments`, `events` and `retained` are its result so far. -/
structure Sweep where
  cutoff : Int
  remaining : List Day
  segments : List Day
  events : Nat
  retained : List Day
  phase : SweepPhase

/-- `accepted` is every event the log has ever taken. -/
structure Host where
  disk : Disk
  stores : Stores
  sweep : Option Sweep
  accepted : List StoredEvent

/-! ## Opening -/

/-- The events of the segments not named as folded. -/
def survivors (log : Log) (foldedSegments : List Day) : List StoredEvent :=
  (log.filter (·.1 ∉ foldedSegments)).map Prod.snd

/-- `derive`, over a log that lists its segments oldest first. -/
def derive (log : Log) (baseline : BaselineFile) : TotalsMap :=
  deriveAggregates (((segments log).filter (· ∉ baseline.foldedSegments)).flatMap (readSegment log))
    baseline.recordings

/-- `open` on fresh stores. Of the baseline `readBaseline` leaves out an empty url, which it never has
where the events are those that the ingest route takes. -/
def openStores (disk : Disk) : Stores where
  seen := disk.log.map fun entry => dedupeKey entry.2.toPlaybackEvent
  baseline := disk.baseline.recordings
  foldedSegments := disk.baseline.foldedSegments
  rollup := derive disk.log disk.baseline

def Host.empty : Host :=
  let disk : Disk := ⟨[], ⟨[], .empty⟩⟩
  ⟨disk, openStores disk, none, []⟩

/-! ## Steps -/

/-- `append` and then `record` of what it accepted. -/
def append (toISOString : Int → JsString) (host : Host) (events : List PlaybackEvent)
    (now : Int) : Host :=
  let admission := admitAll host.stores.seen events (toISOString now)
  { host with
    disk := { host.disk with
      log := host.disk.log ++ admission.accepted.map fun event => (segmentDay now, event) }
    stores := { host.stores with
      seen := admission.seen
      rollup := admission.accepted.foldl foldEvent host.stores.rollup }
    accepted := host.accepted ++ admission.accepted }

/-- The file `writeBaseline` writes. -/
def Stores.file (stores : Stores) : BaselineFile :=
  ⟨stores.foldedSegments.insertionSort (· ≤ ·), stores.baseline⟩

/-- The end of the pass: the names of the files that are gone are dropped. -/
def finishPass (host : Host) (sweep : Sweep) : Host :=
  let settled := sweep.segments.filter (· ∈ host.stores.foldedSegments)
  if settled = [] then { host with sweep := none }
  else
    { host with
      stores := { host.stores with
        foldedSegments := host.stores.foldedSegments.filter (· ∉ settled) }
      sweep := some { sweep with phase := .settling } }

/-- On to the next segment past the cutoff. -/
def visit (host : Host) (sweep : Sweep) : Host :=
  match sweep.remaining.dropWhile (sweep.cutoff < segmentEndMs ·) with
  | [] => finishPass host { sweep with remaining := [] }
  | day :: rest =>
      { host with sweep := some { sweep with remaining := rest, phase := .reading day } }

def startSweep (host : Host) (maxAgeMs now : Int) : Host :=
  visit host ⟨now - maxAgeMs, segments host.disk.log, [], 0, [], .settling⟩

/-- `onSegment`, up to its write. A segment the stores have as folded is not folded
again, and is unlinked without a write. -/
def onSegment (host : Host) (sweep : Sweep) (day : Day) : Host :=
  let expiring := readSegment host.disk.log day
  if day ∈ host.stores.foldedSegments then
    { host with sweep := some { sweep with phase := .unlinking day expiring } }
  else
    { host with
      stores := { host.stores with
        baseline := expiring.foldl foldEvent host.stores.baseline
        foldedSegments := host.stores.foldedSegments ++ [day] }
      sweep := some { sweep with phase := .writing day expiring } }

def writeBaseline (host : Host) : Host :=
  { host with disk := { host.disk with baseline := host.stores.file } }

def unlinkSegment (host : Host) (sweep : Sweep) (day : Day) (expiring : List StoredEvent) : Host :=
  let unlinked := { host with
    disk := { host.disk with log := unlink host.disk.log day }
    stores := { host.stores with seen := forget host.stores.seen expiring } }
  visit unlinked { sweep with
    segments := sweep.segments ++ [day]
    events := sweep.events + expiring.length }

/-- What the sweep awaits resolves, or fails. Reads succeed. A failed write in
`onSegment` retains the segment; any other failure ends the sweep. -/
def resumeSweep (host : Host) (sweep : Sweep) (succeeds : Bool) : Host :=
  match sweep.phase, succeeds with
  | .reading day, _ => onSegment host sweep day
  | .writing day expiring, true =>
      { writeBaseline host with sweep := some { sweep with phase := .unlinking day expiring } }
  | .writing day _, false => visit host { sweep with retained := sweep.retained ++ [day] }
  | .unlinking day expiring, true => unlinkSegment host sweep day expiring
  | .settling, true => { writeBaseline host with sweep := none }
  | _, false => { host with sweep := none }

inductive Action where
  | append (events : List PlaybackEvent) (now : Int)
  | sweep (maxAgeMs now : Int)
  | resume (succeeds : Bool)
  | crash
  | rebuild

/-- Sweeps follow one another; everything else happens at any await of one. -/
def step (toISOString : Int → JsString) (host : Host) : Action → Option Host
  | .append events now => some (append toISOString host events now)
  | .sweep maxAgeMs now => if host.sweep.isNone then some (startSweep host maxAgeMs now) else none
  | .resume succeeds => host.sweep.map fun sweep => resumeSweep host sweep succeeds
  | .crash => some { host with stores := openStores host.disk, sweep := none }
  | .rebuild =>
      if host.sweep.isNone then some { host with stores := { openStores host.disk with
        seen := host.stores.seen } } else none

/-! ## Survivors -/

theorem survivors_append_new {log : Log} {folded : List Day} {day : Day}
    {events : List StoredEvent} (outside : day ∉ folded) :
    survivors (log ++ events.map fun event => (day, event)) folded =
      survivors log folded ++ events := by
  have kept : (events.map fun event => (day, event)).filter (·.1 ∉ folded) =
      events.map fun event => (day, event) := by
    rw [List.filter_eq_self]
    intro entry member
    obtain ⟨event, -, rfl⟩ := List.mem_map.mp member
    simpa using outside
  simp only [survivors, List.filter_append, List.map_append, kept, List.map_map]
  simp [Function.comp_def]

theorem survivors_unlink {log : Log} {folded : List Day} {day : Day} (inside : day ∈ folded) :
    survivors (unlink log day) folded = survivors log folded := by
  rw [survivors, survivors, unlink, List.filter_filter]
  congr 1
  refine List.filter_congr fun entry _ => ?_
  by_cases same : entry.1 = day
  · simp [same, inside]
  · simp [same]

/-- Naming a segment as folded takes exactly its events from the survivors. -/
theorem tally_survivors_fold {log : Log} {folded : List Day} {day : Day} (outside : day ∉ folded) :
    tally (survivors log folded) =
      tally (readSegment log day) + tally (survivors log (folded ++ [day])) := by
  induction log with
  | nil => rfl
  | cons entry rest induction =>
      simp only [survivors, readSegment, List.filter_cons, List.mem_append, List.mem_singleton,
        not_or] at induction ⊢
      by_cases here : entry.1 = day
      · simp only [here, outside, not_false_eq_true, decide_true, if_true, not_true, and_false,
          decide_false, Bool.false_eq_true, if_false, List.map_cons]
        change counted entry.2 + tally _ = counted entry.2 + tally _ + tally _
        rw [induction, add_assoc]
      · by_cases inside : entry.1 ∈ folded
        · simpa [here, inside] using induction
        · simp only [here, inside, not_false_eq_true, decide_true, if_true, decide_false,
            Bool.false_eq_true, if_false, and_self, List.map_cons]
          change counted entry.2 + tally _ = tally _ + (counted entry.2 + tally _)
          rw [induction]
          abel

/-- Dropping the names of segments that are gone changes nothing. -/
theorem survivors_settle {log : Log} {folded settled : List Day}
    (gone : ∀ entry ∈ log, entry.1 ∉ settled) :
    survivors log (folded.filter (· ∉ settled)) = survivors log folded := by
  rw [survivors, survivors]
  congr 1
  refine List.filter_congr fun entry member => ?_
  simp [List.mem_filter, gone entry member]

theorem survivors_of_same_names {log : Log} {folded names : List Day}
    (same : ∀ day, day ∈ folded ↔ day ∈ names) : survivors log folded = survivors log names := by
  simp only [survivors, same]

theorem tally_flatMap_readSegment {log : Log} {days : List Day} (distinct : days.Nodup) :
    tally (days.flatMap (readSegment log)) = tally ((log.filter (·.1 ∈ days)).map Prod.snd) :=
  tally_perm (flatMap_readSegment_perm distinct log)

theorem segments_nodup (log : Log) : (segments log).Nodup :=
  (List.perm_insertionSort _ _).nodup_iff.mpr (List.nodup_dedup _)

/-- A rebuild counts the baseline and the survivors, each once. -/
theorem tallyOf_derive (log : Log) (baseline : BaselineFile) :
    tallyOf (derive log baseline) =
      tallyOf baseline.recordings + tally (survivors log baseline.foldedSegments) := by
  rw [derive, tallyOf_deriveAggregates,
    tally_flatMap_readSegment ((segments_nodup log).filter _)]
  congr 3
  refine List.filter_congr fun entry member => ?_
  have listed : entry.1 ∈ segments log := by
    rw [segments, List.mem_insertionSort, List.mem_dedup]
    exact List.mem_map_of_mem member
  simp [List.mem_filter, listed]

/-! ## The invariant -/

/-- The segment a sweep is working on. -/
def Sweep.day? (sweep : Sweep) : Option Day :=
  match sweep.phase with
  | .reading day | .writing day _ | .unlinking day _ => some day
  | .settling => none

/-- A segment is passed to the unlink without a write only when the baseline on disk
has it, and new events go to segments that no sweep has folded or is working on. -/
def Sound (toISOString : Int → JsString) (host : Host) : Action → Prop
  | .append events now =>
      (admitAll host.stores.seen events (toISOString now)).accepted = [] ∨
        segmentDay now ∉ host.stores.foldedSegments ∧
        segmentDay now ∉ host.disk.baseline.foldedSegments ∧
        ∀ sweep, host.sweep = some sweep → sweep.day? ≠ some (segmentDay now)
  | .resume _ => ∀ sweep day, host.sweep = some sweep → sweep.phase = .reading day →
      day ∈ host.stores.foldedSegments → day ∈ host.disk.baseline.foldedSegments
  | _ => True

/-- What the baseline on disk and the segments it does not name count together. -/
def Disk.lifetime (disk : Disk) : Tally :=
  tallyOf disk.baseline.recordings + tally (survivors disk.log disk.baseline.foldedSegments)

def Stores.lifetime (stores : Stores) (log : Log) : Tally :=
  tallyOf stores.baseline + tally (survivors log stores.foldedSegments)

/-- Every segment the pass has unlinked is gone, and named until the pass ends. -/
def Unlinked (host : Host) (segments : List Day) : Prop :=
  ∀ day ∈ segments, day ∈ host.stores.foldedSegments ∧ ∀ entry ∈ host.disk.log, entry.1 ≠ day

/-- How far the segment at hand has come. -/
def Sweep.Consistent (sweep : Sweep) (host : Host) : Prop :=
  match sweep.phase with
  | .reading _ => Unlinked host sweep.segments
  | .writing day _ => Unlinked host sweep.segments ∧ day ∈ host.stores.foldedSegments
  | .unlinking day _ => Unlinked host sweep.segments ∧ day ∈ host.stores.foldedSegments ∧
      day ∈ host.disk.baseline.foldedSegments
  | .settling => True

/-- Disk, memory and rollup each count every event ever accepted, once. -/
structure Tallied (host : Host) : Prop where
  onDisk : host.disk.lifetime = tally host.accepted
  inMemory : host.stores.lifetime host.disk.log = tally host.accepted
  rollup : tallyOf host.stores.rollup = tally host.accepted

structure Counted (host : Host) : Prop extends Tallied host where
  sweep : ∀ sweep, host.sweep = some sweep → sweep.Consistent host

theorem mem_file_foldedSegments {stores : Stores} {day : Day} :
    day ∈ stores.file.foldedSegments ↔ day ∈ stores.foldedSegments := by
  simp [Stores.file]

theorem file_lifetime (stores : Stores) (log : Log) :
    (Disk.mk log stores.file).lifetime = stores.lifetime log := by
  have same : survivors log stores.file.foldedSegments = survivors log stores.foldedSegments :=
    survivors_of_same_names fun day => mem_file_foldedSegments
  simp only [Disk.lifetime, Stores.lifetime, same]
  rfl

theorem openStores_rollup (disk : Disk) : tallyOf (openStores disk).rollup = disk.lifetime :=
  tallyOf_derive disk.log disk.baseline

variable {toISOString : Int → JsString} {host next : Host} {sweep : Sweep} {day : Day}
  {expiring : List StoredEvent}

theorem counted_empty : Counted Host.empty :=
  ⟨⟨rfl, rfl, rfl⟩, fun _ absent => by cases absent⟩

theorem Tallied.withSweep (tallied : Tallied host) (consistent : sweep.Consistent host) :
    Counted { host with sweep := some sweep } := by
  refine ⟨⟨tallied.onDisk, tallied.inMemory, tallied.rollup⟩, fun other same => ?_⟩
  cases same
  exact consistent

theorem Tallied.withoutSweep (tallied : Tallied host) : Counted { host with sweep := none } :=
  ⟨⟨tallied.onDisk, tallied.inMemory, tallied.rollup⟩, fun _ absent => by cases absent⟩

/-! ## Appends -/

theorem survivors_append {log : Log} {folded : List Day} {events : List StoredEvent}
    (outside : events = [] ∨ day ∉ folded) :
    survivors (log ++ events.map fun event => (day, event)) folded =
      survivors log folded ++ events := by
  rcases outside with rfl | outside
  · simp
  · exact survivors_append_new outside

theorem Unlinked.append {segments : List Day} {events : List PlaybackEvent} {now : Int}
    (unlinked : Unlinked host segments)
    (outside : (admitAll host.stores.seen events (toISOString now)).accepted = [] ∨
      segmentDay now ∉ host.stores.foldedSegments) :
    Unlinked (append toISOString host events now) segments := by
  intro day member
  obtain ⟨named, gone⟩ := unlinked day member
  refine ⟨named, fun entry listed => ?_⟩
  rcases List.mem_append.mp listed with old | new
  · exact gone entry old
  · obtain ⟨event, accepted, rfl⟩ := List.mem_map.mp new
    rcases outside with none | outside
    · rw [none] at accepted
      cases accepted
    · intro same
      subst day
      exact outside named

theorem Counted.append {events : List PlaybackEvent} {now : Int} (counted : Counted host)
    (sound : Sound toISOString host (.append events now)) :
    Counted (append toISOString host events now) := by
  have outsideMemory := sound.imp_right And.left
  have outsideDisk := sound.imp_right fun outside => outside.2.1
  refine ⟨⟨?_, ?_, ?_⟩, ?_⟩
  · simp only [Events.append, Disk.lifetime, survivors_append outsideDisk, tally_append]
    rw [← add_assoc, ← counted.onDisk, Disk.lifetime]
  · simp only [Events.append, Stores.lifetime, survivors_append outsideMemory, tally_append]
    rw [← add_assoc, ← counted.inMemory, Stores.lifetime]
  · simp only [Events.append, tallyOf_foldl_foldEvent, tally_append, counted.rollup]
  · intro sweep found
    have consistent := counted.sweep sweep found
    simp only [Sweep.Consistent] at consistent ⊢
    split at consistent
    · exact consistent.append outsideMemory
    · exact ⟨consistent.1.append outsideMemory, consistent.2⟩
    · exact ⟨consistent.1.append outsideMemory, consistent.2⟩
    · trivial

/-! ## The sweep -/

theorem Tallied.finishPass (tallied : Tallied host) (unlinked : Unlinked host sweep.segments) :
    Counted (finishPass host sweep) := by
  simp only [Events.finishPass]
  split
  · exact tallied.withoutSweep
  · have gone : ∀ entry ∈ host.disk.log,
        entry.1 ∉ sweep.segments.filter (· ∈ host.stores.foldedSegments) := by
      intro entry listed member
      exact (unlinked entry.1 (List.mem_of_mem_filter member)).2 entry listed rfl
    refine ⟨⟨tallied.onDisk, ?_, tallied.rollup⟩, fun other same => ?_⟩
    · rw [← tallied.inMemory]
      simp only [Stores.lifetime, survivors_settle gone]
    · cases same
      trivial

theorem Tallied.visit (tallied : Tallied host) (unlinked : Unlinked host sweep.segments) :
    Counted (visit host sweep) := by
  simp only [Events.visit]
  split
  · exact tallied.finishPass unlinked
  · exact tallied.withSweep unlinked

theorem Tallied.onSegment (tallied : Tallied host) (unlinked : Unlinked host sweep.segments)
    (onDisk : day ∈ host.stores.foldedSegments → day ∈ host.disk.baseline.foldedSegments) :
    Counted (onSegment host sweep day) := by
  simp only [Events.onSegment]
  split
  · rename_i folded
    exact tallied.withSweep ⟨unlinked, folded, onDisk folded⟩
  · rename_i outside
    refine ⟨⟨tallied.onDisk, ?_, tallied.rollup⟩, fun other same => ?_⟩
    · rw [← tallied.inMemory]
      simp only [Stores.lifetime, tallyOf_foldl_foldEvent, tally_survivors_fold outside, add_assoc]
    · cases same
      refine ⟨fun each member => ?_, List.mem_append_right _ (List.mem_singleton_self day)⟩
      exact ⟨List.mem_append_left _ (unlinked each member).1, (unlinked each member).2⟩

theorem Tallied.writeBaseline (tallied : Tallied host) : Tallied (writeBaseline host) :=
  ⟨(file_lifetime host.stores host.disk.log).trans tallied.inMemory, tallied.inMemory,
    tallied.rollup⟩

theorem Tallied.unlinkSegment (tallied : Tallied host) (unlinked : Unlinked host sweep.segments)
    (inMemory : day ∈ host.stores.foldedSegments)
    (onDisk : day ∈ host.disk.baseline.foldedSegments) :
    Counted (unlinkSegment host sweep day expiring) := by
  refine Tallied.visit ⟨?_, ?_, tallied.rollup⟩ ?_
  · rw [← tallied.onDisk]
    simp only [Disk.lifetime, survivors_unlink onDisk]
  · rw [← tallied.inMemory]
    simp only [Stores.lifetime, survivors_unlink inMemory]
  · intro each member
    rcases List.mem_append.mp member with earlier | here
    · obtain ⟨named, gone⟩ := unlinked each earlier
      exact ⟨named, fun entry listed => gone entry (List.mem_of_mem_filter listed)⟩
    · rw [List.mem_singleton] at here
      subst each
      exact ⟨inMemory, fun entry listed => of_decide_eq_true (List.mem_filter.mp listed).2⟩

theorem Counted.resume {succeeds : Bool} (counted : Counted host)
    (found : host.sweep = some sweep) (sound : Sound toISOString host (.resume succeeds)) :
    Counted (resumeSweep host sweep succeeds) := by
  have tallied := counted.toTallied
  have consistent := counted.sweep sweep found
  obtain ⟨cutoff, remaining, segments, events, retained, phase⟩ := sweep
  cases phase with
  | reading day => exact tallied.onSegment consistent (sound _ day found rfl)
  | writing day expiring =>
      cases succeeds with
      | true =>
          exact tallied.writeBaseline.withSweep
            ⟨consistent.1, consistent.2, mem_file_foldedSegments.mpr consistent.2⟩
      | false => exact tallied.visit consistent.1
  | unlinking day expiring =>
      cases succeeds with
      | true => exact tallied.unlinkSegment consistent.1 consistent.2.1 consistent.2.2
      | false => exact tallied.withoutSweep
  | settling =>
      cases succeeds with
      | true => exact tallied.writeBaseline.withoutSweep
      | false => exact tallied.withoutSweep

theorem Counted.step {action : Action} (counted : Counted host)
    (sound : Sound toISOString host action) (taken : step toISOString host action = some next) :
    Counted next := by
  have tallied := counted.toTallied
  cases action with
  | append events now =>
      cases taken
      exact counted.append sound
  | sweep maxAgeMs now =>
      simp only [Events.step] at taken
      split at taken
      · cases taken
        exact tallied.visit fun day absent => by cases absent
      · cases taken
  | resume succeeds =>
      obtain ⟨sweep, found, rfl⟩ := Option.map_eq_some_iff.mp taken
      exact counted.resume found sound
  | crash =>
      cases taken
      exact ⟨⟨tallied.onDisk, tallied.onDisk, (openStores_rollup _).trans tallied.onDisk⟩,
        fun _ absent => by cases absent⟩
  | rebuild =>
      simp only [Events.step] at taken
      split at taken
      · rename_i idle
        cases taken
        refine ⟨⟨tallied.onDisk, tallied.onDisk, (openStores_rollup _).trans tallied.onDisk⟩, ?_⟩
        intro sweep found
        rw [Option.isNone_iff_eq_none.mp idle] at found
        cases found
      · cases taken

/-! ## Runs -/

/-- In every run from an empty host that keeps to the guard, the baseline on disk and
the segments it does not name count every event ever accepted once, and a step that
unlinks a segment finds it in the baseline on disk. -/
def KeepsCounts (toISOString : Int → JsString) (guard : Host → Action → Prop) : Prop :=
  ∀ host, Reaches (step toISOString) guard Host.empty host →
    host.disk.lifetime = tally host.accepted ∧
    tallyOf host.stores.rollup = tally host.accepted ∧
    ∀ action next, guard host action → step toISOString host action = some next →
      ∀ entry ∈ host.disk.log, entry ∉ next.disk.log →
        entry.1 ∈ host.disk.baseline.foldedSegments

theorem visit_log (host : Host) (sweep : Sweep) : (visit host sweep).disk = host.disk := by
  simp only [visit, finishPass]
  split
  · split <;> rfl
  · rfl

/-- Only the unlink of a segment takes entries from the log. -/
theorem unlinking_of_missing {action : Action} {entry : Day × StoredEvent}
    (taken : step toISOString host action = some next) (listed : entry ∈ host.disk.log)
    (missing : entry ∉ next.disk.log) :
    ∃ sweep expiring, host.sweep = some sweep ∧ sweep.phase = .unlinking entry.1 expiring := by
  have unchanged : next.disk.log ≠ host.disk.log := fun same => missing (same ▸ listed)
  cases action with
  | append events now =>
      cases taken
      exact absurd (List.mem_append_left _ listed) missing
  | crash =>
      cases taken
      exact absurd rfl unchanged
  | sweep maxAgeMs now | rebuild =>
      simp only [step] at taken
      split at taken
      · cases taken
        exact absurd (by simp [startSweep, visit_log]) unchanged
      · cases taken
  | resume succeeds =>
      obtain ⟨sweep, found, rfl⟩ := Option.map_eq_some_iff.mp taken
      obtain ⟨cutoff, remaining, segments, events, retained, phase⟩ := sweep
      cases phase with
      | reading day =>
          refine absurd ?_ unchanged
          simp only [resumeSweep, onSegment]
          split <;> rfl
      | writing day expiring =>
          refine absurd ?_ unchanged
          cases succeeds
          · simp only [resumeSweep, visit_log]
          · rfl
      | settling => cases succeeds <;> exact absurd rfl unchanged
      | unlinking day expiring =>
          cases succeeds with
          | false => exact absurd rfl unchanged
          | true =>
              refine ⟨_, expiring, found, ?_⟩
              simp only [resumeSweep, unlinkSegment, visit_log, unlink, List.mem_filter, listed,
                true_and, decide_not, Bool.not_eq_eq_eq_not, Bool.not_true, decide_eq_false_iff_not,
                not_not] at missing
              rw [missing]

/-- Retention keeps every lifetime count through failures, retries and crashes, as
long as no segment is unlinked on the word of the memory alone. -/
theorem sound_runs_keep_counts (toISOString : Int → JsString) :
    KeepsCounts toISOString (Sound toISOString) := by
  intro host reached
  have counted : Counted host :=
    reached.invariant Counted counted_empty fun _ counted sound taken => counted.step sound taken
  refine ⟨counted.onDisk, counted.rollup, fun action next _ taken entry listed missing => ?_⟩
  obtain ⟨sweep, expiring, found, unlinking⟩ := unlinking_of_missing taken listed missing
  have consistent := counted.sweep sweep found
  simp only [Sweep.Consistent, unlinking] at consistent
  exact consistent.2.2

/-! ## A sweep and a crash -/

/-- What `Sound` asks of the host as it stands. -/
def soundCheck (host : Host) : Action → Bool
  | .append _ now =>
      segmentDay now ∉ host.stores.foldedSegments &&
        segmentDay now ∉ host.disk.baseline.foldedSegments &&
        host.sweep.all fun sweep => sweep.day? ≠ some (segmentDay now)
  | .resume _ => host.sweep.all fun sweep => match sweep.phase with
      | .reading day =>
          day ∉ host.stores.foldedSegments || day ∈ host.disk.baseline.foldedSegments
      | _ => true
  | _ => true

theorem sound_of_check {toISOString : Int → JsString} {host : Host} {action : Action}
    (checked : soundCheck host action = true) : Sound toISOString host action := by
  cases action with
  | append events now =>
      simp only [soundCheck, Bool.and_eq_true, decide_eq_true_eq] at checked
      obtain ⟨⟨inMemory, onDisk⟩, elsewhere⟩ := checked
      refine .inr ⟨inMemory, onDisk, fun sweep found => ?_⟩
      simpa [found] using elsewhere
  | resume succeeds =>
      intro sweep day found reading inMemory
      simpa [soundCheck, found, reading, inMemory] using checked
  | sweep | crash | rebuild => trivial

def samplePlay : PlaybackEvent where
  id := js "1"
  recordingUrl := js "automerge:tape"
  completion := .finite false .zero
  occurredAt := js "1970-01-01T00:00:00.000Z"
  deviceId := some (js "phone")

def sampleTime (_ : Int) : JsString := js "1970-01-01T00:00:00.000Z"

/-- The play is folded, the baseline is written, the segment is unlinked and the process dies. -/
def sweepThenCrash : List Action :=
  [.append [samplePlay] 0, .sweep 0 (2 * dayMs), .resume true, .resume true, .resume true, .crash]

theorem sweepThenCrash_unlinks :
    (run (guarded (soundCheck · ·) (step sampleTime)) Host.empty sweepThenCrash).any (fun host => host.disk.log.isEmpty &&
        (tally host.accepted samplePlay.recordingUrl).1 = 1) = true := by
  decide +kernel

/-- The play of an unlinked segment still counts. -/
theorem unlinked_play_still_counts :
    ∃ host, Reaches (step sampleTime) (Sound sampleTime) Host.empty host ∧ host.disk.log = [] ∧
      (host.disk.lifetime samplePlay.recordingUrl).1 = 1 := by
  obtain ⟨host, ran, shows⟩ := (Option.any_eq_true _ _).mp sweepThenCrash_unlinks
  simp only [Bool.and_eq_true, List.isEmpty_iff, decide_eq_true_eq] at shows
  have reached : Reaches (step sampleTime) (Sound sampleTime) Host.empty host :=
    .of_checked_run ran fun _ _ _ _ => sound_of_check
  have onDisk := (sound_runs_keep_counts sampleTime host reached).1
  exact ⟨host, reached, shows.1, by rw [onDisk, shows.2]⟩

/-! ## A failed write of the baseline -/

/-- The write of the baseline fails in the first sweep, and a second sweep of the
same stores unlinks the segment before the process dies. -/
def failedWriteActions : List Action :=
  [.append [samplePlay] 0, .sweep 0 (2 * dayMs), .resume true, .resume false,
    .sweep 0 (2 * dayMs), .resume true, .resume true, .crash]

theorem failedWrite_loses_play :
    ((run (step fun _ => js "1970-01-01T00:00:00.000Z") Host.empty failedWriteActions).map
      fun host => ((host.disk.lifetime samplePlay.recordingUrl).1,
        (tally host.accepted samplePlay.recordingUrl).1)) = some (0, 1) := by
  decide +kernel

/-- A segment folded in memory only is unlinked by the next sweep, and a crash then
loses its plays. -/
theorem failed_write_then_sweep_loses_counts :
    ¬ KeepsCounts (fun _ => js "1970-01-01T00:00:00.000Z") anyAction := by
  intro keeps
  obtain ⟨host, ran, shows⟩ := Option.map_eq_some_iff.mp failedWrite_loses_play
  have onDisk := (keeps host (.of_run ran (meetsAlong_anyAction _ _))).1
  rw [onDisk] at shows
  have zero := congrArg Prod.fst shows
  have one := congrArg Prod.snd shows
  dsimp only at zero one
  omega

end Tapes.Events
