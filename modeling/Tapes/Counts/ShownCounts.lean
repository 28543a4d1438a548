import Tapes.Counts.AggregatesContext

namespace Tapes.Counts

open Tapes.Js Tapes.Machine
open Tapes.Outbox (truthy)

/-! What the tags save changes nothing that is shown: the counts are those of the last answer. -/

variable {wiring : Wiring} {counting next : Counting} {flight : Flight} {library : Library}
  {told : List (List RecordingAggregate)} {snapshot : AggregatesSnapshot}
  {rows : List RecordingAggregate} {recordingUrl : JsString}

/-! ## One recording -/

theorem get?_byRecording (distinct : (rows.map RecordingAggregate.recordingUrl).Nodup) :
    (byRecording rows).get? recordingUrl = rows.find? (·.recordingUrl = recordingUrl) := by
  have keys : ((rows.map fun row => (row.recordingUrl, row)).map Prod.fst).Nodup := by
    rw [List.map_map]
    exact distinct
  apply Option.ext
  intro row
  rw [byRecording, OrderedMap.get?_ofList keys, List.mem_map]
  constructor
  · intro inside
    obtain ⟨other, listed, same⟩ := inside
    obtain ⟨named, rfl⟩ := Prod.mk.inj same
    cases found : rows.find? (·.recordingUrl = recordingUrl) with
    | none =>
        have absent := List.find?_eq_none.mp found other listed
        simp [named] at absent
    | some first =>
        have firstNamed : first.recordingUrl = recordingUrl := by simpa using List.find?_some found
        rw [List.inj_on_of_nodup_map distinct (List.mem_of_find?_eq_some found) listed
          (firstNamed.trans named.symm)]
  · intro found
    have named : row.recordingUrl = recordingUrl := by simpa using List.find?_some found
    exact ⟨row, List.mem_of_find?_eq_some found, by rw [named]⟩

theorem find?_of_perm {other : List RecordingAggregate} (same : rows.Perm other)
    (distinct : (other.map RecordingAggregate.recordingUrl).Nodup) :
    (byRecording rows).get? recordingUrl = other.find? (·.recordingUrl = recordingUrl) := by
  have also : (rows.map RecordingAggregate.recordingUrl).Nodup :=
    ((same.map RecordingAggregate.recordingUrl).nodup_iff).mpr distinct
  rw [← get?_byRecording distinct]
  apply Option.ext
  intro row
  have keys (rows : List RecordingAggregate) : (rows.map fun row => (row.recordingUrl, row)).map
      Prod.fst = rows.map RecordingAggregate.recordingUrl := by
    rw [List.map_map]
    rfl
  rw [byRecording, byRecording, OrderedMap.get?_ofList (keys rows ▸ also),
    OrderedMap.get?_ofList (keys other ▸ distinct), (same.map _).mem_iff]

/-! ## The invariant -/

/-- A tag that came with a list is the tag of the list. -/
def Tagged (wiring : Wiring) (told : List (List RecordingAggregate)) (snapshot : AggregatesSnapshot) :
    Prop :=
  ∀ etag, snapshot.etag = some etag →
    etag = etagOf wiring.platform snapshot.aggregates ∧ snapshot.aggregates ∈ told

/-- What has been answered, for the time when it is heard. -/
def Ended.Fits (wiring : Wiring) (counting : Counting) (flight : Flight) : Ended → Prop
  | .answered (.fresh snapshot) library =>
      Tagged wiring counting.told snapshot ∧ snapshot.aggregates.Perm library.rows
  | .answered .unchanged library => flight.etag.isSome = true ∧
      ∀ snapshot, counting.held.snapshot = some snapshot → snapshot.aggregates.Perm library.rows
  | .failed => True

/-- The request carries the tag that is held still, and is for the installed target. -/
def Flight.Fits (wiring : Wiring) (counting : Counting) (flight : Flight) : Prop :=
  flight.etag = truthy counting.etag ∧
    (counting.astray = false → counting.installed = some (some flight.target)) ∧
    ∀ ended, flight.ended = some ended → ended.Fits wiring counting flight

/-- The last answer is the one of the held snapshot. -/
def Held.Fits (wiring : Wiring) (counting : Counting) (held : Held) : Prop :=
  ∀ snapshot, held.snapshot = some snapshot → Tagged wiring counting.told snapshot ∧
    ∃ target library, held.target = some target ∧ counting.heard = some (target, library) ∧
      snapshot.aggregates.Perm library.rows

structure Mirrors (wiring : Wiring) (counting : Counting) : Prop where
  held : counting.held.Fits wiring counting
  heard : ∀ target library, counting.heard = some (target, library) →
    counting.held.target = some target
  lost : counting.astray = false → counting.held.snapshot = none → counting.heard = none
  etag : ∀ etag, counting.etag = some etag → ∀ snapshot, counting.held.snapshot = some snapshot →
    snapshot.etag = some etag
  own : counting.astray = false → counting.etag.isSome = true →
    counting.held.snapshot.isSome = true ∧
      ∃ target, counting.installed = some (some target) ∧ counting.held.target = some target
  flight : ∀ flight, counting.inFlight = some flight → flight.Fits wiring counting
  busy : ∀ target, counting.installed = some (some target) → counting.refreshing = true →
    counting.inFlight.isSome = true
  rests : counting.astray = false → ∀ target, counting.installed = some (some target) →
    counting.inFlight = none → counting.held.target = some target ∧
      (counting.held.snapshot.isSome = true ∨ counting.held.failed = true)

theorem truthy_some {text : Option JsString} (is : (truthy text).isSome = true) :
    text.isSome = true := by
  cases text with
  | none => cases is
  | some text => rfl

/-! ## What is shown -/

theorem Mirrors.shown (mirrors : Mirrors wiring counting) (named : recordingUrl ≠ []) :
    useRecordingPlayback counting recordingUrl = counting.plain recordingUrl ∨
      counting.astray = true ∧ useRecordingPlayback counting recordingUrl = .unknown := by
  cases there : counting.current.bind Held.snapshot with
  | some snapshot =>
      obtain ⟨held, current, is⟩ := Option.bind_eq_some_iff.mp there
      simp only [Counting.current] at current
      split at current
      · rename_i aims
        cases current
        obtain ⟨-, target, library, origin, heard, same⟩ := mirrors.held snapshot is
        have shows : useRecordingPlayback counting recordingUrl =
            playbackOf ((byRecording snapshot.aggregates).get? recordingUrl) := by
          simp [useRecordingPlayback, useAggregates, there, named]
        have plain : counting.plain recordingUrl = library.playback recordingUrl := by
          simp only [Counting.plain, heard, ← aims, origin, if_true]
        rw [shows, plain, Library.playback, find?_of_perm same library.distinct]
        exact .inl rfl
      · cases current
  | none =>
      have shows : useRecordingPlayback counting recordingUrl = .unknown := by
        simp [useRecordingPlayback, useAggregates, there]
      cases astray : counting.astray with
      | true => exact .inr ⟨rfl, shows⟩
      | false =>
          rw [shows]
          apply Or.inl
          cases heard : counting.heard with
          | none => simp [Counting.plain, heard]
          | some told =>
              obtain ⟨target, library⟩ := told
              by_cases aims : counting.target = some target
              · have holds := mirrors.heard target library heard
                have current : counting.current = some counting.held := by
                  rw [Counting.current, if_pos (holds.trans aims.symm)]
                rw [current, Option.bind_some] at there
                rw [mirrors.lost astray there] at heard
                cases heard
              · simp [Counting.plain, heard, aims]

/-- Nothing is out: then nothing is loading, and the host has answered or failed. -/
theorem Mirrors.settled {target : Target} (mirrors : Mirrors wiring counting)
    (straight : counting.astray = false) (aims : counting.target = some target)
    (ran : counting.installed = some counting.target) (quiet : counting.inFlight = none) :
    (useAggregates counting).loading = false ∧
      ((useAggregates counting).answered = true ∨ (useAggregates counting).failed = true) := by
  rw [aims] at ran
  obtain ⟨holds, known⟩ := mirrors.rests straight target ran quiet
  have current : counting.current = some counting.held := by
    rw [Counting.current, if_pos (holds.trans aims.symm)]
  have idle : counting.refreshing = false := by
    cases refreshing : counting.refreshing with
    | false => rfl
    | true =>
        have out := mirrors.busy target ran refreshing
        rw [quiet] at out
        cases out
  simpa [useAggregates, current, idle] using known

/-! ## Steps -/

theorem answer_fits (library : Library) (flight : Flight) (generatedAt fallback : JsString)
    (etag : flight.etag = truthy counting.etag) (mirrors : Mirrors wiring counting)
    (differ : ∀ rows ∈ counting.told,
      etagOf wiring.platform rows = etagOf wiring.platform library.sorted → rows = library.sorted) :
    (answer wiring library flight generatedAt fallback).Fits wiring
      { counting with
        told := if wiring.isIpc flight.target then counting.told else library.sorted :: counting.told }
      flight := by
  unfold answer
  split
  · rename_i ipc
    refine ⟨?_, ?_⟩
    · intro etag nothing
      cases nothing
    · rw [parseAggregates_rowsValue library.counted]
  · rename_i http
    simp only [handleAggregates]
    split
    · rename_i result read
      split at read
      · rename_i same
        cases read
        refine ⟨by rw [same]; rfl, ?_⟩
        intro snapshot held
        have sent : counting.etag = some (etagOf wiring.platform library.sorted) := by
          rw [same] at etag
          cases whole : counting.etag with
          | none => rw [whole] at etag; cases etag
          | some text =>
              rw [whole, truthy, Option.filter_some] at etag
              split at etag
              · exact etag.symm
              · cases etag
        obtain ⟨tagged, -⟩ := mirrors.held snapshot held
        obtain ⟨tag, listed⟩ := tagged _ (mirrors.etag _ sent snapshot held)
        rw [differ _ listed tag.symm]
        exact List.perm_insertionSort _ _
      · rw [readAnswer_ok (counted_sorted library)] at read
        cases read
        refine ⟨?_, List.perm_insertionSort _ _⟩
        intro etag is
        cases is
        exact ⟨rfl, List.mem_cons_self⟩
    · rename_i read
      split at read
      · cases read
      · rw [readAnswer_ok (counted_sorted library)] at read
        cases read

theorem Tagged.more {more : List RecordingAggregate} (tagged : Tagged wiring told snapshot) :
    Tagged wiring (more :: told) snapshot := by
  intro etag is
  obtain ⟨tag, listed⟩ := tagged etag is
  exact ⟨tag, List.mem_cons_of_mem _ listed⟩

theorem load_eq {target : Option Target} {force : Bool} (loads : load counting target force = some next) :
    ∃ target', target = some target' ∧
      next = { counting with inFlight := some ⟨target', truthy counting.etag, none⟩ } := by
  unfold load at loads
  split at loads
  · cases loads
  · rename_i target
    split at loads
    · cases loads
    · cases loads
      exact ⟨target, rfl, rfl⟩

theorem Ended.Fits.more {more : List RecordingAggregate} {ended : Ended}
    (fits : ended.Fits wiring counting flight) :
    ended.Fits wiring { counting with told := more :: counting.told } flight := by
  cases ended with
  | failed => exact trivial
  | answered result library =>
      cases result with
      | fresh snapshot => exact ⟨fits.1.more, fits.2⟩
      | unchanged => exact fits

/-- A host has told a list. -/
theorem Mirrors.more {more : List RecordingAggregate} (mirrors : Mirrors wiring counting) :
    Mirrors wiring { counting with told := more :: counting.told } := by
  refine ⟨?_, mirrors.heard, mirrors.lost, mirrors.etag, mirrors.own, ?_, mirrors.busy, mirrors.rests⟩
  · intro snapshot held
    obtain ⟨tagged, answer⟩ := mirrors.held snapshot held
    exact ⟨tagged.more, answer⟩
  · intro flight out
    obtain ⟨etag, aim, ended⟩ := mirrors.flight flight out
    exact ⟨etag, aim, fun how ends => (ended how ends).more⟩

/-- The request that is out has ended. -/
theorem Mirrors.ends {target : Target} {etag : Option JsString} {how : Ended}
    (mirrors : Mirrors wiring counting) (out : counting.inFlight = some ⟨target, etag, none⟩)
    (fits : how.Fits wiring counting ⟨target, etag, none⟩) :
    Mirrors wiring { counting with inFlight := some ⟨target, etag, some how⟩ } := by
  obtain ⟨tag, aim, -⟩ := mirrors.flight _ out
  refine ⟨mirrors.held, mirrors.heard, mirrors.lost, mirrors.etag, mirrors.own, ?_, ?_, ?_⟩
  · intro flight is
    cases is
    refine ⟨tag, aim, ?_⟩
    intro other ends
    cases ends
    cases how with
    | failed => exact trivial
    | answered result library =>
        cases result with
        | fresh snapshot => exact fits
        | unchanged => exact fits
  · intro _ _ _
    rfl
  · intro _ _ _ nothing
    cases nothing

theorem Mirrors.handle {target : Target} {etag : Option JsString} {generatedAt fallback : JsString}
    (mirrors : Mirrors wiring counting) (out : counting.inFlight = some ⟨target, etag, none⟩)
    (differ : ∀ rows ∈ counting.told, etagOf wiring.platform rows =
      etagOf wiring.platform (counting.libraries target).sorted →
        rows = (counting.libraries target).sorted) :
    Mirrors wiring { counting with
      inFlight := some ⟨target, etag, some (answer wiring (counting.libraries target)
        ⟨target, etag, none⟩ generatedAt fallback)⟩
      told := if wiring.isIpc target then counting.told
        else (counting.libraries target).sorted :: counting.told } := by
  generalize counting.libraries target = library at differ ⊢
  obtain ⟨tag, -, -⟩ := mirrors.flight _ out
  have fits := answer_fits library ⟨target, etag, none⟩ generatedAt fallback tag mirrors differ
  generalize answer wiring library ⟨target, etag, none⟩ generatedAt fallback = how at fits ⊢
  cases ipc : wiring.isIpc target with
  | true =>
      rw [ipc] at fits
      exact mirrors.ends out fits
  | false =>
      rw [ipc] at fits
      exact mirrors.more.ends out fits

theorem Mirrors.refresh {target : Option Target} {force : Bool} (mirrors : Mirrors wiring counting) :
    Mirrors wiring (refresh counting target force) := by
  unfold Counts.refresh
  split
  · rename_i loaded loads
    obtain ⟨aim, rfl, rfl⟩ := load_eq loads
    have before {astray : Bool} (straight : (counting.astray || astray) = false) :
        counting.astray = false := (Bool.or_eq_false_iff.mp straight).1
    refine ⟨mirrors.held, mirrors.heard, fun straight => mirrors.lost (before straight), mirrors.etag,
      fun straight => mirrors.own (before straight), ?_, ?_, ?_⟩
    · intro flight is
      cases is
      refine ⟨rfl, ?_, ?_⟩
      · intro straight
        simpa using (Bool.or_eq_false_iff.mp straight).2
      · intro ended nothing
        cases nothing
    · intro _ _ _
      rfl
    · intro _ _ _ nothing
      cases nothing
  · exact mirrors

theorem Mirrors.runEffect (mirrors : Mirrors wiring counting) :
    Mirrors wiring (runEffect counting) := by
  unfold Counts.runEffect
  cases aims : counting.target with
  | none =>
      simp only [load, Option.getD_none]
      refine ⟨mirrors.held, mirrors.heard, mirrors.lost, ?_, ?_, ?_, ?_, ?_⟩
      · intro etag nothing
        cases nothing
      · intro _ nothing
        cases nothing
      · intro flight nothing
        cases nothing
      · intro target ran
        cases ran
      · intro _ target ran
        cases ran
  | some target =>
      simp only [load, not_true, false_and, if_false, Option.getD_some]
      refine ⟨mirrors.held, mirrors.heard, mirrors.lost, ?_, ?_, ?_, ?_, ?_⟩
      · intro etag nothing
        cases nothing
      · intro _ nothing
        cases nothing
      · intro flight is
        cases is
        refine ⟨rfl, fun _ => rfl, ?_⟩
        intro ended nothing
        cases nothing
      · intro _ _ _
        rfl
      · intro _ _ _ nothing
        cases nothing

theorem Mirrors.hear_fresh {library : Library} (mirrors : Mirrors wiring counting)
    (out : counting.inFlight = some flight)
    (ends : flight.ended = some (.answered (.fresh snapshot) library)) :
    Mirrors wiring (hear counting flight (.answered (.fresh snapshot) library)) := by
  obtain ⟨-, aim, ended⟩ := mirrors.flight flight out
  obtain ⟨tagged, same⟩ := ended _ ends
  constructor
  · intro other is
    cases is
    exact ⟨tagged, flight.target, library, rfl, rfl, same⟩
  · intro target other is
    cases is
    rfl
  · intro _ nothing
    cases nothing
  · intro etag is other held
    cases held
    exact is
  · intro straight _
    exact ⟨rfl, flight.target, aim straight, rfl⟩
  · intro other nothing
    cases nothing
  · intro _ _ refreshing
    cases refreshing
  · intro straight target ran _
    have same : some (some flight.target) = some (some target) := (aim straight).symm.trans ran
    cases same
    exact ⟨rfl, .inl rfl⟩

theorem Mirrors.hear_unchanged {library : Library} (mirrors : Mirrors wiring counting)
    (out : counting.inFlight = some flight)
    (ends : flight.ended = some (.answered .unchanged library)) :
    Mirrors wiring (hear counting flight (.answered .unchanged library)) := by
  obtain ⟨tag, aim, ended⟩ := mirrors.flight flight out
  obtain ⟨sent, same⟩ := ended _ ends
  have holds : counting.etag.isSome = true := truthy_some (tag ▸ sent)
  constructor
  · intro other held
    obtain ⟨tagged, -⟩ := mirrors.held other held
    exact ⟨tagged, flight.target, library, rfl, rfl, same other held⟩
  · intro target other is
    cases is
    rfl
  · intro straight lost
    obtain ⟨keeps, -⟩ := mirrors.own straight holds
    rw [show counting.held.snapshot = none from lost] at keeps
    cases keeps
  · exact mirrors.etag
  · intro straight _
    obtain ⟨keeps, -⟩ := mirrors.own straight holds
    exact ⟨keeps, flight.target, aim straight, rfl⟩
  · intro other nothing
    cases nothing
  · intro _ _ refreshing
    cases refreshing
  · intro straight target ran _
    obtain ⟨keeps, -⟩ := mirrors.own straight holds
    have same : some (some flight.target) = some (some target) := (aim straight).symm.trans ran
    cases same
    exact ⟨rfl, .inl keeps⟩

theorem Mirrors.hear_failed (mirrors : Mirrors wiring counting)
    (out : counting.inFlight = some flight) : Mirrors wiring (hear counting flight .failed) := by
  obtain ⟨-, aim, -⟩ := mirrors.flight flight out
  have kept {snapshot : AggregatesSnapshot} (held : (if counting.held.target = some flight.target then
      counting.held.snapshot else none) = some snapshot) :
      counting.held.target = some flight.target ∧ counting.held.snapshot = some snapshot := by
    split at held
    · rename_i same
      exact ⟨same, held⟩
    · cases held
  constructor
  · intro snapshot held
    obtain ⟨same, held⟩ := kept held
    obtain ⟨tagged, target, library, holds, heard, rows⟩ := mirrors.held snapshot held
    have this_host : flight.target = target := Option.some.inj (same.symm.trans holds)
    refine ⟨tagged, target, library, congrArg some this_host, ?_, rows⟩
    simp [hear, heard, this_host]
  · intro target library heard
    have still : (counting.heard.filter (·.1 = flight.target)) = some (target, library) := heard
    have named := (Option.filter_eq_some_iff.mp still).2
    exact congrArg some (of_decide_eq_true named).symm
  · intro straight lost
    have nothing : (if counting.held.target = some flight.target then counting.held.snapshot
        else none) = none := lost
    change counting.heard.filter (·.1 = flight.target) = none
    cases heard : counting.heard with
    | none => rfl
    | some told =>
        obtain ⟨target, library⟩ := told
        have holds := mirrors.heard target library heard
        by_cases same : target = flight.target
        · rw [if_pos (same ▸ holds)] at nothing
          rw [mirrors.lost straight nothing] at heard
          cases heard
        · simp [Option.filter, same]
  · intro etag is snapshot held
    exact mirrors.etag etag is snapshot (kept held).2
  · intro straight holds
    obtain ⟨keeps, target, ran, own⟩ := mirrors.own straight holds
    have same : some (some flight.target) = some (some target) := (aim straight).symm.trans ran
    cases same
    refine ⟨?_, flight.target, ran, rfl⟩
    simpa [hear, own] using keeps
  · intro other nothing
    cases nothing
  · intro _ _ refreshing
    cases refreshing
  · intro straight target ran _
    have same : some (some flight.target) = some (some target) := (aim straight).symm.trans ran
    cases same
    exact ⟨rfl, .inr rfl⟩

theorem Mirrors.step {action : CountingAction} (mirrors : Mirrors wiring counting)
    (differ : TagsDiffer wiring counting action)
    (taken : countingStep wiring counting action = some next) : Mirrors wiring next := by
  cases action with
  | tick elapsed =>
      cases taken
      exact ⟨mirrors.held, mirrors.heard, mirrors.lost, mirrors.etag, mirrors.own, mirrors.flight,
        mirrors.busy, mirrors.rests⟩
  | count target library =>
      cases taken
      exact ⟨mirrors.held, mirrors.heard, mirrors.lost, mirrors.etag, mirrors.own, mirrors.flight,
        mirrors.busy, mirrors.rests⟩
  | render target =>
      cases taken
      exact ⟨mirrors.held, mirrors.heard, mirrors.lost, mirrors.etag, mirrors.own, mirrors.flight,
        mirrors.busy, mirrors.rests⟩
  | commit =>
      simp only [countingStep] at taken
      split at taken <;> cases taken
      exact mirrors.runEffect
  | refresh target force =>
      cases taken
      exact mirrors.refresh
  | handle generatedAt fallback =>
      simp only [countingStep] at taken
      split at taken
      · rename_i target etag out
        cases taken
        exact mirrors.handle out (differ ⟨target, etag, none⟩ out)
      · cases taken
  | fail =>
      simp only [countingStep] at taken
      split at taken
      · rename_i target etag out
        cases taken
        exact mirrors.ends out trivial
      · cases taken
  | hear =>
      simp only [countingStep] at taken
      split at taken
      · rename_i target etag ended out
        cases taken
        cases ended with
        | failed => exact mirrors.hear_failed out
        | answered result library =>
            cases result with
            | fresh snapshot => exact mirrors.hear_fresh out rfl
            | unchanged => exact mirrors.hear_unchanged out rfl
      · cases taken

/-! ## Runs -/

theorem mirrors_mounted (now : Int) (libraries : Target → Library) (target : Option Target) :
    Mirrors wiring (.mounted now libraries target) := by
  constructor
  · intro snapshot nothing
    cases nothing
  · intro target library nothing
    cases nothing
  · intro _ _
    rfl
  · intro etag nothing
    cases nothing
  · intro _ nothing
    cases nothing
  · intro flight nothing
    cases nothing
  · intro target nothing
    cases nothing
  · intro _ target nothing
    cases nothing

/-- However hosts count, answer, fail and are changed for others: what is shown of a recording is what
the last answer of the current host counted, as if each answer had brought its list along. Only a
refresh for another host can make the counts unknown instead. And without one, once nothing is out,
nothing is loading, and the host has answered or failed. -/
theorem counts_are_those_of_the_last_answer (wiring : Wiring) (now : Int)
    (libraries : Target → Library) (first : Option Target) (counting : Counting)
    (reached : Reaches (countingStep wiring) (TagsDiffer wiring) (.mounted now libraries first)
      counting) :
    (∀ recordingUrl, recordingUrl ≠ [] →
      useRecordingPlayback counting recordingUrl = counting.plain recordingUrl ∨
        counting.astray = true ∧ useRecordingPlayback counting recordingUrl = .unknown) ∧
    (counting.astray = false → counting.target.isSome = true →
      counting.installed = some counting.target → counting.inFlight = none →
        (useAggregates counting).loading = false ∧
          ((useAggregates counting).answered = true ∨ (useAggregates counting).failed = true)) := by
  have mirrors : Mirrors wiring counting :=
    reached.invariant (Mirrors wiring) (mirrors_mounted now libraries first)
      fun _ mirrors differ taken => mirrors.step differ taken
  constructor
  · intro recordingUrl named
    exact mirrors.shown named
  · intro straight aims ran quiet
    obtain ⟨target, is⟩ := Option.isSome_iff_exists.mp aims
    exact mirrors.settled straight is ran quiet

def sampleLibrary : Library where
  rows := [⟨js "automerge:tape", .finite false .one, .finite false .one⟩]
  distinct := by decide
  counted := by
    intro row listed
    rw [List.mem_singleton.mp listed]
    exact ⟨by decide, ⟨_, rfl⟩, _, rfl, Nat.le_refl _⟩

def sampleWiring : Wiring where
  platform := ⟨id, fun _ => false, fun _ _ _ => false, fun _ => none⟩
  isIpc _ := false

/-- The second answer is that nothing has changed. -/
def asksTwice : List CountingAction :=
  [.commit, .handle (js "now") (js "now"), .hear, .refresh (some 0) true,
    .handle (js "later") (js "later"), .hear]

theorem tape_is_played : ∃ counting : Counting,
    useRecordingPlayback counting (js "automerge:tape") =
        .played (.finite false .one) (.finite false .one) ∧
      counting.told.length = 2 ∧ counting.etag.isSome = true ∧
      useRecordingPlayback counting (js "automerge:tape") = counting.plain (js "automerge:tape") := by
  have ends : (run (guarded (TagsDiffer sampleWiring) (countingStep sampleWiring))
      (.mounted 0 (fun _ => sampleLibrary) (some 0)) asksTwice).map
      (fun counting => (useRecordingPlayback counting (js "automerge:tape"), counting.told.length,
        counting.etag.isSome, counting.astray)) =
      some (.played (.finite false .one) (.finite false .one), 2, true, false) := by
    decide +kernel
  obtain ⟨counting, ran, ends⟩ := Option.map_eq_some_iff.mp ends
  obtain ⟨shown, ends⟩ := Prod.mk.inj ends
  obtain ⟨told, ends⟩ := Prod.mk.inj ends
  obtain ⟨tagged, straight⟩ := Prod.mk.inj ends
  have same := (counts_are_those_of_the_last_answer sampleWiring 0 (fun _ => sampleLibrary) (some 0)
    counting (.of_guarded_run ran)).1 (js "automerge:tape") (by decide)
  refine ⟨counting, shown, told, tagged, ?_⟩
  rcases same with same | lost
  · exact same
  · rw [straight] at lost
    cases lost.1

end Tapes.Counts
