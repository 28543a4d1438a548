import Mathlib.Data.List.TakeWhile
import Tapes.Sessions.PublishedField

namespace Tapes.Sessions

open Tapes.Js Tapes.Provenance Tapes.Machine

/-! Who was there while a session was open, as the reports of connections tell, and that the
recorder's spans are that. -/

/-! ## Reports -/

/-- A list of connections as the recorder is given it, and when. -/
structure Report where
  time : Int
  connections : List SyncConnection
deriving DecidableEq

def Report.ids (report : Report) : List JsString := report.connections.map SyncConnection.id

def Report.lacks (report : Report) (id : JsString) : Bool := decide (id ∉ report.ids)

def addAppeared (known : List SyncConnection) (connection : SyncConnection) :
    List SyncConnection :=
  if connection.provenKey.isSome = true ∧ connection.id ∉ known.map SyncConnection.id then
    known ++ [connection]
  else known

/-- The connections with a proven key, each as it first appeared. -/
def appeared (reports : List Report) : List SyncConnection :=
  (reports.flatMap Report.connections).foldl addAppeared []

/-- The time of the first report without the connection after one with it. -/
def leftAt (reports : List Report) (id : JsString) : Option Int :=
  ((reports.dropWhile (·.lacks id)).find? (·.lacks id)).map Report.time

/-- Each connection is reported without a gap and under one device key, and connected before it
was first reported. -/
structure WellReported (reports : List Report) : Prop where
  contiguous : ∀ first between last id, [first, between, last].Sublist reports →
    id ∈ first.ids → id ∈ last.ids → id ∈ between.ids
  fixed : ∀ first ∈ reports, ∀ second ∈ reports, ∀ left ∈ first.connections,
    ∀ right ∈ second.connections, left.id = right.id → left.deviceKey = right.deviceKey
  connected : ∀ report ∈ reports, ∀ connection ∈ report.connections, ∀ other ∈ reports,
    connection.id ∈ other.ids → connection.connectedAt ≤ other.time

variable {reports : List Report} {report : Report} {connection : SyncConnection} {id : JsString}
  {known : List SyncConnection} {openedAt now : Int} {tracked : Tracked}

theorem WellReported.sublist {fewer : List Report} (well : WellReported reports)
    (sub : fewer.Sublist reports) : WellReported fewer := by
  refine ⟨?_, ?_, ?_⟩
  · intro first between last id there
    exact well.contiguous first between last id (there.trans sub)
  · intro first here second there
    exact well.fixed first (sub.subset here) second (sub.subset there)
  · intro report here connection inside other there
    exact well.connected report (sub.subset here) connection inside other (sub.subset there)

theorem SyncConnection.mem_ids (inside : connection ∈ report.connections) :
    connection.id ∈ report.ids := List.mem_map_of_mem inside

/-! ## The reference -/

theorem appeared_append (reports : List Report) (report : Report) :
    appeared (reports ++ [report]) = report.connections.foldl addAppeared (appeared reports) := by
  simp [appeared, List.flatMap_append, List.foldl_append]

theorem mem_addAppeared {other : SyncConnection} (member : other ∈ addAppeared known connection) :
    other ∈ known ∨ other = connection ∧ connection.provenKey.isSome = true := by
  unfold addAppeared at member
  split at member
  · rename_i new
    obtain before | last := List.mem_append.mp member
    · exact .inl before
    · exact .inr ⟨List.mem_singleton.mp last, new.1⟩
  · exact .inl member

theorem subset_addAppeared : known ⊆ addAppeared known connection := by
  unfold addAppeared
  split
  · exact List.subset_append_left ..
  · exact List.Subset.refl _

theorem subset_foldl_addAppeared (connections : List SyncConnection) :
    known ⊆ connections.foldl addAppeared known := by
  induction connections generalizing known with
  | nil => exact List.Subset.refl _
  | cons first rest induction => exact List.Subset.trans subset_addAppeared induction

theorem mem_foldl_addAppeared {connections : List SyncConnection} {other : SyncConnection}
    (member : other ∈ connections.foldl addAppeared known) :
    other ∈ known ∨ other ∈ connections ∧ other.provenKey.isSome = true := by
  induction connections generalizing known with
  | nil => exact .inl member
  | cons first rest induction =>
      obtain before | ⟨later, proven⟩ := induction member
      · obtain before | ⟨rfl, proven⟩ := mem_addAppeared before
        · exact .inl before
        · exact .inr ⟨List.mem_cons_self, proven⟩
      · exact .inr ⟨List.mem_cons_of_mem _ later, proven⟩

theorem nodup_foldl_addAppeared {connections : List SyncConnection}
    (distinct : (known.map SyncConnection.id).Nodup) :
    ((connections.foldl addAppeared known).map SyncConnection.id).Nodup := by
  induction connections generalizing known with
  | nil => exact distinct
  | cons first rest induction =>
      apply induction
      unfold addAppeared
      split
      · rename_i new
        rw [List.map_append]
        refine List.nodup_append.mpr ⟨distinct, by simp, ?_⟩
        intro id before last here same
        rw [List.map_singleton, List.mem_singleton] at here
        rw [same, here] at before
        exact new.2 before
      · exact distinct

theorem appeared_of_proven {connections : List SyncConnection}
    (inside : connection ∈ connections) (proven : connection.provenKey.isSome = true) :
    connection.id ∈ (connections.foldl addAppeared known).map SyncConnection.id := by
  induction connections generalizing known with
  | nil => cases inside
  | cons first rest induction =>
      obtain rfl | later := List.mem_cons.mp inside
      · apply List.map_subset _ (subset_foldl_addAppeared rest)
        unfold addAppeared
        split
        · simp
        · rename_i old
          by_contra absent
          exact old ⟨proven, absent⟩
      · exact induction later

theorem mem_appeared (member : connection ∈ appeared reports) :
    connection.provenKey.isSome = true ∧
      ∃ report ∈ reports, connection ∈ report.connections := by
  obtain nothing | ⟨inside, proven⟩ := mem_foldl_addAppeared member
  · cases nothing
  · exact ⟨proven, List.mem_flatMap.mp inside⟩

/-- Each connection that was reported with a proven key appeared once. -/
theorem appeared_ids : ((appeared reports).map SyncConnection.id).Nodup ∧
    ∀ id, id ∈ (appeared reports).map SyncConnection.id ↔
      ∃ report ∈ reports, ∃ connection ∈ report.connections,
        connection.id = id ∧ connection.provenKey.isSome = true := by
  refine ⟨nodup_foldl_addAppeared List.nodup_nil, ?_⟩
  intro id
  constructor
  · intro member
    obtain ⟨connection, inside, rfl⟩ := List.mem_map.mp member
    obtain ⟨proven, report, there, here⟩ := mem_appeared inside
    exact ⟨report, there, connection, here, rfl, proven⟩
  · rintro ⟨report, there, connection, here, rfl, proven⟩
    exact appeared_of_proven (List.mem_flatMap.mpr ⟨report, there, here⟩) proven

theorem Report.lacks_iff : report.lacks id = true ↔ id ∉ report.ids := decide_eq_true_iff

/-- A connection that left was reported before it was not. -/
theorem leftAt_eq_some {time : Int} (left : leftAt reports id = some time) :
    ∃ first second, [first, second].Sublist reports ∧ id ∈ first.ids ∧ id ∉ second.ids ∧
      second.time = time := by
  obtain ⟨second, found, rfl⟩ := Option.map_eq_some_iff.mp left
  have gone : id ∉ second.ids := by simpa [Report.lacks] using List.find?_some found
  have inside := List.mem_of_find?_eq_some found
  have suffix := @List.dropWhile_suffix _ reports (·.lacks id)
  cases rest : reports.dropWhile (·.lacks id) with
  | nil =>
      rw [rest] at inside
      cases inside
  | cons first later =>
      have head := List.head?_dropWhile_not (·.lacks id) reports
      rw [rest] at inside suffix head
      have present : id ∈ first.ids := by
        simpa [Report.lacks] using head
      have different : second ≠ first := fun same => gone (same ▸ present)
      have sub : [second].Sublist later :=
        List.singleton_sublist.mpr ((List.mem_cons.mp inside).resolve_left different)
      exact ⟨first, second, (sub.cons_cons first).trans suffix.sublist, present, gone, rfl⟩

/-- The next report, for a connection that was reported before. -/
theorem leftAt_append_seen (seen : ∃ earlier ∈ reports, id ∈ earlier.ids) :
    leftAt (reports ++ [report]) id =
      (leftAt reports id).or (if id ∈ report.ids then none else some report.time) := by
  obtain ⟨earlier, inside, present⟩ := seen
  have someLeft : (reports.dropWhile (·.lacks id)).isEmpty = false := by
    rw [List.isEmpty_eq_false_iff]
    intro noneLeft
    exact Report.lacks_iff.mp (List.dropWhile_eq_nil_iff.mp noneLeft earlier inside) present
  rw [leftAt, List.dropWhile_append, someLeft, if_neg (by simp), List.find?_append, leftAt]
  cases (reports.dropWhile (·.lacks id)).find? (·.lacks id) with
  | some found => rfl
  | none => by_cases here : id ∈ report.ids <;> simp [Report.lacks, here]

/-- A connection that was not reported before has not left by the next report. -/
theorem leftAt_append_new (unseen : ∀ earlier ∈ reports, id ∉ earlier.ids) :
    leftAt (reports ++ [report]) id = none := by
  have noneLeft : reports.dropWhile (·.lacks id) = [] :=
    List.dropWhile_eq_nil_iff.mpr fun earlier inside => Report.lacks_iff.mpr (unseen earlier inside)
  rw [leftAt, List.dropWhile_append, noneLeft, if_pos List.isEmpty_nil]
  by_cases here : id ∈ report.ids <;> simp [Report.lacks, here]

theorem leftAt_unseen (unseen : ∀ earlier ∈ reports, id ∉ earlier.ids) :
    leftAt reports id = none := by
  have noneLeft : reports.dropWhile (·.lacks id) = [] :=
    List.dropWhile_eq_nil_iff.mpr fun earlier inside => Report.lacks_iff.mpr (unseen earlier inside)
  rw [leftAt, noneLeft]
  rfl

/-- A connection that is reported again never left. -/
theorem leftAt_of_reported (well : WellReported (reports ++ [report])) (here : id ∈ report.ids) :
    leftAt reports id = none := by
  cases left : leftAt reports id with
  | none => rfl
  | some time =>
      obtain ⟨first, second, sub, present, gone, -⟩ := leftAt_eq_some left
      have three : [first, second, report].Sublist (reports ++ [report]) :=
        sub.append (List.Sublist.refl [report])
      exact absurd (well.contiguous first second report id three present here) gone

/-! ## What the recorder keeps -/

def spanFor (openedAt : Int) (left : JsString → Option Int) (connection : SyncConnection) : Span :=
  ⟨connection.id, max connection.connectedAt openedAt, left connection.id⟩

/-- The devices are the keys of the connections, with their spans in order, and the live ones
those that have not left. -/
structure Tracks (openedAt : Int) (known : List SyncConnection) (left : JsString → Option Int)
    (tracked : Tracked) : Prop where
  opened : tracked.openedAt = openedAt
  keys : ∀ key, key ∈ tracked.devices.keys ↔
    ∃ connection ∈ known, connection.provenKey = some key
  spans : ∀ key device, tracked.devices.get? key = some device →
    device.spans =
      (known.filter fun connection => connection.provenKey = some key).map (spanFor openedAt left)
  live : ∀ id, id ∈ tracked.live ↔
    ∃ connection ∈ known, connection.id = id ∧ left connection.id = none

variable {left after : JsString → Option Int}

theorem Tracks.of_eq (tracks : Tracks openedAt known left tracked)
    (same : ∀ connection ∈ known, left connection.id = after connection.id) :
    Tracks openedAt known after tracked := by
  refine ⟨tracks.opened, tracks.keys, ?_, ?_⟩
  · intro key device found
    rw [tracks.spans key device found]
    apply List.map_congr_left
    intro connection inside
    rw [spanFor, spanFor, same connection (List.mem_of_mem_filter inside)]
  · intro id
    rw [tracks.live]
    constructor
    · rintro ⟨connection, inside, is, stillOpen⟩
      exact ⟨connection, inside, is, (same connection inside).symm.trans stillOpen⟩
    · rintro ⟨connection, inside, is, stillOpen⟩
      exact ⟨connection, inside, is, (same connection inside).trans stillOpen⟩

/-- The spans of a device, which has none before its first connection. -/
theorem Tracks.spansOf (tracks : Tracks openedAt known left tracked) (key : JsString) :
    ((tracked.devices.get? key).getD ⟨none, []⟩).spans =
      (known.filter fun connection => connection.provenKey = some key).map (spanFor openedAt left) := by
  cases found : tracked.devices.get? key with
  | some device => exact tracks.spans key device found
  | none =>
      have absent : key ∉ tracked.devices.keys := by
        rw [OrderedMap.mem_keys, found]
        simp
      have nobody : (known.filter fun connection => connection.provenKey = some key) = [] := by
        apply List.filter_eq_nil_iff.mpr
        intro connection inside proven
        exact absent ((tracks.keys key).mpr ⟨connection, inside, of_decide_eq_true proven⟩)
      rw [nobody]
      rfl

theorem get?_set (map : OrderedMap JsString Device) (key other : JsString) (device : Device) :
    (map.set key device).get? other = if other = key then some device else map.get? other := by
  split
  · rename_i same
    subst same
    exact OrderedMap.get?_eq_some_iff.mpr (OrderedMap.mem_entries_set.mpr (.inl rfl))
  · rename_i different
    exact OrderedMap.get?_set_other different

theorem mem_keys_set (map : OrderedMap JsString Device) (key other : JsString) (device : Device) :
    other ∈ (map.set key device).keys ↔ other = key ∨ other ∈ map.keys := by
  rw [OrderedMap.mem_keys, OrderedMap.mem_keys, get?_set]
  split
  · rename_i same
    simp [same]
  · rename_i different
    simp [different]

/-- A connection that is reported joins its device, once. -/
theorem Tracks.joinDevice (tracks : Tracks openedAt known left tracked)
    (fixed : ∀ other ∈ known, other.id = connection.id → other.deviceKey = connection.deviceKey)
    (here : left connection.id = none) :
    Tracks openedAt (addAppeared known connection) left (joinDevice tracked connection) := by
  unfold Sessions.joinDevice
  split
  · rename_i unproven
    rw [addAppeared, if_neg (by simp [unproven])]
    exact tracks
  · rename_i key proven
    have same : ∀ other ∈ known, other.id = connection.id → other.provenKey = some key := by
      intro other inside is
      rw [← proven, SyncConnection.provenKey, SyncConnection.provenKey, fixed other inside is]
    by_cases old : connection.id ∈ known.map SyncConnection.id
    · obtain ⟨other, inside, is⟩ := List.mem_map.mp old
      have live : connection.id ∈ tracked.live :=
        (tracks.live connection.id).mpr ⟨other, inside, is, is ▸ here⟩
      have known' := (tracks.keys key).mpr ⟨other, inside, same other inside is⟩
      rw [addAppeared, if_neg (fun new => new.2 old), if_pos live]
      refine ⟨tracks.opened, ?_, ?_, tracks.live⟩
      · intro name
        rw [mem_keys_set, ← tracks.keys]
        constructor
        · rintro (rfl | before)
          · exact known'
          · exact before
        · exact .inr
      · intro name device found
        rw [get?_set] at found
        split at found
        · rename_i it
          subst it
          cases found
          exact tracks.spansOf name
        · exact tracks.spans name device found
    · have unlisted : connection.id ∉ tracked.live := by
        intro live
        obtain ⟨other, inside, is, -⟩ := (tracks.live connection.id).mp live
        exact old (List.mem_map.mpr ⟨other, inside, is⟩)
      rw [addAppeared, if_pos ⟨by simp [proven], old⟩, if_neg unlisted]
      refine ⟨tracks.opened, ?_, ?_, ?_⟩
      · intro name
        rw [mem_keys_set, tracks.keys]
        constructor
        · rintro (rfl | ⟨other, inside, is⟩)
          · exact ⟨connection, by simp, proven⟩
          · exact ⟨other, List.mem_append_left _ inside, is⟩
        · rintro ⟨other, inside, is⟩
          obtain before | last := List.mem_append.mp inside
          · exact .inr ⟨other, before, is⟩
          · rw [List.mem_singleton.mp last, proven, Option.some.injEq] at is
            exact .inl is.symm
      · intro name device found
        rw [get?_set] at found
        split at found
        · rename_i it
          subst it
          cases found
          dsimp only
          rw [tracks.spansOf name, List.filter_append, List.map_append]
          simp [proven, spanFor, here, tracks.opened]
        · rename_i other
          rw [tracks.spans name device found, List.filter_append, List.map_append]
          have different : ¬ key = name := fun same => other same.symm
          simp [proven, different]
      · intro id
        rw [List.mem_append, tracks.live, List.mem_singleton]
        constructor
        · rintro (⟨other, inside, is⟩ | rfl)
          · exact ⟨other, List.mem_append_left _ inside, is⟩
          · exact ⟨connection, by simp, rfl, here⟩
        · rintro ⟨other, inside, is, stillOpen⟩
          obtain before | last := List.mem_append.mp inside
          · exact .inl ⟨other, before, is, stillOpen⟩
          · rw [List.mem_singleton.mp last] at is
            exact .inr is.symm

theorem Tracks.joinAll {connections : List SyncConnection}
    (tracks : Tracks openedAt known left tracked)
    (fixed : ∀ connection ∈ connections, ∀ other, other ∈ known ∨ other ∈ connections →
      other.id = connection.id → other.deviceKey = connection.deviceKey)
    (here : ∀ connection ∈ connections, left connection.id = none) :
    Tracks openedAt (connections.foldl addAppeared known) left
      (connections.foldl Sessions.joinDevice tracked) := by
  induction connections generalizing known tracked with
  | nil => exact tracks
  | cons first rest induction =>
      have joined := tracks.joinDevice
        (fun other inside => fixed first List.mem_cons_self other (.inl inside))
        (here first List.mem_cons_self)
      refine induction joined ?_ fun connection inside =>
        here connection (List.mem_cons_of_mem _ inside)
      intro connection inside other there
      apply fixed connection (List.mem_cons_of_mem _ inside)
      obtain before | later := there
      · obtain before | ⟨rfl, -⟩ := mem_addAppeared before
        · exact .inl before
        · exact .inr List.mem_cons_self
      · exact .inr (List.mem_cons_of_mem _ later)

theorem get?_mapValues (map : OrderedMap JsString Device) (change : Device → Device)
    (key : JsString) : (map.mapValues change).get? key = (map.get? key).map change := by
  simp only [OrderedMap.get?, OrderedMap.mapValues, List.find?_map, Option.map_map]
  rfl

theorem keys_mapValues (map : OrderedMap JsString Device) (change : Device → Device) :
    (map.mapValues change).keys = map.keys := by
  simp [OrderedMap.keys, OrderedMap.mapValues, Function.comp_def]

theorem endedSpan {time : Int} (span : Span) (ends : Prop) [Decidable ends] :
    (if ends then { span with leftAt := some time } else span) =
      { span with leftAt := if ends then some time else span.leftAt } := by
  split <;> rfl

/-- A connection that is gone ends the span it has not left. -/
theorem Tracks.endSpan (tracks : Tracks openedAt known left tracked) (time : Int) (id : JsString) :
    Tracks openedAt known
      (fun other => if other = id ∧ left other = none then some time else left other)
      (endSpan time tracked id) := by
  refine ⟨tracks.opened, ?_, ?_, ?_⟩
  · intro key
    rw [Sessions.endSpan, keys_mapValues]
    exact tracks.keys key
  · intro key device found
    rw [Sessions.endSpan, get?_mapValues] at found
    obtain ⟨before, held, rfl⟩ := Option.map_eq_some_iff.mp found
    dsimp only
    rw [tracks.spans key before held, List.map_map]
    apply List.map_congr_left
    intro connection _
    exact endedSpan (spanFor openedAt left connection) _
  · intro other
    simp only [Sessions.endSpan, List.mem_filter, tracks.live, decide_eq_true_eq]
    constructor
    · rintro ⟨⟨connection, inside, rfl, stillOpen⟩, different⟩
      exact ⟨connection, inside, rfl, by rw [if_neg fun both => different both.1, stillOpen]⟩
    · rintro ⟨connection, inside, rfl, stillOpen⟩
      split at stillOpen
      · cases stillOpen
      · rename_i kept
        exact ⟨⟨connection, inside, rfl, stillOpen⟩, fun same => kept ⟨same, stillOpen⟩⟩

theorem Tracks.endAll (tracks : Tracks openedAt known left tracked) (time : Int)
    (ids : List JsString) :
    Tracks openedAt known
      (fun other => if other ∈ ids ∧ left other = none then some time else left other)
      (ids.foldl (Sessions.endSpan time) tracked) := by
  induction ids generalizing left tracked with
  | nil => exact tracks.of_eq fun connection _ => by simp
  | cons first rest induction =>
      refine (induction (tracks.endSpan time first)).of_eq fun connection _ => ?_
      grind

/-- The recorder agrees with the reports since the session was opened. -/
def Agrees (reports : List Report) (tracked : Tracked) : Prop :=
  Tracks tracked.openedAt (appeared reports) (leftAt reports) tracked

theorem track_openedAt (tracked : Tracked) (now : Int) (connections : List SyncConnection) :
    (track tracked now connections).openedAt = tracked.openedAt :=
  congrArg (·.2.1) (track_name tracked now connections)

/-- One report more. -/
theorem Agrees.track (agrees : Agrees reports tracked)
    (well : WellReported (reports ++ [report])) :
    Agrees (reports ++ [report]) (track tracked report.time report.connections) := by
  have inReports : ∀ {earlier}, earlier ∈ reports → earlier ∈ reports ++ [report] :=
    List.mem_append_left _
  have last : report ∈ reports ++ [report] := by simp
  have joined : Tracks tracked.openedAt (appeared (reports ++ [report])) (leftAt reports)
      (report.connections.foldl joinDevice tracked) := by
    rw [appeared_append]
    apply Tracks.joinAll agrees
    · rintro connection inside other (before | here) same
      · obtain ⟨-, earlier, there, within⟩ := mem_appeared before
        exact well.fixed earlier (inReports there) report last other within connection inside same
      · exact well.fixed report last report last other here connection inside same
    · intro connection inside
      exact leftAt_of_reported well (SyncConnection.mem_ids inside)
  rw [Agrees, track_openedAt]
  refine (joined.endAll report.time _).of_eq fun connection inside => ?_
  have present : connection.id ∈ (report.connections.filter fun each =>
      each.provenKey.isSome).map SyncConnection.id ↔ connection.id ∈ report.ids := by
    obtain ⟨proven, earlier, there, within⟩ := mem_appeared inside
    constructor
    · intro listed
      obtain ⟨other, here, same⟩ := List.mem_map.mp listed
      exact List.mem_map.mpr ⟨other, List.mem_of_mem_filter here, same⟩
    · intro listed
      obtain ⟨other, here, same⟩ := List.mem_map.mp listed
      have key := well.fixed report last earlier there other here connection within same
      refine List.mem_map.mpr ⟨other, List.mem_filter.mpr ⟨here, ?_⟩, same⟩
      simpa [SyncConnection.provenKey, key] using proven
  have live : connection.id ∈ (report.connections.foldl joinDevice tracked).live ↔
      leftAt reports connection.id = none := by
    rw [joined.live]
    constructor
    · rintro ⟨other, -, same, stillOpen⟩
      exact same ▸ stillOpen
    · exact fun stillOpen => ⟨connection, inside, rfl, stillOpen⟩
  simp only [List.mem_filter, live, decide_eq_true_iff, present]
  by_cases seen : ∃ earlier ∈ reports, connection.id ∈ earlier.ids
  · rw [leftAt_append_seen seen]
    cases left : leftAt reports connection.id with
    | some time => simp
    | none => by_cases here : connection.id ∈ report.ids <;> simp [here]
  · have unseen : ∀ earlier ∈ reports, connection.id ∉ earlier.ids :=
      fun earlier inside there => seen ⟨earlier, inside, there⟩
    have here : connection.id ∈ report.ids := by
      obtain ⟨-, earlier, there, within⟩ := mem_appeared inside
      obtain before | new := List.mem_append.mp there
      · exact absurd (SyncConnection.mem_ids within) (unseen earlier before)
      · rw [List.mem_singleton.mp new] at within
        exact SyncConnection.mem_ids within
    rw [leftAt_append_new unseen, leftAt_unseen unseen]
    simp [here]

end Tapes.Sessions
