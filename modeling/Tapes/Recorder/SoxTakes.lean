import Mathlib.Data.List.Nodup
import Tapes.Recorder.SoxRecorder

namespace Tapes.Recorder.Sox

open Tapes.Js Tapes.Machine

/-! The desktop recorder loses no take where one take at a time is in the slot. -/

variable {desk next : Desk}

structure Sound (desk : Desk) : Prop where
  fresh : ∀ sox process, desk.processes sox = some process →
    sox < desk.nextCall ∧ .start sox ∉ desk.inbox
  queued : ∀ message ∈ desk.inbox, message.call < desk.nextCall
  distinct : (desk.inbox.map Message.call).Nodup
  spawning : ∀ sox process, desk.processes sox = some process →
    process.status = .spawning → ∃ start ∈ desk.starts, start.sox = sox
  starting : ∀ start ∈ desk.starts,
    desk.processes start.sox = some ⟨.spawning, start.filepath, none, start.sessionId⟩
  started : ∀ sox process, desk.processes sox = some process →
    (process.startedAt.isSome = true ↔ process.status = .running ∨ process.status = .closed)
  slot : ∀ sox, desk.recorder.sox = some sox → ∃ process, desk.processes sox = some process ∧
    process.status = .running ∧
    desk.recorder = ⟨some process.filepath, process.startedAt, process.sessionId, some sox⟩
  stopping : ∀ stop ∈ desk.stops, ∃ process, desk.processes stop.sox = some process ∧
    process.status = .running ∧ Interrupted desk.signals stop process
  alone : (desk.stops.map StopCall.sox).Nodup
  returned : ∀ stop ∈ desk.returned, ∃ process, desk.processes stop.sox = some process ∧
    process.status = .closed ∧ Interrupted desk.signals stop process
  once : (desk.returned.map StopCall.sox).Nodup
  held : ∀ sox process, desk.processes sox = some process → process.startedAt.isSome = true →
    (∃ stop ∈ desk.returned, stop.sox = sox) ∨
      process.status = .running ∧ (desk.recorder.sox = some sox ∨ desk.BeingStopped sox)
  owned : ∀ sox, desk.recorder.sox = some sox →
    desk.BeingStopped sox ∨ desk.isRecording = true ∨ desk.StopComing

theorem sound_new : Sound Desk.new where
  fresh := fun _ _ found => nomatch found
  queued := by simp [Desk.new]
  distinct := List.nodup_nil
  spawning := fun _ _ found => nomatch found
  starting := by simp [Desk.new]
  started := fun _ _ found => nomatch found
  slot := fun _ found => nomatch found
  stopping := by simp [Desk.new]
  alone := List.nodup_nil
  returned := by simp [Desk.new]
  once := List.nodup_nil
  held := fun _ _ found => nomatch found
  owned := fun _ found => nomatch found

/-- With the button off and no call going on every process has ended. -/
theorem Sound.keepsTakes (sound : Sound desk) : KeepsTakes desk where
  stoppable := sound.held
  own := by
    intro stop member
    obtain ⟨process, found, _, own⟩ := sound.returned stop member
    exact ⟨process, found, own⟩
  once := sound.once
  quiet := by
    intro off empty noStarts noStops sox process found
    have idle : ¬ desk.BeingStopped sox := by
      rintro ⟨stop, member, _⟩
      rw [noStops] at member
      cases member
    cases status : process.status with
    | failed => exact .inl rfl
    | closed => exact .inr rfl
    | spawning =>
        obtain ⟨start, member, _⟩ := sound.spawning sox process found status
        rw [noStarts] at member
        cases member
    | running =>
        have isSome := (sound.started sox process found).mpr (.inl status)
        rcases sound.held sox process found isSome with ⟨stop, member, same⟩ | ⟨_, inSlot | stopping⟩
        · obtain ⟨other, foundToo, closed, _⟩ := sound.returned stop member
          rw [same, found] at foundToo
          cases foundToo
          rw [status] at closed
          cases closed
        · rcases sound.owned sox inSlot with stopping | on | ⟨call, coming⟩
          · exact absurd stopping idle
          · rw [off] at on
            cases on
          · rw [empty] at coming
            cases coming
        · exact absurd stopping idle

/-! ## The page -/

theorem sound_press (sound : Sound desk) (taken : desk.press = some next) : Sound next := by
  have newCall : ∀ message ∈ desk.inbox, message.call ≠ desk.nextCall := by
    intro message member same
    have below := sound.queued message member
    omega
  have stays : ∀ message : Message, message.call = desk.nextCall →
      (∀ sox process, desk.processes sox = some process → sox < desk.nextCall + 1 ∧
        .start sox ∉ desk.inbox ++ [message]) ∧
      (∀ other ∈ desk.inbox ++ [message], other.call < desk.nextCall + 1) ∧
      ((desk.inbox ++ [message]).map Message.call).Nodup := by
    intro message named
    refine ⟨?_, ?_, ?_⟩
    · intro sox process found
      obtain ⟨below, absent⟩ := sound.fresh sox process found
      refine ⟨by omega, ?_⟩
      rw [List.mem_append, List.mem_singleton]
      rintro (inside | same)
      · exact absent inside
      · rw [← same] at named
        have same' : sox = desk.nextCall := named
        omega
    · intro other member
      cases List.mem_append.mp member with
      | inl inside =>
          have below := sound.queued other inside
          omega
      | inr last =>
          rw [List.mem_singleton.mp last, named]
          omega
    · rw [List.map_append, List.nodup_append]
      refine ⟨sound.distinct, List.nodup_singleton _, ?_⟩
      intro call member other single
      obtain ⟨queued, inside, rfl⟩ := List.mem_map.mp member
      have same : other = message.call := List.mem_singleton.mp single
      rw [same, named]
      exact newCall queued inside
  unfold Desk.press at taken
  split at taken
  · cases taken
  · split at taken
    · cases taken
      obtain ⟨fresh, queued, distinct⟩ := stays (.stop desk.nextCall) rfl
      exact { sound with
        fresh := fresh
        queued := queued
        distinct := distinct
        owned := fun _ _ => .inr (.inr ⟨desk.nextCall, by simp⟩) }
    · cases taken
      obtain ⟨fresh, queued, distinct⟩ := stays (.start desk.nextCall) rfl
      exact { sound with
        fresh := fresh
        queued := queued
        distinct := distinct
        owned := fun _ _ => .inr (.inl rfl) }

theorem sound_answered {call : Nat} {answer : Answer} (sound : Sound desk)
    (guard : OneAtATime desk (.answered call answer)) (taken : desk.answered call answer = some next) :
    Sound next := by
  unfold Desk.answered at taken
  split at taken
  · cases answer with
    | started success =>
        cases success with
        | true =>
            cases taken
            exact { sound with }
        | false =>
            cases taken
            refine { sound with owned := ?_ }
            intro sox inSlot
            rcases guard with free | coming
            · exact .inl (free sox inSlot)
            · exact .inr (.inr coming)
    | stopped take =>
        cases take with
        | none =>
            cases taken
            exact { sound with }
        | some take =>
            cases taken
            exact { sound with }
  · cases taken

/-! ## Requests arrive -/

theorem Interrupted.more {signals : List (Nat × Signal)} {stop : StopCall} {process : SoxProcess}
    (own : Interrupted signals stop process) (later : List (Nat × Signal)) :
    Interrupted (signals ++ later) stop process :=
  { own with signalled := List.mem_append_left _ own.signalled }

theorem Sound.tail (sound : Sound desk) {message : Message} {rest : List Message}
    (arrives : desk.inbox = message :: rest) :
    (∀ sox process, desk.processes sox = some process → sox < desk.nextCall ∧ .start sox ∉ rest) ∧
      (∀ other ∈ rest, other.call < desk.nextCall) ∧
      message.call ∉ rest.map Message.call ∧ (rest.map Message.call).Nodup := by
  have distinct := sound.distinct
  rw [arrives, List.map_cons, List.nodup_cons] at distinct
  refine ⟨?_, ?_, distinct.1, distinct.2⟩
  · intro sox process found
    obtain ⟨below, absent⟩ := sound.fresh sox process found
    rw [arrives] at absent
    exact ⟨below, fun inside => absent (List.mem_cons_of_mem _ inside)⟩
  · intro other member
    exact sound.queued other (arrives ▸ List.mem_cons_of_mem _ member)

/-- A start's process is new, so nothing that is known of the others changes. -/
theorem sound_deliver_start (sound : Sound desk) {call : Nat} {rest : List Message}
    (arrives : desk.inbox = .start call :: rest) (filepath : JsString) (sessionId : Option JsString) :
    Sound { desk with
      inbox := rest
      starts := desk.starts ++ [⟨call, filepath, sessionId⟩]
      processes := desk.processes.put call ⟨.spawning, filepath, none, sessionId⟩ } := by
  obtain ⟨fresh, queued, absent, distinct⟩ := sound.tail arrives
  have unknown : desk.processes call = none := by
    cases found : desk.processes call with
    | none => rfl
    | some process =>
        have notComing := (sound.fresh call process found).2
        rw [arrives] at notComing
        exact absurd List.mem_cons_self notComing
  have kept : ∀ {sox process}, desk.processes sox = some process →
      desk.processes.put call ⟨.spawning, filepath, none, sessionId⟩ sox = some process := by
    intro sox process found
    rw [Table.put_other, found]
    intro same
    rw [same, unknown] at found
    cases found
  constructor
  · intro sox process found
    rcases Table.put_cases found with ⟨same, _⟩ | ⟨_, found⟩
    · rw [same]
      refine ⟨sound.queued (.start call) (arrives ▸ List.mem_cons_self), ?_⟩
      exact fun inside => absent (List.mem_map_of_mem inside)
    · exact fresh sox process found
  · exact queued
  · exact distinct
  · intro sox process found status
    rcases Table.put_cases found with ⟨same, _⟩ | ⟨_, found⟩
    · exact ⟨_, List.mem_append_right _ (List.mem_singleton_self _), same.symm⟩
    · obtain ⟨start, member, same⟩ := sound.spawning sox process found status
      exact ⟨start, List.mem_append_left _ member, same⟩
  · intro start member
    cases List.mem_append.mp member with
    | inl inside => exact kept (sound.starting start inside)
    | inr last =>
        rw [List.mem_singleton.mp last]
        exact Table.put_self
  · intro sox process found
    rcases Table.put_cases found with ⟨_, same⟩ | ⟨_, found⟩
    · rw [← same]
      simp
    · exact sound.started sox process found
  · intro sox inSlot
    obtain ⟨process, found, others⟩ := sound.slot sox inSlot
    exact ⟨process, kept found, others⟩
  · intro stop member
    obtain ⟨process, found, others⟩ := sound.stopping stop member
    exact ⟨process, kept found, others⟩
  · exact sound.alone
  · intro stop member
    obtain ⟨process, found, others⟩ := sound.returned stop member
    exact ⟨process, kept found, others⟩
  · exact sound.once
  · intro sox process found isSome
    rcases Table.put_cases found with ⟨_, same⟩ | ⟨_, found⟩
    · rw [← same] at isSome
      cases isSome
    · exact sound.held sox process found isSome
  · intro sox inSlot
    rcases sound.owned sox inSlot with stopping | on | ⟨other, coming⟩
    · exact .inl stopping
    · exact .inr (.inl on)
    · rw [arrives, List.mem_cons] at coming
      exact .inr (.inr ⟨other, coming.resolve_left (by simp)⟩)

theorem sound_deliver_stop (sound : Sound desk) {call sox : Nat} {rest : List Message}
    (arrives : desk.inbox = .stop call :: rest) (inSlot : desk.recorder.sox = some sox)
    (alone : ¬ desk.BeingStopped sox) {filepath startedAt : JsString}
    (isPath : desk.recorder.filepath = some filepath)
    (isStart : desk.recorder.startedAt = some startedAt) (now : JsString) :
    Sound { desk with
      inbox := rest
      stops := desk.stops ++ [⟨call, sox, ⟨filepath, startedAt, now, desk.recorder.sessionId⟩⟩]
      signals := desk.signals ++ [(sox, .interrupt)] } := by
  obtain ⟨fresh, queued, _, distinct⟩ := sound.tail arrives
  obtain ⟨process, found, running, fields⟩ := sound.slot sox inSlot
  rw [fields] at isPath isStart
  constructor
  · exact fresh
  · exact queued
  · exact distinct
  · exact sound.spawning
  · exact sound.starting
  · exact sound.started
  · exact sound.slot
  · intro stop member
    cases List.mem_append.mp member with
    | inl inside =>
        obtain ⟨other, found, running, own⟩ := sound.stopping stop inside
        exact ⟨other, found, running, own.more _⟩
    | inr last =>
        rw [List.mem_singleton.mp last]
        refine ⟨process, found, running, (Option.some.inj isPath).symm, isStart, ?_, by simp⟩
        rw [fields]
  · rw [List.map_append, List.nodup_append]
    refine ⟨sound.alone, List.nodup_singleton _, ?_⟩
    intro other member last single same
    obtain ⟨stop, inside, isOther⟩ := List.mem_map.mp member
    have isLast : last = sox := List.mem_singleton.mp single
    exact alone ⟨stop, inside, isOther.trans (same.trans isLast)⟩
  · intro stop member
    obtain ⟨other, found, closed, own⟩ := sound.returned stop member
    exact ⟨other, found, closed, own.more _⟩
  · exact sound.once
  · intro other process found isSome
    refine (sound.held other process found isSome).imp_right fun ⟨running, place⟩ => ⟨running, ?_⟩
    exact place.imp_right fun ⟨stop, member, same⟩ => ⟨stop, List.mem_append_left _ member, same⟩
  · intro other isOther
    have same : other = sox := Option.some.inj (isOther.symm.trans inSlot)
    exact .inl ⟨_, List.mem_append_right _ (List.mem_singleton_self _), same.symm⟩

/-- A stop that finds nothing in the slot. -/
theorem sound_deliver_stop_empty (sound : Sound desk) {call : Nat} {rest : List Message}
    (arrives : desk.inbox = .stop call :: rest) (empty : desk.recorder.sox = none)
    (answers : List (Nat × Answer)) : Sound { desk with inbox := rest, answers := answers } := by
  obtain ⟨fresh, queued, _, distinct⟩ := sound.tail arrives
  refine { sound with fresh := fresh, queued := queued, distinct := distinct, owned := ?_ }
  intro sox inSlot
  rw [empty] at inSlot
  cases inSlot

theorem sound_deliver {filepath : JsString} {sessionId : Option JsString} {now : JsString}
    (sound : Sound desk) (guard : OneAtATime desk (.deliver filepath sessionId now))
    (taken : desk.deliver filepath sessionId now = some next) : Sound next := by
  unfold Desk.deliver at taken
  split at taken
  · cases taken
  · rename_i call rest arrives
    cases taken
    exact sound_deliver_start sound arrives filepath sessionId
  · rename_i call rest arrives
    split at taken
    · rename_i sox path startedAt inSlot isPath isStart
      cases taken
      exact sound_deliver_stop sound arrives inSlot (guard ⟨call, rest, arrives⟩ sox inSlot) isPath
        isStart now
    · rename_i missing
      cases taken
      apply sound_deliver_stop_empty sound arrives
      -- a process in the slot comes with all the other fields
      cases inSlot : desk.recorder.sox with
      | none => rfl
      | some sox =>
          obtain ⟨process, found, running, fields⟩ := sound.slot sox inSlot
          obtain ⟨startedAt, isStart⟩ := Option.isSome_iff_exists.mp
            ((sound.started sox process found).mpr (.inl running))
          have known := missing sox process.filepath startedAt inSlot
          rw [fields] at known
          exact absurd isStart (known rfl)

/-! ## Processes come and go -/

theorem sound_spawned {sox : Nat} {now : JsString} (sound : Sound desk)
    (guard : OneAtATime desk (.spawned sox now)) (taken : desk.spawned sox now = some next) :
    Sound next := by
  obtain ⟨free, wanted⟩ := guard
  unfold Desk.spawned at taken
  split at taken
  · cases taken
  · rename_i start isStart
    cases taken
    have member := List.mem_of_find?_eq_some isStart
    have named : start.sox = sox := by simpa using List.find?_some isStart
    have old := named ▸ sound.starting start member
    have kept : ∀ {other process}, desk.processes other = some process →
        process.status ≠ .spawning →
        desk.processes.put sox ⟨.running, start.filepath, some now, start.sessionId⟩ other =
          some process := by
      intro other process found status
      rw [Table.put_other, found]
      intro same
      rw [same, old] at found
      cases found
      exact status rfl
    constructor
    · intro other process found
      rcases Table.put_cases found with ⟨same, _⟩ | ⟨_, found⟩
      · exact same ▸ sound.fresh sox _ old
      · exact sound.fresh other process found
    · exact sound.queued
    · exact sound.distinct
    · intro other process found status
      rcases Table.put_cases found with ⟨_, same⟩ | ⟨different, found⟩
      · rw [← same] at status
        cases status
      · obtain ⟨first, inside, same⟩ := sound.spawning other process found status
        exact ⟨first, List.mem_filter.mpr ⟨inside, by simpa [same] using different⟩, same⟩
    · intro first inside
      obtain ⟨inside, different⟩ := List.mem_filter.mp inside
      dsimp only
      rw [Table.put_other (by simpa using different)]
      exact sound.starting first inside
    · intro other process found
      rcases Table.put_cases found with ⟨_, same⟩ | ⟨_, found⟩
      · rw [← same]
        simp
      · exact sound.started other process found
    · intro other inSlot
      cases inSlot
      exact ⟨_, Table.put_self, rfl, rfl⟩
    · intro stop inside
      obtain ⟨process, found, running, own⟩ := sound.stopping stop inside
      exact ⟨process, kept found (by rw [running]; decide), running, own⟩
    · exact sound.alone
    · intro stop inside
      obtain ⟨process, found, closed, own⟩ := sound.returned stop inside
      exact ⟨process, kept found (by rw [closed]; decide), closed, own⟩
    · exact sound.once
    · intro other process found isSome
      rcases Table.put_cases found with ⟨same, isNew⟩ | ⟨_, found⟩
      · exact .inr ⟨by rw [← isNew], .inl (by rw [same])⟩
      · refine (sound.held other process found isSome).imp_right fun ⟨running, place⟩ => ⟨running, ?_⟩
        exact .inr (place.elim (free other) id)
    · exact fun _ _ => .inr wanted

theorem sound_spawnFailed {sox : Nat} (sound : Sound desk)
    (taken : desk.spawnFailed sox = some next) : Sound next := by
  unfold Desk.spawnFailed at taken
  split at taken
  · cases taken
  · rename_i start isStart
    cases taken
    have member := List.mem_of_find?_eq_some isStart
    have named : start.sox = sox := by simpa using List.find?_some isStart
    have old := named ▸ sound.starting start member
    have kept : ∀ {other process}, desk.processes other = some process →
        process.status ≠ .spawning →
        desk.processes.put sox ⟨.failed, start.filepath, none, start.sessionId⟩ other =
          some process := by
      intro other process found status
      rw [Table.put_other, found]
      intro same
      rw [same, old] at found
      cases found
      exact status rfl
    refine { sound with
      fresh := ?_, spawning := ?_, starting := ?_, started := ?_, slot := ?_, stopping := ?_,
      returned := ?_, held := ?_ }
    · intro other process found
      rcases Table.put_cases found with ⟨same, _⟩ | ⟨_, found⟩
      · exact same ▸ sound.fresh sox _ old
      · exact sound.fresh other process found
    · intro other process found status
      rcases Table.put_cases found with ⟨_, same⟩ | ⟨different, found⟩
      · rw [← same] at status
        cases status
      · obtain ⟨first, inside, same⟩ := sound.spawning other process found status
        exact ⟨first, List.mem_filter.mpr ⟨inside, by simpa [same] using different⟩, same⟩
    · intro first inside
      obtain ⟨inside, different⟩ := List.mem_filter.mp inside
      dsimp only
      rw [Table.put_other (by simpa using different)]
      exact sound.starting first inside
    · intro other process found
      rcases Table.put_cases found with ⟨_, same⟩ | ⟨_, found⟩
      · rw [← same]
        simp
      · exact sound.started other process found
    · intro other inSlot
      obtain ⟨process, found, running, fields⟩ := sound.slot other inSlot
      exact ⟨process, kept found (by rw [running]; decide), running, fields⟩
    · intro stop inside
      obtain ⟨process, found, running, own⟩ := sound.stopping stop inside
      exact ⟨process, kept found (by rw [running]; decide), running, own⟩
    · intro stop inside
      obtain ⟨process, found, closed, own⟩ := sound.returned stop inside
      exact ⟨process, kept found (by rw [closed]; decide), closed, own⟩
    · intro other process found isSome
      rcases Table.put_cases found with ⟨_, isNew⟩ | ⟨_, found⟩
      · rw [← isNew] at isSome
        cases isSome
      · exact sound.held other process found isSome

/-- The stops that waited for the process return its take, and no other process is left in the slot
that no stop has reached. -/
theorem sound_closed {sox : Nat} (sound : Sound desk) (guard : OneAtATime desk (.closed sox))
    (taken : desk.closed sox = some next) : Sound next := by
  obtain ⟨⟨waiting, waits, named⟩, alone⟩ := guard
  unfold Desk.closed at taken
  split at taken
  · cases taken
  · rename_i process isProcess
    split at taken
    · cases taken
    · rename_i isRunning
      have running : process.status = .running := not_not.mp isRunning
      have resumes : waiting ∈ desk.stops.filter (·.sox = sox) :=
        List.mem_filter.mpr ⟨waits, by simpa using named⟩
      have notEmpty : desk.stops.filter (·.sox = sox) ≠ [] := List.ne_nil_of_mem resumes
      simp only [notEmpty, if_false] at taken
      cases taken
      have kept : ∀ {other found}, desk.processes other = some found → other ≠ sox →
          desk.processes.put sox { process with status := .closed } other = some found := by
        intro other found isOther different
        rw [Table.put_other different, isOther]
      refine { sound with
        fresh := ?_, spawning := ?_, starting := ?_, started := ?_, slot := ?_, stopping := ?_,
        alone := ?_, returned := ?_, once := ?_, held := ?_, owned := ?_ }
      · intro other found isFound
        rcases Table.put_cases isFound with ⟨same, _⟩ | ⟨_, isFound⟩
        · exact same ▸ sound.fresh sox process isProcess
        · exact sound.fresh other found isFound
      · intro other found isFound status
        rcases Table.put_cases isFound with ⟨_, isNew⟩ | ⟨_, isFound⟩
        · rw [← isNew] at status
          cases status
        · exact sound.spawning other found isFound status
      · intro start member
        have old := sound.starting start member
        refine kept old ?_
        intro same
        rw [same, isProcess] at old
        cases old
        cases running
      · intro other found isFound
        rcases Table.put_cases isFound with ⟨_, isNew⟩ | ⟨_, isFound⟩
        · rw [← isNew]
          simpa using (sound.started sox process isProcess).mpr (.inl running)
        · exact sound.started other found isFound
      · intro other inSlot
        cases inSlot
      · intro stop member
        obtain ⟨inside, different⟩ := List.mem_filter.mp member
        obtain ⟨found, isFound, others⟩ := sound.stopping stop inside
        exact ⟨found, kept isFound (by simpa using different), others⟩
      · exact sound.alone.sublist (List.filter_sublist.map _)
      · intro stop member
        cases List.mem_append.mp member with
        | inl inside =>
            obtain ⟨found, isFound, closed, own⟩ := sound.returned stop inside
            refine ⟨found, kept isFound ?_, closed, own⟩
            intro same
            rw [same, isProcess] at isFound
            cases isFound
            rw [running] at closed
            cases closed
        | inr resumed =>
            obtain ⟨inside, isStop⟩ := List.mem_filter.mp resumed
            have same : stop.sox = sox := by simpa using isStop
            obtain ⟨found, isFound, _, own⟩ := sound.stopping stop inside
            rw [same, isProcess] at isFound
            cases isFound
            refine ⟨{ process with status := .closed }, ?_, rfl, { own with }⟩
            rw [same]
            exact Table.put_self
      · rw [List.map_append, List.nodup_append]
        refine ⟨sound.once, sound.alone.sublist (List.filter_sublist.map _), ?_⟩
        intro first member second resumed same
        obtain ⟨stop, inside, isFirst⟩ := List.mem_map.mp member
        obtain ⟨other, inside', isSecond⟩ := List.mem_map.mp resumed
        have isStop : other.sox = sox := by simpa using (List.mem_filter.mp inside').2
        obtain ⟨found, isFound, closed, _⟩ := sound.returned stop inside
        rw [isFirst, same, ← isSecond, isStop, isProcess] at isFound
        cases isFound
        rw [running] at closed
        cases closed
      · intro other found isFound isSome
        rcases Table.put_cases isFound with ⟨same, _⟩ | ⟨different, isFound⟩
        · exact .inl ⟨waiting, List.mem_append_right _ resumes, named.trans same.symm⟩
        · rcases sound.held other found isFound isSome with ⟨stop, member, same⟩ | ⟨runs, place⟩
          · exact .inl ⟨stop, List.mem_append_left _ member, same⟩
          · have reached : desk.BeingStopped other := place.elim
              (fun inSlot => (alone other inSlot).resolve_left different) id
            obtain ⟨stop, member, same⟩ := reached
            refine .inr ⟨runs, .inr ⟨stop, List.mem_filter.mpr ⟨member, ?_⟩, same⟩⟩
            simpa [same] using different
      · intro other inSlot
        cases inSlot

theorem sound_giveUp {stop : StopCall} (sound : Sound desk)
    (taken : step desk (.giveUp stop) = some next) : Sound next := by
  simp only [step] at taken
  split at taken
  · cases taken
    refine { sound with stopping := ?_, returned := ?_ }
    · intro other member
      obtain ⟨process, found, running, own⟩ := sound.stopping other member
      exact ⟨process, found, running, own.more _⟩
    · intro other member
      obtain ⟨process, found, closed, own⟩ := sound.returned other member
      exact ⟨process, found, closed, own.more _⟩
  · cases taken

/-! ## Runs -/

theorem sound_step {action : Action} (sound : Sound desk) (guard : OneAtATime desk action)
    (taken : step desk action = some next) : Sound next := by
  cases action with
  | press => exact sound_press sound taken
  | deliver filepath sessionId now => exact sound_deliver sound guard taken
  | spawned sox now => exact sound_spawned sound guard taken
  | spawnFailed sox => exact sound_spawnFailed sound taken
  | closed sox => exact sound_closed sound guard taken
  | giveUp stop => exact sound_giveUp sound taken
  | answered call answer => exact sound_answered sound guard taken
  | closeEditor =>
      cases taken
      exact { sound with }

/-- Where every step leaves one take at a time in the slot, the recorder loses none. -/
theorem one_take_at_a_time_keeps_takes (desk : Desk)
    (reached : Reaches step OneAtATime .new desk) : KeepsTakes desk :=
  (reached.invariant Sound sound_new fun _ sound met taken => sound_step sound met taken).keepsTakes

/-- A take that is stopped before the next is started is returned with the fields of its process. -/
theorem a_take_is_returned : ∃ desk, Reaches step OneAtATime .new desk ∧ KeepsTakes desk ∧
    desk.returned = [⟨1, 0, ⟨js "a.wav", js "10:00", js "10:05", some (js "s")⟩⟩] := by
  have along : MeetsAlong step OneAtATime .new
      [.press, .deliver (js "a.wav") (some (js "s")) [], .spawned 0 (js "10:00"),
        .answered 0 (.started true), .press, .deliver [] none (js "10:05"), .closed 0] := by
    refine .cons trivial rfl (.cons ?_ rfl (.cons ?_ rfl (.cons trivial rfl (.cons trivial rfl
      (.cons ?_ rfl (.cons ?_ rfl trivial))))))
    · rintro ⟨call, rest, arrives⟩
      cases arrives
    · refine ⟨?_, .inl rfl⟩
      intro sox inSlot
      cases inSlot
    · intro _ sox _ ⟨stop, member, _⟩
      cases member
    · refine ⟨⟨_, List.mem_cons_self, rfl⟩, ?_⟩
      intro other inSlot
      cases inSlot
      exact .inl rfl
  have reached : Reaches step OneAtATime .new _ := .of_run rfl along
  exact ⟨_, reached, one_take_at_a_time_keeps_takes _ reached, rfl⟩

/-- The next take is in the slot when the stop of the last one clears it. -/
theorem the_next_take_cannot_be_stopped :
    ¬ ∀ desk, Reaches step anyAction .new desk → KeepsTakes desk := by
  obtain ⟨desk, ran, found, returned, empty, stops⟩ : ∃ desk,
      run step .new [.press, .deliver (js "a.wav") none [], .spawned 0 (js "10:00"), .press,
        .deliver [] none (js "10:05"), .press, .deliver (js "b.wav") none [],
        .spawned 2 (js "10:06"), .closed 0] = some desk ∧
      desk.processes 2 = some ⟨.running, js "b.wav", some (js "10:06"), none⟩ ∧
      desk.returned.map StopCall.sox = [0] ∧ desk.recorder.sox = none ∧ desk.stops = [] :=
    ⟨_, rfl, rfl, rfl, rfl, rfl⟩
  intro keeps
  have kept := keeps desk (.of_run ran (meetsAlong_anyAction _ _))
  rcases kept.stoppable 2 _ found rfl with ⟨stop, member, same⟩ | ⟨_, inSlot | ⟨stop, member, _⟩⟩
  · have named := List.mem_map_of_mem (f := StopCall.sox) member
    rw [returned, same] at named
    cases List.mem_singleton.mp named
  · rw [empty] at inSlot
    cases inSlot
  · rw [stops] at member
    cases member

end Tapes.Recorder.Sox
