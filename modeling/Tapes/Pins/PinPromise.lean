import Tapes.Machine.Run
import Tapes.Pins.PinContext

namespace Tapes.Pins

open Tapes.Js Tapes.Machine
open Tapes.Recorder (BlobDescriptor)

/-! A pin keeps its promise: the bytes of every recording in the map are in the cache, unless an
`unpin` evicts what another pin holds. -/

/-! ## The property -/

/-- Whenever no call is in progress, the cache has the audio of every recording in the map, and
every statement that its pin fetched. -/
def KeepsItsPromise (state : State) : Prop :=
  state.calls = .empty → ∀ url record, state.pins.get? url = some record →
    record.hash ∈ state.cache ∧ ∀ hash ∈ state.fetched url, hash ∈ state.cache

/-- The hashes that the pins in the map have promised. -/
def State.promised (state : State) : List Hash :=
  state.pins.entries.flatMap fun pin => pin.2.hash :: state.fetched pin.1

/-- The hashes that a pin in progress counts on already. -/
def Call.cached : Call → List Hash
  | .keeping _ descriptor kept => descriptor.hash :: fetchedOf kept
  | .fetching _ _ _ | .caching _ _ _ | .evicting _ _ _ _ => []

def State.held (state : State) : List Hash :=
  state.promised ++ state.calls.entries.flatMap fun call => call.2.cached

/-- An eviction takes nothing that a pin in the map or in progress holds, and no put that left the
cache without the bytes counts as one that stored them. -/
def SparesHeld (appContext : AppContextType) (state : State) : Action → Prop
  | .evicted call outcome =>
      match state.calls.get? call with
      | some (.evicting _ _ hash _) =>
          appContext = .webClient → outcome ≠ .threw false → hash ∉ state.held
      | _ => True
  | .cachedBlob call outcome _ =>
      match state.calls.get? call with
      | some (.caching _ descriptor _) =>
          outcome.resolves appContext → outcome.writes ∨ descriptor.hash ∈ state.cache
      | _ => True
  | .cachedStatement _ hash outcome => outcome.writes ∨ hash ∈ state.cache
  | .render | .pin _ _ _ _ _ | .fetchedBlob _ _ | .fetchedStatement _ _ _ | .enter _ _
  | .unpin _ _ _ => True

instance (appContext : AppContextType) (state : State) (action : Action) :
    Decidable (SparesHeld appContext state action) := by
  unfold SparesHeld
  split
  · split <;> infer_instance
  · split <;> infer_instance
  all_goals infer_instance

/-! ## What the steps hold -/

variable {appContext : AppContextType} {state next : State} {call : CallId} {running : Call}
  {url : RecordingUrl} {descriptor : BlobDescriptor} {kept : OrderedMap Hash Keeping} {hash : Hash}
  {keeping : Keeping}

theorem mem_promised : hash ∈ state.promised ↔
    ∃ url record, (url, record) ∈ state.pins.entries ∧
      (hash = record.hash ∨ hash ∈ state.fetched url) := by
  simp [State.promised]

theorem mem_held : hash ∈ state.held ↔ hash ∈ state.promised ∨
    ∃ call running, (call, running) ∈ state.calls.entries ∧ hash ∈ running.cached := by
  simp [State.held]

theorem mem_fetchedOf : hash ∈ fetchedOf kept ↔ (hash, .settled true) ∈ kept.entries := by
  constructor
  · intro member
    obtain ⟨⟨other, keeping⟩, found, rfl⟩ := List.mem_map.mp member
    obtain ⟨entry, fetched⟩ := List.mem_filter.mp found
    cases keeping with
    | settled got =>
        cases fetched
        exact entry
    | fetching => cases fetched
    | caching => cases fetched
  · intro entry
    have found : (hash, .settled true) ∈ kept.entries.filter (·.2.isFetched) :=
      List.mem_filter.mpr ⟨entry, rfl⟩
    exact List.mem_map_of_mem found

theorem fetchedOf_set {other : Hash} (member : other ∈ fetchedOf (kept.set hash keeping)) :
    other = hash ∧ keeping = .settled true ∨ other ∈ fetchedOf kept := by
  obtain same | ⟨_, older⟩ := OrderedMap.mem_entries_set.mp (mem_fetchedOf.mp member)
  · obtain ⟨rfl, rfl⟩ := Prod.mk.inj same
    exact .inl ⟨rfl, rfl⟩
  · exact .inr (mem_fetchedOf.mpr older)

/-- Every statement of a pin is fetched first. -/
theorem fetchedOf_keepStatements (appContext : AppContextType) (statements : List Hash) :
    fetchedOf (keepStatements appContext statements) = [] := by
  rw [List.eq_nil_iff_forall_not_mem]
  intro hash member
  have listed := OrderedMap.mem_of_mem_ofList (mem_fetchedOf.mp member)
  obtain ⟨_, _, same⟩ := List.mem_map.mp listed
  have never := (Prod.mk.inj same).2
  split at never <;> cases never

def Sound (state : State) : Prop := ∀ hash ∈ state.held, hash ∈ state.cache

theorem Sound.of_held (sound : Sound state) (held : ∀ hash ∈ next.held, hash ∈ state.held)
    (cache : state.cache ⊆ next.cache) : Sound next :=
  fun hash member => cache (sound hash (held hash member))

theorem Sound.park (sound : Sound state) (cached : ∀ hash ∈ running.cached, hash ∈ state.cache) :
    Sound (state.park call running) := by
  intro hash member
  obtain promised | ⟨other, found, entry, inside⟩ := mem_held.mp member
  · exact sound hash (mem_held.mpr (.inl promised))
  · obtain same | ⟨_, older⟩ := OrderedMap.mem_entries_set.mp entry
    · cases same
      exact cached hash inside
    · exact sound hash (mem_held.mpr (.inr ⟨other, found, older, inside⟩))

theorem Sound.finish (sound : Sound state) : Sound (state.finish call) := by
  refine sound.of_held ?_ (Finset.Subset.refl _)
  intro hash member
  obtain promised | ⟨other, found, entry, inside⟩ := mem_held.mp member
  · exact mem_held.mpr (.inl promised)
  · have older := (OrderedMap.mem_entries_delete.mp entry).2
    exact mem_held.mpr (.inr ⟨other, found, older, inside⟩)

/-- What a pin in progress counts on is in the cache. -/
theorem Sound.cached (sound : Sound state) (inProgress : state.calls.get? call = some running) :
    ∀ hash ∈ running.cached, hash ∈ state.cache := by
  intro hash member
  have entry := OrderedMap.get?_eq_some_iff.mp inProgress
  exact sound hash (mem_held.mpr (.inr ⟨call, running, entry, member⟩))

theorem cache_subset_write (state : State) (hash : Hash) (outcome : PutOutcome) :
    state.cache ⊆ (state.write hash outcome).cache := by
  unfold State.write
  split
  · exact Finset.subset_insert hash state.cache
  · exact Finset.Subset.refl _

theorem mem_cache_write {outcome : PutOutcome}
    (stored : outcome.writes = true ∨ hash ∈ state.cache) :
    hash ∈ (state.write hash outcome).cache := by
  obtain writes | already := stored
  · rw [State.write, if_pos writes]
    exact Finset.mem_insert_self hash state.cache
  · exact cache_subset_write state hash outcome already

theorem Sound.write (sound : Sound state) (hash : Hash) (outcome : PutOutcome) :
    Sound (state.write hash outcome) := by
  have held : (state.write hash outcome).held = state.held := by
    unfold State.write
    split <;> rfl
  exact sound.of_held (by simp [held]) (cache_subset_write state hash outcome)

theorem Sound.evict (sound : Sound state)
    (spared : appContext = .webClient → hash ∉ state.held) :
    Sound (evictCachedBlob appContext state hash) := by
  cases appContext with
  | electronClient => exact sound
  | webClient =>
      intro other member
      have different : other ≠ hash := by
        rintro rfl
        exact spared rfl member
      exact Finset.mem_erase.mpr ⟨different, sound other member⟩

theorem Sound.evictNext {record : PinRecord} {stillHeld : List Hash} (sound : Sound state)
    (hashes : List Hash) : Sound (evictNext state call record stillHeld hashes) := by
  induction hashes with
  | nil =>
      unfold Pins.evictNext
      split
      · exact sound.finish
      · have forgotten : Sound (forgetCacheEntry state record.hash) := sound
        exact forgotten.finish
  | cons hash rest induction =>
      unfold Pins.evictNext
      split
      · exact induction
      · exact sound.park (by simp [Call.cached])

theorem Sound.release (sound : Sound state) (url : RecordingUrl) :
    Sound { state with pins := state.pins.delete url } := by
  refine sound.of_held ?_ (Finset.Subset.refl _)
  intro hash member
  obtain promised | inProgress := mem_held.mp member
  · obtain ⟨other, record, entry, either⟩ := mem_promised.mp promised
    have older := (OrderedMap.mem_entries_delete.mp entry).2
    exact mem_held.mpr (.inl (mem_promised.mpr ⟨other, record, older, either⟩))
  · exact mem_held.mpr (.inr inProgress)

theorem Sound.unpin (sound : Sound state) (pins : PinMap) :
    Sound (unpin state call pins url) := by
  have released := sound.release url
  simp only [Pins.unpin]
  split
  · exact released
  · exact released.evictNext _

/-- The new pin promises what its call has counted on so far. -/
theorem Sound.enterPin (sound : Sound state) (now : Int)
    (inProgress : state.calls.get? call = some (.keeping url descriptor kept)) :
    Sound (enterPin state url descriptor kept now) := by
  have own := sound.cached inProgress
  intro hash member
  obtain promised | others := mem_held.mp member
  · obtain ⟨other, record, entry, either⟩ := mem_promised.mp promised
    obtain same | ⟨different, older⟩ := OrderedMap.mem_entries_set.mp entry
    · cases same
      apply own
      obtain audio | fetched := either
      · exact List.mem_cons.mpr (.inl audio)
      · have now_fetched : hash ∈ fetchedOf kept := by
          simpa only [Pins.enterPin, Function.update_self] using fetched
        exact List.mem_cons_of_mem _ now_fetched
    · have before : hash = record.hash ∨ hash ∈ state.fetched other := by
        simpa only [Pins.enterPin, Function.update_of_ne different] using either
      exact sound hash (mem_held.mpr (.inl (mem_promised.mpr ⟨other, record, older, before⟩)))
  · exact sound hash (mem_held.mpr (.inr others))

theorem Sound.cachedBlob {statements : List Hash} {outcome : PutOutcome} {now : Int}
    (sound : Sound state)
    (met : outcome.resolves appContext → outcome.writes ∨ descriptor.hash ∈ state.cache) :
    Sound (cachedBlob appContext state call url descriptor statements outcome now) := by
  have written := sound.write descriptor.hash outcome
  simp only [Pins.cachedBlob]
  split
  · rename_i resolves
    have recorded : Sound (recordCacheHit (state.write descriptor.hash outcome) descriptor now) :=
      written
    refine recorded.park ?_
    intro hash member
    rw [Call.cached, fetchedOf_keepStatements, List.mem_singleton] at member
    rw [member]
    exact mem_cache_write (met resolves)
  · exact written.finish

theorem Sound.settle {settled : State} (sound : Sound state) (later : Sound settled)
    (inProgress : state.calls.get? call = some (.keeping url descriptor kept))
    (grown : state.cache ⊆ settled.cache)
    (stored : keeping = .settled true → hash ∈ settled.cache) :
    Sound (settled.park call (.keeping url descriptor (kept.set hash keeping))) := by
  have own := sound.cached inProgress
  refine later.park ?_
  intro other member
  obtain audio | fetched := List.mem_cons.mp member
  · exact grown (own other (List.mem_cons.mpr (.inl audio)))
  · obtain ⟨rfl, now_fetched⟩ | before := fetchedOf_set fetched
    · exact stored now_fetched
    · exact grown (own other (List.mem_cons_of_mem _ before))

theorem Sound.evicted {outcome : EvictOutcome} (sound : Sound state)
    (met : SparesHeld appContext state (.evicted call outcome))
    (taken : step appContext state (.evicted call outcome) = some next) : Sound next := by
  simp only [step] at taken
  split at taken
  · rename_i record stillHeld hash rest inProgress
    cases taken
    simp only [SparesHeld, inProgress] at met
    have spared : Sound (evictCachedBlob appContext state hash) :=
      sound.evict fun web => met web (by simp)
    exact spared.evictNext rest
  · rename_i record stillHeld hash rest removed inProgress
    simp only [SparesHeld, inProgress] at met
    split at taken
    · cases taken
    · cases taken
      split
      · rename_i gone
        have spared : Sound (evictCachedBlob .webClient state hash) :=
          sound.evict fun web => met web (by simp [gone])
        exact spared.finish
      · exact sound.finish
  · cases taken

theorem step_sound {action : Action} (sound : Sound state)
    (met : SparesHeld appContext state action)
    (taken : step appContext state action = some next) : Sound next := by
  cases action with
  | render =>
      cases taken
      exact sound
  | pin call endpoints url descriptor statements =>
      simp only [step] at taken
      split at taken
      · cases taken
      · split at taken
        · cases taken
          exact sound
        · cases taken
          exact sound.park (by simp [Call.cached])
  | fetchedBlob call found =>
      simp only [step] at taken
      split at taken
      · cases taken
        split
        · exact sound.park (by simp [Call.cached])
        · exact sound.finish
      · cases taken
  | cachedBlob call outcome now =>
      simp only [step] at taken
      split at taken
      · rename_i url descriptor statements inProgress
        cases taken
        simp only [SparesHeld, inProgress] at met
        exact sound.cachedBlob met
      · cases taken
  | fetchedStatement call hash found =>
      simp only [step] at taken
      split at taken
      · rename_i url descriptor kept inProgress
        split at taken
        · cases taken
          refine sound.settle sound inProgress (Finset.Subset.refl _) ?_
          split <;> simp
        · cases taken
      · cases taken
  | cachedStatement call hash outcome =>
      simp only [step] at taken
      split at taken
      · rename_i url descriptor kept inProgress
        split at taken
        · cases taken
          exact sound.settle (sound.write hash outcome) inProgress
            (cache_subset_write state hash outcome) fun _ => mem_cache_write met
        · cases taken
      · cases taken
  | enter call now =>
      simp only [step] at taken
      split at taken
      · rename_i url descriptor kept inProgress
        split at taken
        · cases taken
          exact (sound.enterPin now inProgress).finish
        · cases taken
      · cases taken
  | unpin call render url =>
      simp only [step] at taken
      split at taken
      · cases taken
      · obtain ⟨pins, _, rfl⟩ := Option.map_eq_some_iff.mp taken
        exact sound.unpin pins
  | evicted call outcome => exact sound.evicted met taken

/-! ## Every run -/

theorem Sound.keepsItsPromise (sound : Sound state) : KeepsItsPromise state := by
  intro _ url record pinned
  have entry := OrderedMap.get?_eq_some_iff.mp pinned
  have promised (hash : Hash) (either : hash = record.hash ∨ hash ∈ state.fetched url) :
      hash ∈ state.cache :=
    sound hash (mem_held.mpr (.inl (mem_promised.mpr ⟨url, record, entry, either⟩)))
  exact ⟨promised record.hash (.inl rfl), fun hash fetched => promised hash (.inr fetched)⟩

theorem sound_opened {pins : PinMap} {fetched : RecordingUrl → List Hash} {cache : Finset Hash}
    {index : OrderedMap Hash CacheEntry}
    (promise : KeepsItsPromise (.opened pins fetched cache index)) :
    Sound (.opened pins fetched cache index) := by
  intro hash member
  obtain promised | ⟨_, _, entry, _⟩ := mem_held.mp member
  · obtain ⟨url, record, entry, either⟩ := mem_promised.mp promised
    obtain ⟨audio, statements⟩ := promise rfl url record (OrderedMap.get?_eq_some_iff.mpr entry)
    obtain rfl | fetched := either
    · exact audio
    · exact statements hash fetched
  · cases entry

theorem pins_keep_their_promise (appContext : AppContextType) (pins : PinMap)
    (fetched : RecordingUrl → List Hash) (cache : Finset Hash)
    (index : OrderedMap Hash CacheEntry)
    (promise : KeepsItsPromise (.opened pins fetched cache index)) (state : State)
    (reached : Reaches (step appContext) (SparesHeld appContext)
      (.opened pins fetched cache index) state) :
    KeepsItsPromise state := by
  have sound := reached.invariant Sound (sound_opened promise)
    fun _ sound met taken => step_sound sound met taken
  exact sound.keepsItsPromise

/-! Samples: one recording is pinned with a session record, which a second recording lists too. -/

def sharedRecord : Hash := [2]

def onePinned : State :=
  .opened (OrderedMap.empty.set [10] ⟨[1], 4, 0, some [sharedRecord]⟩)
    (Function.update (fun _ => []) [10] [sharedRecord]) {[1], sharedRecord} .empty

theorem onePinned_keeps : KeepsItsPromise onePinned := by
  have sound : ∀ hash ∈ onePinned.held, hash ∈ onePinned.cache := by decide
  exact Sound.keepsItsPromise sound

/-- The second recording is pinned, and then the first is not any more. -/
def pinThenUnpin : List Action :=
  [.pin 0 [⟨[], none, none⟩] [20] ⟨[3], 4, [], []⟩ [sharedRecord], .fetchedBlob 0 true,
    .cachedBlob 0 .stored 5, .fetchedStatement 0 sharedRecord true,
    .cachedStatement 0 sharedRecord .stored, .enter 0 6, .render, .unpin 1 1 [10],
    .evicted 1 .done]

theorem second_pin_keeps_its_promise : ∃ state,
    Reaches (step .webClient) (SparesHeld .webClient) onePinned state ∧
      state.calls = .empty ∧ state.pins.keys = [[20]] ∧ KeepsItsPromise state := by
  have ran : ∃ state, run (guarded (SparesHeld .webClient) (step .webClient)) onePinned pinThenUnpin =
      some state ∧ state.calls = .empty ∧ state.pins.keys = [[20]] := ⟨_, rfl, rfl, rfl⟩
  obtain ⟨state, ran, idle, only⟩ := ran
  have reached := Reaches.of_guarded_run ran
  exact ⟨state, reached, idle, only,
    pins_keep_their_promise .webClient _ _ _ _ onePinned_keeps state reached⟩

/-- The second recording has the audio of the first, which is unpinned while the session record is
fetched for the second. -/
def unpinWhilePinning : List Action :=
  [.pin 0 [⟨[], none, none⟩] [20] ⟨[1], 4, [], []⟩ [sharedRecord], .fetchedBlob 0 true,
    .cachedBlob 0 .stored 5, .unpin 1 0 [10], .evicted 1 .done, .evicted 1 .done,
    .fetchedStatement 0 sharedRecord true, .cachedStatement 0 sharedRecord .stored, .enter 0 6]

theorem unpin_evicts_what_a_pin_has_cached : ∃ state,
    Reaches (step .webClient) anyAction onePinned state ∧ KeepsItsPromise onePinned ∧
      ¬ KeepsItsPromise state := by
  have ran : ∃ state, run (step .webClient) onePinned unpinWhilePinning = some state ∧
      state.calls = .empty ∧ state.pins.get? [20] = some ⟨[1], 4, 6, some [sharedRecord]⟩ ∧
        state.cache = {sharedRecord} := ⟨_, rfl, rfl, rfl, by decide⟩
  obtain ⟨state, ran, idle, pinned, cache⟩ := ran
  refine ⟨state, Reaches.of_run ran (meetsAlong_anyAction _ _), onePinned_keeps, ?_⟩
  intro promise
  have audio := (promise idle [20] _ pinned).1
  rw [cache] at audio
  revert audio
  decide

end Tapes.Pins
