import Mathlib.Data.List.Chain
import Tapes.Machine.Table

namespace Tapes.Machine

/-! A lock by key, kept as a chain of promises: a map holds the settled promise of the last
call that joined, each call runs once the one it found there has settled, and an entry is
dropped when its own call has settled and is still the last. -/

inductive Turn (ι : Type u) where
  | waiting (previous : Option ι)
  | running
  | settled
deriving DecidableEq

structure PromiseLock (κ : Type u) (ι : Type v) where
  latest : Table κ ι
  turns : Table ι (κ × Turn ι)

namespace PromiseLock

variable {κ : Type u} {ι : Type v}

def idle : PromiseLock κ ι := ⟨.empty, .empty⟩

def isSettled (lock : PromiseLock κ ι) (call : ι) : Bool :=
  match lock.turns call with
  | some (_, .settled) => true
  | _ => false

/-! ## The queue behind it -/

theorem isSettled_iff {lock : PromiseLock κ ι} {call : ι} :
    lock.isSettled call = true ↔ ∃ key, lock.turns call = some (key, .settled) := by
  unfold isSettled
  split
  · rename_i key found
    simp [found]
  · rename_i other
    simp only [Bool.false_eq_true, false_iff, not_exists]
    exact other

def pending (lock : PromiseLock κ ι) (key : κ) (call : ι) : Prop :=
  ∃ turn, lock.turns call = some (key, turn) ∧ turn ≠ .settled

/-- The calls for a key that have not settled, in the order in which they joined. The one at
the head has nothing left to wait for. -/
structure Queue (lock : PromiseLock κ ι) (key : κ) (items : List ι) : Prop where
  mem : ∀ call, call ∈ items ↔ lock.pending key call
  distinct : items.Nodup
  behind : items.IsChain fun first second =>
    lock.turns second = some (key, .waiting (some first))
  head : ∀ call previous, items.head? = some call →
    lock.turns call = some (key, .waiting previous) → previous.all lock.isSettled = true
  last : ∀ call, items.getLast? = some call → lock.latest key = some call
  named : ∀ call, lock.latest key = some call → ∃ turn, lock.turns call = some (key, turn)

theorem queue_idle (key : κ) : (idle : PromiseLock κ ι).Queue key [] where
  mem call := by simp [pending, idle, Table.empty]
  distinct := List.nodup_nil
  behind := .nil
  head call previous first := by cases first
  last call final := by cases final
  named call found := by cases found

/-- In a chain everything but the head has something before it. -/
theorem head_or_behind {related : ι → ι → Prop} {items : List ι} {item : ι}
    (chain : items.IsChain related) (member : item ∈ items) :
    items.head? = some item ∨ ∃ before ∈ items, related before item := by
  induction chain with
  | nil => cases member
  | singleton first => simp_all
  | cons_cons here chain induction =>
      rename_i first second rest
      obtain rfl | later := List.mem_cons.mp member
      · exact .inl rfl
      · right
        obtain front | ⟨before, inside, relates⟩ := induction later
        · simp only [List.head?_cons, Option.some.injEq] at front
          subst front
          exact ⟨first, List.mem_cons_self, here⟩
        · exact ⟨before, List.mem_cons_of_mem first inside, relates⟩

section

variable {lock : PromiseLock κ ι} {key : κ} {items : List ι} {call other : ι}
  {previous : Option ι}

theorem Queue.not_mem_of_settled (queue : lock.Queue key items)
    (settled : lock.isSettled call = true) : call ∉ items := by
  intro member
  obtain ⟨turn, found, unsettled⟩ := (queue.mem call).mp member
  obtain ⟨held, turned⟩ := isSettled_iff.mp settled
  rw [turned, Option.some.injEq, Prod.mk.injEq] at found
  exact unsettled found.2.symm

/-- The lock is exclusive: a call that runs is at the head of its queue. -/
theorem Queue.head_of_running (queue : lock.Queue key items)
    (running : lock.turns call = some (key, .running)) : items.head? = some call := by
  have member : call ∈ items := (queue.mem call).mpr ⟨_, running, by simp⟩
  obtain front | ⟨before, -, waits⟩ := head_or_behind queue.behind member
  · exact front
  · rw [running] at waits
    cases waits

theorem Queue.running_unique (queue : lock.Queue key items)
    (running : lock.turns call = some (key, .running))
    (also : lock.turns other = some (key, .running)) : call = other :=
  Option.some.inj ((queue.head_of_running running).symm.trans (queue.head_of_running also))

/-- A call is ready to run only at the head. -/
theorem Queue.head_of_ready (queue : lock.Queue key items)
    (waits : lock.turns call = some (key, .waiting previous))
    (ready : previous.all lock.isSettled = true) : items.head? = some call := by
  have member : call ∈ items := (queue.mem call).mpr ⟨_, waits, by simp⟩
  obtain front | ⟨before, inside, behind⟩ := head_or_behind queue.behind member
  · exact front
  · rw [waits, Option.some.injEq, Prod.mk.injEq, Turn.waiting.injEq] at behind
    rw [behind.2, Option.all_some] at ready
    exact absurd inside (queue.not_mem_of_settled ready)

end

/-! ## Steps -/

section

variable [DecidableEq ι]

def enter (lock : PromiseLock κ ι) (call : ι) : Option (PromiseLock κ ι) :=
  match lock.turns call with
  | some (key, .waiting previous) =>
      if previous.all lock.isSettled then
        some { lock with turns := lock.turns.put call (key, .running) }
      else none
  | _ => none

/-- The call is over, whether it resolved or rejected. -/
def settle (lock : PromiseLock κ ι) (call : ι) : Option (PromiseLock κ ι) :=
  match lock.turns call with
  | some (key, .running) => some { lock with turns := lock.turns.put call (key, .settled) }
  | _ => none

variable [DecidableEq κ]

def join (lock : PromiseLock κ ι) (call : ι) (key : κ) : Option (PromiseLock κ ι) :=
  if (lock.turns call).isNone then
    some ⟨lock.latest.put key call, lock.turns.put call (key, .waiting (lock.latest key))⟩
  else none

def clear (lock : PromiseLock κ ι) (call : ι) : Option (PromiseLock κ ι) :=
  match lock.turns call with
  | some (key, .settled) =>
      if lock.latest key = some call then some { lock with latest := lock.latest.remove key }
      else some lock
  | _ => none

end

section

variable {lock next : PromiseLock κ ι} {queue : κ → List ι} {key : κ} {call other : ι}
  {turn : Turn ι} [DecidableEq ι]

theorem enter_eq (entered : lock.enter call = some next) :
    ∃ key previous, lock.turns call = some (key, .waiting previous) ∧
      previous.all lock.isSettled = true ∧
      next = { lock with turns := lock.turns.put call (key, .running) } := by
  unfold enter at entered
  split at entered
  · rename_i key previous waits
    split at entered <;> cases entered
    rename_i ready
    exact ⟨key, previous, waits, ready, rfl⟩
  · cases entered

theorem settle_eq (settled : lock.settle call = some next) :
    ∃ key, lock.turns call = some (key, .running) ∧
      next = { lock with turns := lock.turns.put call (key, .settled) } := by
  unfold settle at settled
  split at settled <;> cases settled
  rename_i key running
  exact ⟨key, running, rfl⟩

variable [DecidableEq κ]

theorem join_eq (joined : lock.join call key = some next) :
    lock.turns call = none ∧
      next = ⟨lock.latest.put key call,
        lock.turns.put call (key, .waiting (lock.latest key))⟩ := by
  unfold join at joined
  split at joined <;> cases joined
  rename_i fresh
  exact ⟨Option.isNone_iff_eq_none.mp fresh, rfl⟩

theorem clear_eq (cleared : lock.clear call = some next) :
    ∃ key, lock.turns call = some (key, .settled) ∧
      (next = lock ∨
        lock.latest key = some call ∧ next = { lock with latest := lock.latest.remove key }) := by
  unfold clear at cleared
  split at cleared
  · rename_i key settled
    split at cleared <;> cases cleared
    · rename_i latest
      exact ⟨key, settled, .inr ⟨latest, rfl⟩⟩
    · exact ⟨key, settled, .inl rfl⟩
  · cases cleared

end

/-! ## What a step leaves of the queue -/

section

variable {lock next : PromiseLock κ ι} {key : κ} {items : List ι} {call other : ι}
  {turn : Turn ι} {latest : Table κ ι} [DecidableEq ι]

theorem isSettled_put (settled : lock.isSettled other = true)
    (kept : other = call → turn = .settled) :
    PromiseLock.isSettled ⟨latest, lock.turns.put call (key, turn)⟩ other = true := by
  obtain ⟨held, found⟩ := isSettled_iff.mp settled
  apply isSettled_iff.mpr
  by_cases same : other = call
  · cases same
    rw [kept rfl]
    exact ⟨key, Table.put_self⟩
  · exact ⟨held, (Table.put_other same).trans found⟩

theorem all_isSettled_put {previous : Option ι} (settled : previous.all lock.isSettled = true)
    (kept : previous = some call → turn = .settled) :
    previous.all (PromiseLock.isSettled ⟨latest, lock.turns.put call (key, turn)⟩) = true := by
  cases previous with
  | none => rfl
  | some before => exact isSettled_put settled fun same => kept (congrArg some same)

/-- A call of another key takes its turn. -/
theorem Queue.elsewhere (queue : lock.Queue key items) {there : κ} (different : key ≠ there)
    (outside : ∀ held turn, lock.turns call = some (held, turn) → held = there ∧ turn ≠ .settled)
    (same : latest key = lock.latest key) :
    PromiseLock.Queue ⟨latest, lock.turns.put call (there, turn)⟩ key items := by
  have absent : call ∉ items := by
    intro member
    obtain ⟨turn, found, -⟩ := (queue.mem call).mp member
    exact different (outside key turn found).1
  have others : ∀ {other}, other ∈ items → other ≠ call :=
    fun inside same => absent (same ▸ inside)
  refine ⟨?_, queue.distinct, ?_, ?_, ?_, ?_⟩
  · intro other
    rw [queue.mem]
    by_cases is : other = call
    · subst is
      constructor
      · intro held
        exact absurd ((queue.mem other).mpr held) absent
      · rintro ⟨turn, found, -⟩
        simp only [Table.put_self, Option.some.injEq, Prod.mk.injEq] at found
        exact absurd found.1.symm different
    · simp only [pending, Table.put_other is]
  · apply queue.behind.imp_of_mem_tail_imp
    intro first second _ inside waits
    exact (Table.put_other (others (List.mem_of_mem_tail inside))).trans waits
  · intro other previous front waits
    have inside : other ∈ items := List.mem_of_mem_head? front
    simp only [Table.put_other (others inside)] at waits
    apply all_isSettled_put (queue.head other previous front waits)
    rintro rfl
    have settled : lock.isSettled call = true := queue.head other _ front waits
    obtain ⟨held, turned⟩ := isSettled_iff.mp settled
    exact absurd rfl (outside held _ turned).2
  · intro other final
    exact same.trans (queue.last other final)
  · intro other found
    obtain ⟨held, named⟩ := queue.named other (same.symm.trans found)
    have distinct : other ≠ call := by
      rintro rfl
      exact different (outside key held named).1
    exact ⟨held, (Table.put_other distinct).trans named⟩

theorem Queue.enter (queue : lock.Queue key items)
    (entered : lock.enter call = some next) : next.Queue key items := by
  obtain ⟨there, previous, waits, ready, rfl⟩ := enter_eq entered
  have sole : ∀ held turn, lock.turns call = some (held, turn) → held = there ∧ turn ≠ .settled := by
    intro held turn found
    rw [waits, Option.some.injEq, Prod.mk.injEq] at found
    obtain ⟨rfl, rfl⟩ := found
    exact ⟨rfl, by simp⟩
  by_cases here : key = there
  · subst here
    have front := queue.head_of_ready waits ready
    refine ⟨?_, queue.distinct, ?_, ?_, queue.last, ?_⟩
    · intro other
      rw [queue.mem]
      by_cases is : other = call
      · subst is
        simp [pending, waits]
      · simp only [pending, Table.put_other is]
    · apply queue.behind.imp_of_mem_tail_imp
      intro first second _ inside behind
      have later : second ≠ call := by
        rintro rfl
        obtain ⟨rest, rfl⟩ := List.head?_eq_some_iff.mp front
        exact (List.nodup_cons.mp queue.distinct).1 inside
      exact (Table.put_other later).trans behind
    · intro other before first waiting
      rw [front] at first
      cases first
      simp only [Table.put_self] at waiting
      cases waiting
    · intro other found
      obtain ⟨held, found⟩ := queue.named other found
      by_cases is : other = call
      · subst is
        exact ⟨.running, Table.put_self⟩
      · exact ⟨held, (Table.put_other is).trans found⟩
  · exact queue.elsewhere here sole rfl

/-- Its own queue has lost its head. -/
theorem Queue.settle (queue : lock.Queue key items) (settled : lock.settle call = some next) :
    ∃ rest, next.Queue key rest := by
  obtain ⟨there, running, rfl⟩ := settle_eq settled
  have sole : ∀ held turn, lock.turns call = some (held, turn) → held = there ∧ turn ≠ .settled := by
    intro held turn found
    rw [running, Option.some.injEq, Prod.mk.injEq] at found
    obtain ⟨rfl, rfl⟩ := found
    exact ⟨rfl, by simp⟩
  by_cases here : key = there
  · subst here
    obtain ⟨rest, rfl⟩ := List.head?_eq_some_iff.mp (queue.head_of_running running)
    obtain ⟨absent, distinct⟩ := List.nodup_cons.mp queue.distinct
    have others : ∀ {other}, other ∈ rest → other ≠ call :=
      fun inside same => absent (same ▸ inside)
    refine ⟨rest, ?_, distinct, ?_, ?_, ?_, ?_⟩
    · intro other
      by_cases is : other = call
      · subst is
        simp [pending, absent]
      · have old := queue.mem other
        rw [List.mem_cons, or_iff_right is] at old
        rw [old]
        simp only [pending, Table.put_other is]
    · apply queue.behind.tail.imp_of_mem_imp
      intro first second _ inside behind
      exact (Table.put_other (others inside)).trans behind
    · intro other previous front waits
      obtain ⟨last, rfl⟩ := List.head?_eq_some_iff.mp front
      have behind := (List.isChain_cons_cons.mp queue.behind).1
      simp only [Table.put_other (others List.mem_cons_self), behind, Option.some.injEq,
        Prod.mk.injEq, Turn.waiting.injEq, true_and] at waits
      rw [← waits, Option.all_some]
      exact isSettled_iff.mpr ⟨key, Table.put_self⟩
    · intro other final
      apply queue.last other
      cases rest with
      | nil => cases final
      | cons first rest => exact final
    · intro other found
      obtain ⟨held, found⟩ := queue.named other found
      by_cases is : other = call
      · subst is
        exact ⟨.settled, Table.put_self⟩
      · exact ⟨held, (Table.put_other is).trans found⟩
  · exact ⟨items, queue.elsewhere here sole rfl⟩

variable [DecidableEq κ]

theorem Queue.join (queue : lock.Queue key items) {there : κ}
    (joined : lock.join call there = some next) : ∃ more, next.Queue key more := by
  obtain ⟨fresh, rfl⟩ := join_eq joined
  have absent : call ∉ items := by
    intro member
    obtain ⟨turn, found, -⟩ := (queue.mem call).mp member
    rw [fresh] at found
    cases found
  by_cases here : key = there
  · subst here
    refine ⟨items ++ [call], ?_, ?_, ?_, ?_, ?_, ?_⟩
    · intro other
      rw [List.mem_append, queue.mem, List.mem_singleton]
      by_cases is : other = call
      · subst is
        simp [pending]
      · simp only [is, or_false, pending, Table.put_other is]
    · refine List.nodup_append.mpr ⟨queue.distinct, by simp, ?_⟩
      intro other inside last final same
      rw [List.mem_singleton.mp final] at same
      exact absent (same ▸ inside)
    · refine List.isChain_append.mpr ⟨?_, .singleton call, ?_⟩
      · apply queue.behind.imp_of_mem_imp
        intro first second _ inside behind
        have different : second ≠ call := fun same => absent (same ▸ inside)
        exact (Table.put_other different).trans behind
      · intro before last other first
        cases first
        rw [queue.last before last]
        exact Table.put_self
    · intro other previous front waits
      cases items with
      | nil =>
          -- Whatever the map still names has settled.
          cases front
          simp only [Table.put_self, Option.some.injEq, Prod.mk.injEq, Turn.waiting.injEq,
            true_and] at waits
          subst waits
          cases latest : lock.latest key with
          | none => rfl
          | some before =>
              obtain ⟨turn, found⟩ := queue.named before latest
              have turned : turn = .settled := by
                by_contra unsettled
                exact List.not_mem_nil ((queue.mem before).mpr ⟨turn, found, unsettled⟩)
              subst turned
              apply isSettled_put (isSettled_iff.mpr ⟨key, found⟩)
              rintro rfl
              rw [fresh] at found
              cases found
      | cons first rest =>
          have different : other ≠ call := by
            rintro rfl
            exact absent (List.mem_of_mem_head? front)
          simp only [Table.put_other different] at waits
          apply all_isSettled_put (queue.head other previous front waits)
          rintro rfl
          have settled : lock.isSettled call = true := queue.head other _ front waits
          obtain ⟨held, turned⟩ := isSettled_iff.mp settled
          rw [fresh] at turned
          cases turned
    · intro other final
      rw [List.getLast?_concat, Option.some.injEq] at final
      rw [← final]
      exact Table.put_self
    · intro other found
      by_cases is : other = call
      · subst is
        exact ⟨_, Table.put_self⟩
      · simp only [Table.put_self, Option.some.injEq] at found
        exact absurd found.symm is
  · refine ⟨items, queue.elsewhere here ?_ (Table.put_other here)⟩
    intro held turn found
    rw [fresh] at found
    cases found

/-- An entry is dropped only when nobody waits behind it. -/
theorem Queue.clear (queue : lock.Queue key items) (cleared : lock.clear call = some next) :
    next.Queue key items := by
  obtain ⟨there, settled, rfl | ⟨latest, rfl⟩⟩ := clear_eq cleared
  · exact queue
  · refine ⟨queue.mem, queue.distinct, queue.behind, queue.head, ?_, ?_⟩
    · intro other final
      have found := queue.last other final
      by_cases here : key = there
      · subst here
        rw [latest, Option.some.injEq] at found
        subst found
        have turned := isSettled_iff.mpr ⟨key, settled⟩
        exact absurd (List.mem_of_getLast? final) (queue.not_mem_of_settled turned)
      · exact (Table.remove_other here).trans found
    · intro other found
      by_cases here : key = there
      · subst here
        simp only [Table.remove_self] at found
        cases found
      · exact queue.named other ((Table.remove_other here).symm.trans found)

end

end PromiseLock

end Tapes.Machine
