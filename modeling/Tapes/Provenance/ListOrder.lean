import Tapes.Provenance.Timing

namespace Tapes.Provenance

open Tapes.Js

/-! What a verification returns does not depend on the order of the list. -/

/-! ## Collections that hold the same -/

theorem get?_perm {κ ν : Type} [DecidableEq κ] {left right : OrderedMap κ ν}
    (same : left.entries.Perm right.entries) (key : κ) : left.get? key = right.get? key := by
  apply Option.ext
  intro value
  rw [OrderedMap.get?_eq_some_iff, OrderedMap.get?_eq_some_iff]
  exact same.mem_iff

theorem has_perm {κ ν : Type} [DecidableEq κ] {left right : OrderedMap κ ν}
    (same : left.entries.Perm right.entries) (key : κ) : left.has key = right.has key := by
  rw [Bool.eq_iff_iff, OrderedMap.has_iff, OrderedMap.has_iff, get?_perm same]

structure SamePasses (left right : Collected) : Prop where
  failures : left.failures.Perm right.failures
  missing : left.missing.Perm right.missing
  claims : left.claims.entries.Perm right.claims.entries
  receipts : left.receipts.Perm right.receipts
  sessions : left.sessions.Perm right.sessions
  links : left.links.entries.Perm right.links.entries
  revocations : left.revocations.entries.Perm right.revocations.entries

section

variable {left right : Collected}

theorem receiptFailures_perm (same : SamePasses left right) :
    (receiptFailures left).Perm (receiptFailures right) := by
  unfold receiptFailures
  simp only [has_perm same.claims]
  exact same.receipts.filterMap _

theorem sessionProblem_perm {left right : OrderedMap JsString RecordingClaim}
    (same : left.entries.Perm right.entries) (record : SessionRecord) :
    sessionProblem record left = sessionProblem record right := by
  have inSession := same.filter fun entry => entry.2.sessionId = record.sessionId
  unfold sessionProblem
  dsimp only
  have none : (left.entries.filter fun entry => entry.2.sessionId = record.sessionId) = [] ↔
      (right.entries.filter fun entry => entry.2.sessionId = record.sessionId) = [] :=
    ⟨fun empty => (empty ▸ inSession).nil_eq.symm, fun empty => (empty ▸ inSession).eq_nil⟩
  rw [inSession.any_eq]
  by_cases empty : (left.entries.filter fun entry => entry.2.sessionId = record.sessionId) = []
  · rw [if_pos empty, if_pos (none.mp empty)]
  · rw [if_neg empty, if_neg (none.not.mp empty)]

theorem sessionFailures_perm (same : SamePasses left right) :
    (sessionFailures left).Perm (sessionFailures right) := by
  unfold sessionFailures
  simp only [sessionProblem_perm same.claims]
  exact same.sessions.filterMap _

theorem namers_perm (same : SamePasses left right) (address : JsString) :
    (namers left.claims.values address).Perm (namers right.claims.values address) :=
  (same.claims.map Prod.snd).filter _

theorem namers_nil_iff (same : SamePasses left right) (address : JsString) :
    namers left.claims.values address = [] ↔ namers right.claims.values address = [] := by
  have perm := namers_perm same address
  exact ⟨fun empty => (empty ▸ perm).nil_eq.symm, fun empty => (empty ▸ perm).eq_nil⟩

/-- The failure of one link depends on the claims that name it only. -/
theorem linkFailures_perm (same : SamePasses left right) :
    (linkFailures left).Perm (linkFailures right) := by
  have each : linkFailures left = linkFailures { right with links := left.links } := by
    apply List.filterMap_congr
    intro entry _
    obtain ⟨hash, link⟩ := entry
    dsimp only
    rw [namedLinks_get?, namedLinks_get?]
    by_cases empty : namers left.claims.values hash = []
    · rw [if_pos empty, if_pos ((namers_nil_iff same _).mp empty)]
    · rw [if_neg empty, if_neg ((namers_nil_iff same _).not.mp empty)]
      dsimp only
      rw [(namers_perm same hash).any_eq]
  rw [each]
  exact same.links.filterMap _

theorem revocationFailures_perm (same : SamePasses left right) :
    (revocationFailures left).Perm (revocationFailures right) := by
  unfold revocationFailures
  simp only [get?_perm same.links]
  exact same.revocations.filterMap _

theorem allFailures_perm (same : SamePasses left right) :
    (allFailures left).Perm (allFailures right) :=
  (((same.failures.append (receiptFailures_perm same)).append
    (sessionFailures_perm same)).append (linkFailures_perm same)).append
    (revocationFailures_perm same)

theorem mem_keys_namedLinks {claims : OrderedMap JsString RecordingClaim} {address : JsString} :
    address ∈ (namedLinks claims).keys ↔ namers claims.values address ≠ [] := by
  rw [OrderedMap.mem_keys, namedLinks_get?]
  split_ifs with empty <;> simp [empty]

end

/-! ## Lists in another order -/

section

variable {platform : Platform} {blob : BlobDescriptor} {statements shuffled : List FetchedStatement}

/-- A list that repeats no address is collected as it is. -/
theorem uniqueStatements_entries (distinct : (statements.map FetchedStatement.hash).Nodup) :
    (uniqueStatements statements).entries =
      statements.map fun statement => (statement.hash, statement.bytes) := by
  refine @OrderedMap.entries_foldl_set _ _ _ _ .empty ?_
  simpa [Function.comp_def] using distinct

theorem uniqueStatements_perm (distinct : (statements.map FetchedStatement.hash).Nodup)
    (perm : shuffled.Perm statements) :
    (uniqueStatements statements).entries.Perm (uniqueStatements shuffled).entries := by
  have distinctShuffled : (shuffled.map FetchedStatement.hash).Nodup :=
    (perm.map _).nodup_iff.mpr distinct
  rw [uniqueStatements_entries distinct, uniqueStatements_entries distinctShuffled]
  exact (perm.map _).symm

variable (platform blob) in
theorem samePasses_collect
    (perm : (uniqueStatements statements).entries.Perm (uniqueStatements shuffled).entries) :
    SamePasses (collect platform blob statements) (collect platform blob shuffled) := by
  have left := collect_spec platform blob statements
  have right := collect_spec platform blob shuffled
  constructor
  · rw [left.failures, right.failures]
    exact perm.filterMap _
  · rw [left.missing, right.missing]
    exact perm.filterMap _
  · rw [left.claims, right.claims]
    exact perm.filterMap _
  · rw [left.receipts, right.receipts]
    exact perm.filterMap _
  · rw [left.sessions, right.sessions]
    exact perm.filterMap _
  · rw [left.links, right.links]
    exact perm.filterMap _
  · rw [left.revocations, right.revocations]
    exact perm.filterMap _

variable (platform blob) in
theorem mem_allMissing_iff
    (perm : (uniqueStatements statements).entries.Perm (uniqueStatements shuffled).entries)
    (address : JsString) :
    address ∈ allMissing statements (collect platform blob statements) ↔
      address ∈ allMissing shuffled (collect platform blob shuffled) := by
  have same := samePasses_collect platform blob perm
  simp only [allMissing, List.mem_append, List.mem_filter, mem_keys_namedLinks,
    same.missing.mem_iff, has_perm perm, ne_eq, namers_nil_iff same]

end

/-! ## Verdicts -/

inductive ProvenanceState where
  | verified
  | deviceOnly
  | unverified
  | failed
  | unavailable
deriving DecidableEq

namespace RecordingProvenance

def state : RecordingProvenance → ProvenanceState
  | .verified .. => .verified
  | .deviceOnly _ => .deviceOnly
  | .unverified => .unverified
  | .failed _ => .failed
  | .unavailable _ => .unavailable

def failures : RecordingProvenance → List (JsString × StatementProblem)
  | .failed failures => failures
  | _ => []

def missing : RecordingProvenance → List JsString
  | .unavailable missing => missing
  | _ => []

def receivedAt? : RecordingProvenance → Option JsString
  | .verified _ receivedAt _ => some receivedAt
  | _ => none

end RecordingProvenance

structure SameVerdict (platform : Platform) (left right : RecordingProvenance) : Prop where
  state : left.state = right.state
  failures : ∀ failure, failure ∈ left.failures ↔ failure ∈ right.failures
  missing : ∀ address, address ∈ left.missing ↔ address ∈ right.missing
  receivedAt : left.receivedAt?.map (timeOf platform) = right.receivedAt?.map (timeOf platform)

theorem sameVerdict_refl (platform : Platform) (result : RecordingProvenance) :
    SameVerdict platform result result :=
  ⟨rfl, fun _ => .rfl, fun _ => .rfl, rfl⟩

section

variable {platform : Platform} {blob : BlobDescriptor} {statements shuffled : List FetchedStatement}

theorem shownReceipt_perm
    (receipts : (receiptsOf platform blob statements).Perm (receiptsOf platform blob shuffled)) :
    (shownReceipt platform blob statements).map (fun receipt => timeOf platform receipt.receivedAt) =
      (shownReceipt platform blob shuffled).map fun receipt => timeOf platform receipt.receivedAt := by
  cases left : shownReceipt platform blob statements with
  | none =>
      have empty := firstByTime_eq_none_iff.mp left
      have emptyShuffled : (receiptsOf platform blob shuffled).map Prod.snd = [] :=
        (empty ▸ receipts.map Prod.snd).nil_eq.symm
      rw [shownReceipt, emptyShuffled]
      rfl
  | some first =>
      cases right : shownReceipt platform blob shuffled with
      | none =>
          have empty := firstByTime_eq_none_iff.mp right
          obtain ⟨hash, member⟩ := shownReceipt_mem left
          have inside := List.mem_map_of_mem (f := Prod.snd) (receipts.mem_iff.mp member)
          rw [empty] at inside
          cases inside
      | some other =>
          obtain ⟨hash, member⟩ := shownReceipt_mem left
          obtain ⟨hash', member'⟩ := shownReceipt_mem right
          have earlier := shownReceipt_le left (receipts.mem_iff.mpr member')
          have later := shownReceipt_le right (receipts.mem_iff.mp member)
          rw [Option.map_some, Option.map_some, le_antisymm earlier later]

theorem AllPass.shownClaim_isSome_iff (pass : AllPass platform blob statements) :
    (shownClaim platform blob statements).isSome = true ↔ claimsOf platform blob statements ≠ [] := by
  cases shown : shownReceipt platform blob statements with
  | none =>
      simp only [shownClaim, shown]
      cases claimsOf platform blob statements <;> simp
  | some receipt =>
      obtain ⟨hash, member⟩ := shownReceipt_mem shown
      obtain ⟨claim, listed⟩ := pass.receipts _ member
      have found : (shownClaim platform blob statements).isSome = true := by
        simp only [shownClaim, shown, List.find?_isSome]
        exact ⟨_, listed, by simp⟩
      exact iff_of_true found (List.ne_nil_of_mem listed)

/-- For a list that passes whole, the order does not change the verdict. -/
theorem AllPass.sameVerdict (pass : AllPass platform blob statements)
    (passShuffled : AllPass platform blob shuffled)
    (perm : (uniqueStatements statements).entries.Perm (uniqueStatements shuffled).entries) :
    ∃ left right, verifyRecordingStatements platform blob statements = some left ∧
      verifyRecordingStatements platform blob shuffled = some right ∧
      SameVerdict platform left right := by
  have receipts := shownReceipt_perm
    (perm.filterMap (passingEntry platform blob Checked.receipt?))
  have claims : (claimsOf platform blob statements).Perm (claimsOf platform blob shuffled) :=
    perm.filterMap _
  have claimed : (shownClaim platform blob statements).isSome =
      (shownClaim platform blob shuffled).isSome := by
    rw [Bool.eq_iff_iff, pass.shownClaim_isSome_iff, passShuffled.shownClaim_isSome_iff]
    exact ⟨fun some none => some (none ▸ claims).eq_nil,
      fun some none => some (none ▸ claims).nil_eq.symm⟩
  refine ⟨_, _, verifyRecordingStatements_allPass pass,
    verifyRecordingStatements_allPass passShuffled, ?_⟩
  generalize shownClaim platform blob statements = left at claimed ⊢
  generalize shownClaim platform blob shuffled = right at claimed ⊢
  cases first : shownReceipt platform blob statements <;>
    cases second : shownReceipt platform blob shuffled <;>
    rw [first, second] at receipts
  case none.none =>
    cases left <;> cases right
    case none.none => exact sameVerdict_refl _ _
    case some.some => exact ⟨rfl, fun _ => .rfl, fun _ => .rfl, rfl⟩
    all_goals cases claimed
  case some.some =>
    cases left <;> cases right
    case none.none => exact sameVerdict_refl _ _
    case some.some => exact ⟨rfl, fun _ => .rfl, fun _ => .rfl, receipts⟩
    all_goals cases claimed
  all_goals cases receipts

/-- Verifying the same statements in another order gives the same state, failures, missing
addresses and time of arrival. -/
theorem verification_ignores_list_order (platform : Platform) (blob : BlobDescriptor)
    (statements shuffled : List FetchedStatement)
    (distinct : (statements.map FetchedStatement.hash).Nodup) (perm : shuffled.Perm statements) :
    ∃ left right, verifyRecordingStatements platform blob statements = some left ∧
      verifyRecordingStatements platform blob shuffled = some right ∧
      SameVerdict platform left right := by
  have entries := uniqueStatements_perm distinct perm
  have same := samePasses_collect platform blob entries
  have failures := allFailures_perm same
  have missing := mem_allMissing_iff platform blob entries
  have noFailures : allFailures (collect platform blob statements) = [] ↔
      allFailures (collect platform blob shuffled) = [] :=
    ⟨fun none => (none ▸ failures).nil_eq.symm, fun none => (none ▸ failures).eq_nil⟩
  have noMissing : allMissing statements (collect platform blob statements) = [] ↔
      allMissing shuffled (collect platform blob shuffled) = [] := by
    rw [List.eq_nil_iff_forall_not_mem, List.eq_nil_iff_forall_not_mem]
    exact forall_congr' fun address => (missing address).not
  by_cases clean : allFailures (collect platform blob statements) = []
  · by_cases whole : allMissing statements (collect platform blob statements) = []
    · have pass := allPass_iff.mpr ⟨clean, whole⟩
      have passShuffled := allPass_iff.mpr ⟨noFailures.mp clean, noMissing.mp whole⟩
      exact pass.sameVerdict passShuffled entries
    · refine ⟨.unavailable (allMissing statements (collect platform blob statements)),
        .unavailable (allMissing shuffled (collect platform blob shuffled)), ?_, ?_, ?_⟩
      · simp [verifyRecordingStatements, clean, whole]
      · simp [verifyRecordingStatements, noFailures.mp clean, noMissing.not.mp whole]
      · exact ⟨rfl, fun _ => .rfl, missing, rfl⟩
  · refine ⟨.failed (allFailures (collect platform blob statements)),
      .failed (allFailures (collect platform blob shuffled)), ?_, ?_, ?_⟩
    · simp [verifyRecordingStatements, clean]
    · simp [verifyRecordingStatements, noFailures.not.mp clean]
    · exact ⟨rfl, fun _ => failures.mem_iff, fun _ => .rfl, rfl⟩

theorem received_take_verifies_in_any_order :
    ∃ left right,
      verifyRecordingStatements lengthPlatform sampleBlob receivedStatements = some left ∧
      verifyRecordingStatements lengthPlatform sampleBlob receivedStatements.reverse =
        some right ∧ SameVerdict lengthPlatform left right :=
  verification_ignores_list_order lengthPlatform sampleBlob receivedStatements _
    (by decide +kernel) (List.reverse_perm _)

end

end Tapes.Provenance
