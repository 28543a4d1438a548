import Mathlib.Data.List.Induction
import Tapes.Provenance.RecordingProvenance

namespace Tapes.Provenance

open Tapes.Js

/-! What the passes of `verifyRecordingStatements` compute, as facts about the
listed entries: `collect` keeps exactly the entries of each type that pass, and
`AllPass` says when there is nothing to refuse. -/

namespace Checked

def claim? : Checked → Option RecordingClaim
  | .claim value => some value
  | _ => none

def receipt? : Checked → Option HostReceipt
  | .receipt value => some value
  | _ => none

def session? : Checked → Option SessionRecord
  | .session value => some value
  | _ => none

def link? : Checked → Option DeviceLink
  | .link value => some value
  | _ => none

def revocation? : Checked → Option DeviceRevocation
  | .revocation value => some value
  | _ => none

def problem? : Checked → Option StatementProblem
  | .failed value => some value
  | _ => none

end Checked

section

variable (platform : Platform) (blob : BlobDescriptor)

def passingEntry (select : Checked → Option α) (entry : JsString × Option Bytes) :
    Option (JsString × α) :=
  entry.2.bind fun bytes =>
    (select (checkStatement platform blob entry.1 bytes)).map fun value => (entry.1, value)

/-- The entries whose check gives what `select` looks for, in list order. -/
def passing (select : Checked → Option α) (entries : List (JsString × Option Bytes)) :
    List (JsString × α) :=
  entries.filterMap (passingEntry platform blob select)

variable {platform blob} {entries : List (JsString × Option Bytes)}

theorem mem_passing {select : Checked → Option α} {hash : JsString} {value : α} :
    (hash, value) ∈ passing platform blob select entries ↔
      ∃ bytes, (hash, some bytes) ∈ entries ∧
        select (checkStatement platform blob hash bytes) = some value := by
  simp only [passing, List.mem_filterMap, passingEntry, Option.bind_eq_some_iff,
    Option.map_eq_some_iff, Prod.mk.injEq, Prod.exists]
  grind

theorem passing_keys_subset {select : Checked → Option α} {hash : JsString}
    (member : hash ∈ (passing platform blob select entries).map Prod.fst) :
    hash ∈ entries.map Prod.fst := by
  obtain ⟨⟨name, value⟩, listed, rfl⟩ := List.mem_map.mp member
  obtain ⟨bytes, entry, _⟩ := mem_passing.mp listed
  exact List.mem_map_of_mem (f := Prod.fst) entry

variable (platform blob) in
/-- What `collect` holds after the entries so far. -/
structure CollectedFrom (entries : List (JsString × Option Bytes)) (collected : Collected) :
    Prop where
  failures : collected.failures = passing platform blob Checked.problem? entries
  missing : collected.missing =
    entries.filterMap fun entry => if entry.2.isNone then some entry.1 else none
  claims : collected.claims.entries = passing platform blob Checked.claim? entries
  receipts : collected.receipts = passing platform blob Checked.receipt? entries
  sessions : collected.sessions = passing platform blob Checked.session? entries
  links : collected.links.entries = passing platform blob Checked.link? entries
  revocations : collected.revocations.entries = passing platform blob Checked.revocation? entries

theorem passing_append_singleton {select : Checked → Option α} {entry : JsString × Option Bytes} :
    passing platform blob select (entries ++ [entry]) =
      passing platform blob select entries ++
        (passingEntry platform blob select entry).toList := by
  rw [passing, List.filterMap_append]
  cases found : passingEntry platform blob select entry <;> simp [passing, found]

theorem entries_set_fresh {map : OrderedMap JsString α} {select : Checked → Option α}
    {hash : JsString} (same : map.entries = passing platform blob select entries)
    (fresh : hash ∉ entries.map Prod.fst) (value : α) :
    (map.set hash value).entries = passing platform blob select entries ++ [(hash, value)] := by
  have absent : ¬ map.entries.any (·.1 = hash) = true := by
    rw [any_key_iff, same]
    exact fun member => fresh (passing_keys_subset member)
  rw [← same]
  exact if_neg absent

theorem CollectedFrom.step {collected : Collected} {entry : JsString × Option Bytes}
    (before : CollectedFrom platform blob entries collected)
    (fresh : entry.1 ∉ entries.map Prod.fst) :
    CollectedFrom platform blob (entries ++ [entry])
      (collectEntry platform blob collected entry) := by
  obtain ⟨hash, bytes⟩ := entry
  cases bytes with
  | none =>
      constructor <;>
        simp [collectEntry, passing_append_singleton, passingEntry, before.failures,
          before.missing, before.claims, before.receipts, before.sessions, before.links,
          before.revocations]
  | some bytes =>
      have claims := entries_set_fresh before.claims fresh
      have links := entries_set_fresh before.links fresh
      have revocations := entries_set_fresh before.revocations fresh
      cases outcome : checkStatement platform blob hash bytes <;>
        constructor <;>
        simp [collectEntry, Collected.add, passing_append_singleton, passingEntry, outcome,
          Checked.claim?, Checked.receipt?, Checked.session?, Checked.link?,
          Checked.revocation?, Checked.problem?, claims, links, revocations,
          before.failures, before.missing, before.claims, before.receipts, before.sessions,
          before.links, before.revocations]

theorem collectedFrom_foldl (entries : List (JsString × Option Bytes))
    (distinct : (entries.map Prod.fst).Nodup) :
    CollectedFrom platform blob entries
      (entries.foldl (collectEntry platform blob) Collected.empty) := by
  induction entries using List.reverseRecOn with
  | nil => constructor <;> rfl
  | append_singleton entries entry ih =>
      rw [List.map_append, List.nodup_append] at distinct
      rw [List.foldl_append]
      apply (ih distinct.1).step
      intro member
      exact distinct.2.2 _ member entry.1 (by simp) rfl

variable (platform blob) in
theorem collect_spec (statements : List FetchedStatement) :
    CollectedFrom platform blob (uniqueStatements statements).entries
      (collect platform blob statements) :=
  collectedFrom_foldl _ (uniqueStatements statements).distinct

end

/-! ## Claims by the link they name -/

def namers (claims : List RecordingClaim) (address : JsString) : List RecordingClaim :=
  claims.filter fun claim => claim.deviceCert = some address

theorem namedLinks_get? (claims : OrderedMap JsString RecordingClaim) (address : JsString) :
    (namedLinks claims).get? address =
      if namers claims.values address = [] then none else some (namers claims.values address) := by
  unfold namedLinks namers
  induction claims.values using List.reverseRecOn with
  | nil => rfl
  | append_singleton values claim ih =>
      rw [List.foldl_append, List.filter_append]
      simp only [List.foldl_cons, List.foldl_nil]
      cases named : claim.deviceCert with
      | none => simp [named, ih]
      | some other =>
          dsimp only
          by_cases same : other = address
          · subst same
            rw [OrderedMap.get?_set_self, ih]
            split <;> simp [*]
          · rw [OrderedMap.get?_set_other (Ne.symm same), ih]
            simp [named, same]

/-! ## When nothing is refused -/

section

variable (platform : Platform) (blob : BlobDescriptor) (statements : List FetchedStatement)

def claimsOf := passing platform blob Checked.claim? (uniqueStatements statements).entries
def receiptsOf := passing platform blob Checked.receipt? (uniqueStatements statements).entries
def sessionsOf := passing platform blob Checked.session? (uniqueStatements statements).entries
def linksOf := passing platform blob Checked.link? (uniqueStatements statements).entries
def revocationsOf := passing platform blob Checked.revocation? (uniqueStatements statements).entries

/-- Every listed statement is served, passes its own check, and binds to the
others as its type asks. -/
structure AllPass : Prop where
  served : ∀ hash, (hash, none) ∉ (uniqueStatements statements).entries
  passed : ∀ hash bytes, (hash, some bytes) ∈ (uniqueStatements statements).entries →
    (checkStatement platform blob hash bytes).problem? = none
  receipts : ∀ entry ∈ receiptsOf platform blob statements,
    ∃ claim, (entry.2.claim, claim) ∈ claimsOf platform blob statements
  sessions : ∀ entry ∈ sessionsOf platform blob statements,
    ∃ claim ∈ claimsOf platform blob statements,
      claim.2.sessionId = entry.2.sessionId ∧ claim.1 ∈ entry.2.claims
  links : ∀ entry ∈ linksOf platform blob statements,
    (∃ claim ∈ claimsOf platform blob statements, claim.2.deviceCert = some entry.1) ∧
    ∀ claim ∈ claimsOf platform blob statements,
      claim.2.deviceCert = some entry.1 → claim.2.deviceKey = entry.2.deviceKey
  revocations : ∀ entry ∈ revocationsOf platform blob statements,
    ∃ link, (entry.2.deviceLink, link) ∈ linksOf platform blob statements ∧
      revocationCovers entry.2 link entry.2.deviceLink = true
  named : ∀ claim ∈ claimsOf platform blob statements, ∀ address,
    claim.2.deviceCert = some address → address ∈ (uniqueStatements statements).keys

variable {platform blob statements}

theorem sessionProblem_eq_none_iff {record : SessionRecord}
    {claims : OrderedMap JsString RecordingClaim} :
    sessionProblem record claims = none ↔
      ∃ claim ∈ claims.entries,
        claim.2.sessionId = record.sessionId ∧ claim.1 ∈ record.claims := by
  unfold sessionProblem
  simp only [List.any_filter, List.filter_eq_nil_iff]
  split_ifs with absent covered
  · simp only [false_iff]
    rintro ⟨claim, member, same, _⟩
    exact absent claim member (by simpa using same)
  · simpa [and_assoc] using covered
  · simpa [and_assoc] using covered

private theorem receiptFailures_eq_nil_iff :
    receiptFailures (collect platform blob statements) = [] ↔
      ∀ entry ∈ receiptsOf platform blob statements,
        ∃ claim, (entry.2.claim, claim) ∈ claimsOf platform blob statements := by
  have spec := collect_spec platform blob statements
  unfold receiptFailures
  rw [List.filterMap_eq_nil_iff, spec.receipts]
  apply forall₂_congr
  intro entry _
  rw [ite_eq_left_iff, OrderedMap.has_iff]
  simp only [OrderedMap.get?_eq_some_iff, spec.claims, claimsOf]
  simp

private theorem sessionFailures_eq_nil_iff :
    sessionFailures (collect platform blob statements) = [] ↔
      ∀ entry ∈ sessionsOf platform blob statements,
        ∃ claim ∈ claimsOf platform blob statements,
          claim.2.sessionId = entry.2.sessionId ∧ claim.1 ∈ entry.2.claims := by
  have spec := collect_spec platform blob statements
  unfold sessionFailures
  rw [List.filterMap_eq_nil_iff, spec.sessions]
  apply forall₂_congr
  intro entry _
  rw [Option.map_eq_none_iff, sessionProblem_eq_none_iff, spec.claims]
  rfl

variable (platform blob statements) in
private theorem mem_namers_iff (address : JsString) (claim : RecordingClaim) :
    claim ∈ namers (collect platform blob statements).claims.values address ↔
      (∃ name, (name, claim) ∈ claimsOf platform blob statements) ∧
        claim.deviceCert = some address := by
  have spec := collect_spec platform blob statements
  simp [namers, OrderedMap.values, spec.claims, claimsOf]

/-- What `linkFailures` says of one link. -/
theorem linkFailure_eq_none_iff (hash : JsString) (link : DeviceLink) :
    (match (namedLinks (collect platform blob statements).claims).get? hash with
      | none => some (hash, StatementProblem.certificateNotClaimed)
      | some namedBy =>
          if namedBy.any fun claim => claim.deviceKey ≠ link.deviceKey then
            some (hash, .certificateDeviceMismatch)
          else none) = none ↔
      (∃ claim ∈ claimsOf platform blob statements, claim.2.deviceCert = some hash) ∧
      ∀ claim ∈ claimsOf platform blob statements,
        claim.2.deviceCert = some hash → claim.2.deviceKey = link.deviceKey := by
  rw [namedLinks_get?]
  have named := fun claim => mem_namers_iff platform blob statements hash claim
  split_ifs with none
  · simp only [none, List.not_mem_nil, false_iff, not_and, forall_exists_index] at named
    simp only [false_iff, not_and]
    rintro ⟨⟨name, claim⟩, member, same⟩
    exact absurd same (named claim name member)
  · obtain ⟨first, member⟩ := List.exists_mem_of_ne_nil _ none
    obtain ⟨⟨name, listed⟩, same⟩ := (named first).mp member
    simp only [ite_eq_right_iff, reduceCtorEq, imp_false, List.any_eq_true, decide_eq_true_eq,
      not_exists, not_and, not_not, named]
    constructor
    · intro matching
      exact ⟨⟨_, listed, same⟩, fun claim member names =>
        matching claim.2 ⟨⟨claim.1, member⟩, names⟩⟩
    · rintro ⟨_, matching⟩ claim ⟨⟨name, member⟩, names⟩
      exact matching _ member names

private theorem linkFailures_eq_nil_iff :
    linkFailures (collect platform blob statements) = [] ↔
      ∀ entry ∈ linksOf platform blob statements,
        (∃ claim ∈ claimsOf platform blob statements, claim.2.deviceCert = some entry.1) ∧
        ∀ claim ∈ claimsOf platform blob statements,
          claim.2.deviceCert = some entry.1 → claim.2.deviceKey = entry.2.deviceKey := by
  have spec := collect_spec platform blob statements
  unfold linkFailures
  rw [List.filterMap_eq_nil_iff, spec.links]
  apply forall₂_congr
  rintro ⟨hash, link⟩ _
  exact linkFailure_eq_none_iff hash link

private theorem revocationFailures_eq_nil_iff :
    revocationFailures (collect platform blob statements) = [] ↔
      ∀ entry ∈ revocationsOf platform blob statements,
        ∃ link, (entry.2.deviceLink, link) ∈ linksOf platform blob statements ∧
          revocationCovers entry.2 link entry.2.deviceLink = true := by
  have spec := collect_spec platform blob statements
  unfold revocationFailures
  rw [List.filterMap_eq_nil_iff, spec.revocations]
  apply forall₂_congr
  intro entry _
  have member : ∀ link,
      (collect platform blob statements).links.get? entry.2.deviceLink = some link ↔
        (entry.2.deviceLink, link) ∈ (collect platform blob statements).links.entries :=
    fun link => OrderedMap.get?_eq_some_iff
  simp only [spec.links] at member
  cases found : (collect platform blob statements).links.get? entry.2.deviceLink with
  | none => simp [found, linksOf] at member ⊢; grind
  | some link => simp [found, linksOf] at member ⊢; grind

private theorem allMissing_eq_nil_iff :
    allMissing statements (collect platform blob statements) = [] ↔
      (∀ hash, (hash, none) ∉ (uniqueStatements statements).entries) ∧
      ∀ claim ∈ claimsOf platform blob statements, ∀ address,
        claim.2.deviceCert = some address → address ∈ (uniqueStatements statements).keys := by
  have spec := collect_spec platform blob statements
  unfold allMissing
  rw [List.append_eq_nil_iff, spec.missing, List.filterMap_eq_nil_iff, List.filter_eq_nil_iff]
  apply and_congr
  · simp
    grind
  · have named : ∀ address, address ∈ (namedLinks (collect platform blob statements).claims).keys ↔
        ∃ claim ∈ claimsOf platform blob statements, claim.2.deviceCert = some address := by
      intro address
      rw [OrderedMap.mem_keys, namedLinks_get?]
      have member := fun claim => mem_namers_iff platform blob statements address claim
      split_ifs with none
      · simp only [none, List.not_mem_nil, false_iff, not_and, forall_exists_index] at member
        simp
        grind
      · obtain ⟨first, inside⟩ := List.exists_mem_of_ne_nil _ none
        obtain ⟨⟨name, listed⟩, same⟩ := (member first).mp inside
        simp
        grind
    simp only [named, Bool.not_eq_true, Bool.not_eq_false', OrderedMap.has_iff_mem_keys]
    grind

theorem allPass_iff :
    AllPass platform blob statements ↔
      allFailures (collect platform blob statements) = [] ∧
      allMissing statements (collect platform blob statements) = [] := by
  have spec := collect_spec platform blob statements
  have failures : (collect platform blob statements).failures = [] ↔
      ∀ hash bytes, (hash, some bytes) ∈ (uniqueStatements statements).entries →
        (checkStatement platform blob hash bytes).problem? = none := by
    rw [spec.failures, List.eq_nil_iff_forall_not_mem]
    simp only [Prod.forall, mem_passing, not_exists, not_and, Option.eq_none_iff_forall_not_mem,
      Option.mem_def]
    exact ⟨fun none hash bytes member problem => none hash problem bytes member,
      fun none hash problem bytes member => none hash bytes member problem⟩
  simp only [allFailures, List.append_eq_nil_iff, receiptFailures_eq_nil_iff,
    sessionFailures_eq_nil_iff, linkFailures_eq_nil_iff, revocationFailures_eq_nil_iff,
    allMissing_eq_nil_iff, failures]
  constructor
  · intro pass
    exact ⟨⟨⟨⟨⟨pass.passed, pass.receipts⟩, pass.sessions⟩, pass.links⟩, pass.revocations⟩,
      pass.served, pass.named⟩
  · rintro ⟨⟨⟨⟨⟨passed, receipts⟩, sessions⟩, links⟩, revocations⟩, served, named⟩
    exact ⟨served, passed, receipts, sessions, links, revocations, named⟩

end

end Tapes.Provenance
