import Mathlib.Logic.Function.Basic
import Tapes.Vouching.HostVouching

namespace Tapes.Vouching

open Tapes.Js
open Tapes.Roster (SignedVouch markEach markEach_address markRevoked)

/-! Withdrawing a vouch: the revocation is listed on the recordings it covers, and the
roster is marked. -/

/-! ## Delivery -/

/-- What becomes of one entry of the root document in one delivery. -/
inductive Outcome where
  | missing
  | refused
  | taken
deriving DecidableEq

/-- The statement list of each recording document that has one. -/
abbrev Recordings := JsString → Option (List JsString)

/-- The body of the loop: the documents after it, and whether the entry is listed. -/
def listOn (address deviceLink : JsString) (recordings : Recordings) (url : JsString) :
    Outcome → Recordings × Bool
  | .missing => (recordings, false)
  | outcome =>
      match recordings url with
      | none => (recordings, false)
      | some statements =>
          if deviceLink ∉ statements then (recordings, false)
          else if outcome = .refused then (recordings, false)
          else if address ∈ statements then (recordings, true)
          else (Function.update recordings url (some (statements ++ [address])), true)

/-- `root` is the root document's `recordings`, with none for a junk entry, each with its
outcome. -/
def listDeviceRevocation (address deviceLink : JsString) (recordings : Recordings) :
    List (Option JsString × Outcome) → Recordings × List JsString
  | [] => (recordings, [])
  | (none, _) :: rest => listDeviceRevocation address deviceLink recordings rest
  | (some url, outcome) :: rest =>
      let (next, listed) := listOn address deviceLink recordings url outcome
      let (last, others) := listDeviceRevocation address deviceLink next rest
      (last, if listed then url :: others else others)

/-! ## A call -/

inductive RevokeVouchResult where
  | ok (address : JsString) (listedOn : List JsString)
  | unknownVouch
  | alreadyRevoked
  | threw
deriving DecidableEq

/-- What one call to `revokeVouch` meets: the address and time of the revocation it signs,
whether the root document is found, each recording's outcome, and whether the roster can
be written. -/
structure Attempt where
  revocation : JsString
  revokedAt : JsString
  rootFound : Bool
  outcome : Nat → Outcome
  rosterWritten : Bool

/-- The host as far as one vouch goes. `revocations` holds the addresses of all revocations
of the vouch, and `root` the entries of the root document. -/
structure Withdrawal where
  roster : PersonRoster
  root : List (Option JsString)
  recordings : Recordings
  revocations : List JsString

def withOutcomes (root : List (Option JsString)) (outcome : Nat → Outcome) :
    List (Option JsString × Outcome) :=
  root.zipIdx.map fun entry => (entry.1, outcome entry.2)

/-- A call for the vouch at `address` in the entry of `person`, as `findVouch` finds it, on a
host that delivers revocations. -/
def revokeVouch (person address : JsString) (state : Withdrawal) (attempt : Attempt) :
    Withdrawal × RevokeVouchResult :=
  match (state.roster person).bind fun entry =>
      (entry.vouches.getD []).find? (·.address = address) with
  | none => (state, .unknownVouch)
  | some vouch =>
      if vouch.revokedAt.isSome then (state, .alreadyRevoked)
      else
        let signed := { state with revocations := attempt.revocation :: state.revocations }
        if attempt.rootFound = false then (signed, .threw)
        else
          let (recordings, listed) := listDeviceRevocation attempt.revocation address
            state.recordings (withOutcomes state.root attempt.outcome)
          let delivered := { signed with recordings }
          if attempt.rosterWritten = false then (delivered, .threw)
          else
            ({ delivered with
                roster := (state.roster.update person
                  (markRevoked address attempt.revokedAt attempt.revocation)).1 },
              .ok attempt.revocation listed)

def revokeAll (person address : JsString) (state : Withdrawal) : List Attempt → Withdrawal
  | [] => state
  | attempt :: rest => revokeAll person address (revokeVouch person address state attempt).1 rest

/-! ## What a delivery does to each recording -/

variable {address deviceLink person url : JsString} {recordings : Recordings}
  {state : Withdrawal} {attempt : Attempt}

theorem listOn_recordings (address deviceLink : JsString) (recordings : Recordings)
    (url other : JsString) (outcome : Outcome) :
    (listOn address deviceLink recordings other outcome).1 url =
      (recordings url).map fun statements =>
        if other = url ∧ outcome = .taken ∧ deviceLink ∈ statements ∧ address ∉ statements then
          statements ++ [address]
        else statements := by
  by_cases same : other = url
  · subst other
    cases held : recordings url with
    | none => cases outcome <;> simp [listOn, held]
    | some statements =>
        by_cases covered : deviceLink ∈ statements
        · by_cases already : address ∈ statements
          · cases outcome <;> simp [listOn, held, covered, already]
          · cases outcome <;> simp [listOn, held, covered, already]
        · cases outcome <;> simp [listOn, held, covered]
  · have untouched : (listOn address deviceLink recordings other outcome).1 url =
        recordings url := by
      have different : url ≠ other := fun equal => same equal.symm
      unfold listOn
      split
      · rfl
      · split
        · rfl
        · split_ifs <;> simp [Function.update_of_ne different]
    rw [untouched]
    simp [same]

theorem listDeviceRevocation_recordings (entries : List (Option JsString × Outcome)) :
    (listDeviceRevocation address deviceLink recordings entries).1 url =
      (recordings url).map fun statements =>
        if (some url, Outcome.taken) ∈ entries ∧ deviceLink ∈ statements ∧
            address ∉ statements then
          statements ++ [address]
        else statements := by
  induction entries generalizing recordings with
  | nil => simp [listDeviceRevocation]
  | cons entry rest induction =>
      obtain ⟨listed, outcome⟩ := entry
      cases listed with
      | none => simp [listDeviceRevocation, induction]
      | some other =>
          simp only [listDeviceRevocation]
          rw [induction, listOn_recordings, Option.map_map]
          apply congrFun
          apply congrArg
          funext statements
          -- Once the address is there, a second entry of the same recording adds nothing.
          simp only [Function.comp, List.mem_cons, Prod.mk.injEq, Option.some.injEq]
          by_cases first : other = url ∧ outcome = .taken ∧ deviceLink ∈ statements ∧
              address ∉ statements
          · obtain ⟨rfl, rfl, covered, missing⟩ := first
            simp [covered, missing]
          · grind

theorem mem_withOutcomes {root : List (Option JsString)} {outcome : Nat → Outcome} :
    (some url, Outcome.taken) ∈ withOutcomes root outcome ↔
      ∃ index, root[index]? = some (some url) ∧ outcome index = .taken := by
  simp only [withOutcomes, List.mem_map, Prod.mk.injEq, Prod.exists]
  constructor
  · rintro ⟨listed, index, found, rfl, taken⟩
    exact ⟨index, List.mem_zipIdx_iff_getElem?.mp found, taken⟩
  · rintro ⟨index, found, taken⟩
    exact ⟨some url, index, List.mem_zipIdx_iff_getElem?.mpr found, rfl, taken⟩

/-! ## Trying again -/

/-- The person's entry has the vouch, withdrawn or not. -/
def Holds (person address : JsString) (withdrawn : Bool) (state : Withdrawal) : Prop :=
  ∃ entry vouch, state.roster person = some entry ∧ entry.personKey = person ∧
    (entry.vouches.getD []).find? (·.address = address) = some vouch ∧
      vouch.revokedAt.isSome = withdrawn

abbrev Standing (person address : JsString) (state : Withdrawal) : Prop :=
  Holds person address false state

abbrev Marked (person address : JsString) (state : Withdrawal) : Prop :=
  Holds person address true state

/-- The recording's statements list the vouch and none of its revocations. -/
def Uncovered (address : JsString) (state : Withdrawal) (url : JsString) : Prop :=
  some url ∈ state.root ∧ ∃ statements, state.recordings url = some statements ∧
    address ∈ statements ∧ ∀ revocation ∈ state.revocations, revocation ∉ statements

/-- A call with work left delivers again, and one that meets no failure leaves none. -/
def Retriable (person address : JsString) (state : Withdrawal) : Prop :=
  ((∃ url, Uncovered address state url) →
    ∀ attempt, (revokeVouch person address state attempt).2 ≠ .alreadyRevoked) ∧
  ∀ attempt : Attempt, attempt.rootFound = true → (∀ index, attempt.outcome index = .taken) →
    ∀ url, ¬ Uncovered address (revokeVouch person address state attempt).1 url

def signedAgain (state : Withdrawal) (attempt : Attempt) : Withdrawal :=
  { state with revocations := attempt.revocation :: state.revocations }

/-- If the call gets as far as marking the roster, the store takes the revocation for every
recording that lacks one. -/
def MarksWhenDone (address : JsString) (state : Withdrawal) (attempt : Attempt) : Prop :=
  attempt.rootFound = true → attempt.rosterWritten = true →
    ∀ url, Uncovered address (signedAgain state attempt) url →
      ∃ index, state.root[index]? = some (some url) ∧ attempt.outcome index = .taken

/-- Every call that finds the vouch standing marks it only when its work is done. -/
def MarkedWhenDone (person address : JsString) : Withdrawal → List Attempt → Prop
  | _, [] => True
  | state, attempt :: rest =>
      (Standing person address state → MarksWhenDone address state attempt) ∧
        MarkedWhenDone person address (revokeVouch person address state attempt).1 rest

def delivered (address : JsString) (state : Withdrawal) (attempt : Attempt) : Withdrawal :=
  { signedAgain state attempt with
    recordings := (listDeviceRevocation attempt.revocation address state.recordings
      (withOutcomes state.root attempt.outcome)).1 }

def marked (person address : JsString) (state : Withdrawal) (attempt : Attempt) : Withdrawal :=
  { delivered address state attempt with
    roster := (state.roster.update person
      (markRevoked address attempt.revokedAt attempt.revocation)).1 }

theorem revokeVouch_marked (mark : Marked person address state) :
    revokeVouch person address state attempt = (state, .alreadyRevoked) := by
  obtain ⟨entry, vouch, held, -, found, withdrawn⟩ := mark
  simp [revokeVouch, held, found, withdrawn]

theorem revokeVouch_standing (attempt : Attempt) (standing : Standing person address state) :
    (attempt.rootFound = false ∧
      revokeVouch person address state attempt = (signedAgain state attempt, .threw)) ∨
    (attempt.rootFound = true ∧ attempt.rosterWritten = false ∧
      revokeVouch person address state attempt = (delivered address state attempt, .threw)) ∨
    (attempt.rootFound = true ∧ attempt.rosterWritten = true ∧ ∃ listed,
      revokeVouch person address state attempt =
        (marked person address state attempt, .ok attempt.revocation listed)) := by
  obtain ⟨entry, vouch, held, -, found, withdrawn⟩ := standing
  cases root : attempt.rootFound with
  | false =>
      apply Or.inl
      simp [revokeVouch, held, found, withdrawn, root, signedAgain]
  | true =>
      apply Or.inr
      cases written : attempt.rosterWritten with
      | false =>
          apply Or.inl
          simp [revokeVouch, held, found, withdrawn, root, written, delivered, signedAgain]
      | true =>
          apply Or.inr
          simp [revokeVouch, held, found, withdrawn, root, written, marked, delivered, signedAgain]

theorem marked_of_standing (standing : Standing person address state) :
    Marked person address (marked person address state attempt) := by
  obtain ⟨entry, vouch, held, rfl, found, -⟩ := standing
  have renamed := List.find?_some found
  simp only [decide_eq_true_eq] at renamed
  let mark := markEach address attempt.revokedAt attempt.revocation
  refine ⟨{ entry with vouches := some ((entry.vouches.getD []).map mark) }, mark vouch, ?_, rfl, ?_, ?_⟩
  · simp [marked, PersonRoster.update, held, markRevoked, mark]
  · simp only [Option.getD_some, List.find?_map, Function.comp_def, mark, markEach_address, found, Option.map_some]
  · simp [mark, markEach, renamed]

theorem uncovered_delivered :
    Uncovered address (delivered address state attempt) url ↔
      Uncovered address (signedAgain state attempt) url ∧
        ¬ ∃ index, state.root[index]? = some (some url) ∧ attempt.outcome index = .taken := by
  rw [← mem_withOutcomes]
  simp only [Uncovered, delivered, signedAgain, listDeviceRevocation_recordings,
    Option.map_eq_some_iff]
  constructor
  · rintro ⟨listed, after, ⟨statements, held, rfl⟩, covered, unlisted⟩
    have mine := unlisted attempt.revocation List.mem_cons_self
    split at mine
    · simp at mine
    · rename_i skipped
      rw [if_neg skipped] at covered unlisted
      refine ⟨⟨listed, statements, held, covered, unlisted⟩, ?_⟩
      intro taken
      exact skipped ⟨taken, covered, mine⟩
  · rintro ⟨⟨listed, statements, held, covered, unlisted⟩, untaken⟩
    refine ⟨listed, statements, ⟨statements, held, ?_⟩, covered, unlisted⟩
    rw [if_neg]
    exact fun taken => untaken taken.1

theorem standing_of_standing {next : Withdrawal} (standing : Standing person address state)
    (kept : next.roster = state.roster) : Standing person address next := by
  unfold Standing Holds at standing ⊢
  rwa [kept]

/-! ## Runs of calls -/

theorem retriable_of_standing (standing : Standing person address state) :
    Retriable person address state := by
  constructor
  · intro _ attempt
    rcases revokeVouch_standing attempt standing with
      ⟨-, ran⟩ | ⟨-, -, ran⟩ | ⟨-, -, _, ran⟩ <;> simp [ran]
  · intro attempt root taken url uncovered
    have reached : Uncovered address (delivered address state attempt) url := by
      rcases revokeVouch_standing attempt standing with
        ⟨missing, -⟩ | ⟨-, -, ran⟩ | ⟨-, -, _, ran⟩
      · rw [root] at missing
        contradiction
      · rwa [ran] at uncovered
      · rw [ran] at uncovered
        exact uncovered
    have before := uncovered_delivered.mp reached
    obtain ⟨index, here⟩ := List.mem_iff_getElem?.mp before.1.1
    exact before.2 ⟨index, here, taken index⟩

theorem retriable_marked_iff (mark : Marked person address state) :
    Retriable person address state ↔ ∀ url, ¬ Uncovered address state url := by
  constructor
  · intro retriable url uncovered
    have again : Attempt := ⟨[], [], true, fun _ => .taken, true⟩
    apply retriable.1 ⟨url, uncovered⟩ again
    rw [revokeVouch_marked mark]
  · intro covered
    constructor
    · intro ⟨url, uncovered⟩
      exact absurd uncovered (covered url)
    · intro attempt _ _ url
      rw [revokeVouch_marked mark]
      exact covered url

theorem revokeAll_marked (mark : Marked person address state) (attempts : List Attempt) :
    revokeAll person address state attempts = state := by
  induction attempts with
  | nil => rfl
  | cons attempt rest induction => rw [revokeAll, revokeVouch_marked mark, induction]

theorem not_standing_of_marked (mark : Marked person address state) :
    ¬ Standing person address state := by
  rintro ⟨entry, vouch, held, -, found, standing⟩
  obtain ⟨other, marked, same, -, again, withdrawn⟩ := mark
  rw [held, Option.some.injEq] at same
  subst other
  rw [found, Option.some.injEq] at again
  subst marked
  rw [standing] at withdrawn
  contradiction

theorem markedWhenDone_marked (mark : Marked person address state) (attempts : List Attempt) :
    MarkedWhenDone person address state attempts := by
  induction attempts with
  | nil => trivial
  | cons attempt rest induction =>
      refine ⟨fun standing => absurd standing (not_standing_of_marked mark), ?_⟩
      rwa [revokeVouch_marked mark]

/-- One call from a standing vouch leaves it standing, or marked with what is still uncovered
being what the store did not take. -/
theorem revokeVouch_leaves (attempt : Attempt) (standing : Standing person address state) :
    (¬ (attempt.rootFound = true ∧ attempt.rosterWritten = true) ∧
      Standing person address (revokeVouch person address state attempt).1) ∨
    ((attempt.rootFound = true ∧ attempt.rosterWritten = true) ∧
      Marked person address (revokeVouch person address state attempt).1 ∧
      ∀ url, Uncovered address (revokeVouch person address state attempt).1 url ↔
        Uncovered address (signedAgain state attempt) url ∧
          ¬ ∃ index, state.root[index]? = some (some url) ∧ attempt.outcome index = .taken) := by
  rcases revokeVouch_standing attempt standing with
    ⟨missing, ran⟩ | ⟨-, unwritten, ran⟩ | ⟨found, written, _, ran⟩
  · apply Or.inl
    rw [ran]
    exact ⟨by simp [missing], standing_of_standing standing rfl⟩
  · apply Or.inl
    rw [ran]
    exact ⟨by simp [unwritten], standing_of_standing standing rfl⟩
  · apply Or.inr
    rw [ran]
    refine ⟨⟨found, written⟩, marked_of_standing standing, fun url => ?_⟩
    have same : Uncovered address (marked person address state attempt) url ↔
        Uncovered address (delivered address state attempt) url := Iff.rfl
    exact same.trans uncovered_delivered

/-- A state that keeps the promise after one call is one whose call met the condition. -/
theorem marksWhenDone_iff (standing : Standing person address state) :
    MarksWhenDone address state attempt ↔
      Retriable person address (revokeVouch person address state attempt).1 := by
  rcases revokeVouch_leaves attempt standing with
    ⟨unmarked, still⟩ | ⟨⟨found, written⟩, mark, left⟩
  · have met : MarksWhenDone address state attempt := fun found written =>
      absurd ⟨found, written⟩ unmarked
    exact iff_of_true met (retriable_of_standing still)
  · rw [retriable_marked_iff mark]
    simp only [MarksWhenDone, found, written, true_implies, left, not_and, not_not]

theorem revocation_retriable_iff (standing : Standing person address state)
    (attempts : List Attempt) :
    (∀ before, before <+: attempts →
        Retriable person address (revokeAll person address state before)) ↔
      MarkedWhenDone person address state attempts := by
  induction attempts generalizing state with
  | nil =>
      simp only [List.prefix_nil, forall_eq, revokeAll, MarkedWhenDone, iff_true]
      exact retriable_of_standing standing
  | cons attempt rest induction =>
      have split : (∀ before, before <+: attempt :: rest →
          Retriable person address (revokeAll person address state before)) ↔
          Retriable person address state ∧ ∀ before, before <+: rest →
            Retriable person address
              (revokeAll person address (revokeVouch person address state attempt).1 before) := by
        simp only [List.prefix_cons_iff]
        constructor
        · intro all
          refine ⟨all [] (.inl rfl), ?_⟩
          exact fun before lies => all (attempt :: before) (.inr ⟨before, rfl, lies⟩)
        · rintro ⟨now, later⟩ before (rfl | ⟨shorter, rfl, lies⟩)
          · exact now
          · exact later shorter lies
      rw [split, MarkedWhenDone, marksWhenDone_iff standing]
      have now := retriable_of_standing standing
      rcases revokeVouch_leaves attempt standing with
        ⟨-, still⟩ | ⟨-, mark, -⟩
      · have next := retriable_of_standing still
        simp [now, next, standing, induction still]
      · simp only [now, standing, true_and, true_implies, revokeAll_marked mark,
          markedWhenDone_marked mark, and_true]
        exact ⟨fun all => all [] (List.nil_prefix), fun next _ _ => next⟩

/-! A vouch on one recording: one call delivers the revocation but cannot write the roster,
and the next one finishes. -/

def vouchedFor : SignedVouch :=
  { address := js "vouch"
    deviceKey := js "key"
    deviceLabel := js "Phone"
    deviceFingerprint := js "aa:bb"
    method := .operator
    vouchedAt := js "2026-01-01T00:00:00.000Z"
    revokedAt := none
    revocation := none }

def vouchedOnce : Withdrawal :=
  { roster := fun person =>
      if person = js "sam" then
        some
          { personKey := js "sam"
            name := js "Sam"
            firstCertificate := ⟨js "cert", ⟨.null, js "signature"⟩⟩
            pin := none
            pinFailures := none
            vouches := some [vouchedFor]
            passkeyRecords := none
            joinedAt := js "2026-01-01T00:00:00.000Z" }
      else none
    root := [none, some (js "take")]
    recordings := fun url => if url = js "take" then some [js "claim", js "vouch"] else none
    revocations := [] }

def attemptOf (outcome : Outcome) (rosterWritten : Bool) : Attempt :=
  ⟨js "revocation", js "2026-02-01T00:00:00.000Z", true, fun _ => outcome, rosterWritten⟩

theorem vouchedOnce_standing : Standing (js "sam") (js "vouch") vouchedOnce :=
  ⟨_, vouchedFor, rfl, rfl, by decide, rfl⟩

theorem revocation_retried_after_failed_mark :
    Retriable (js "sam") (js "vouch")
      (revokeAll (js "sam") (js "vouch") vouchedOnce
        [attemptOf .refused false, attemptOf .taken true]) := by
  apply (revocation_retriable_iff vouchedOnce_standing
    [attemptOf .refused false, attemptOf .taken true]).mpr
  · refine ⟨fun _ _ written => absurd written (by decide), fun _ _ _ url uncovered => ?_, trivial⟩
    obtain ⟨index, here⟩ := List.mem_iff_getElem?.mp uncovered.1
    exact ⟨index, here, rfl⟩
  · exact List.prefix_rfl

/-- The store refuses the only recording, and the second call is not made. -/
theorem refused_recording_not_retried :
    Standing (js "sam") (js "vouch") vouchedOnce ∧
      Uncovered (js "vouch") (revokeAll (js "sam") (js "vouch") vouchedOnce
        [attemptOf .refused true]) (js "take") ∧
      (revokeVouch (js "sam") (js "vouch") (revokeAll (js "sam") (js "vouch") vouchedOnce
        [attemptOf .refused true]) (attemptOf .taken true)).2 = .alreadyRevoked := by
  refine ⟨⟨_, vouchedFor, rfl, rfl, by decide, rfl⟩, ⟨by decide, ?_⟩, by decide⟩
  exact ⟨[js "claim", js "vouch"], by decide, by decide, by decide⟩

end Tapes.Vouching
