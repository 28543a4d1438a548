import Tapes.Roster.RosterFile

namespace Tapes.Roster

open Tapes.Js Tapes.Provenance

/-! What the host writes of a roster reads back: every entry passes the check. -/

/-- Numbers that JavaScript counts exactly, and a certificate of JSON data. -/
structure Writable (entry : RosterEntry) : Prop where
  iterations : ∀ pin, entry.pin = some pin → pin.iterations < 2 ^ 53
  failures : ∀ count, entry.pinFailures = some count → count < 2 ^ 53
  certificate : IsData entry.firstCertificate.signed.payload

/-- The entry with its certificate's payload as it reads back. -/
def RosterEntry.reread (entry : RosterEntry) : RosterEntry :=
  { entry with firstCertificate :=
      ⟨entry.firstCertificate.address,
        ⟨Js.reread entry.firstCertificate.signed.payload,
          entry.firstCertificate.signed.signature⟩⟩ }

/-! ## Numbers -/

theorem exists_magnitude {value exponent : Nat} (small : value < 2 ^ 53)
    (enough : exponent = 1074) : ∃ magnitude : Magnitude,
      magnitude.units = value * 2 ^ exponent ∧ isWhole magnitude = true ∧
        wholeOf magnitude = value := by
  by_cases zero : value = 0
  · subst zero
    refine ⟨.zero, ?_, ?_, ?_⟩
    · rw [Nat.zero_mul, Magnitude.units, Magnitude.zero, Nat.zero_mul]
    · rw [isWhole, Magnitude.zero, Nat.zero_mod, decide_eq_true rfl]
    · rw [wholeOf, Magnitude.zero, Nat.zero_mul, Nat.zero_div]
  · let shift := 52 - Nat.log2 value
    have bits : Nat.log2 value < 53 := (Nat.log2_lt zero).mpr small
    have split : Nat.log2 value + shift = 52 := by omega
    have lower : 2 ^ 52 ≤ value * 2 ^ shift := by
      rw [← split, pow_add]
      exact Nat.mul_le_mul_right _ (Nat.log2_self_le zero)
    have upper : value * 2 ^ shift < 2 ^ 53 := by
      have above : value < 2 ^ (Nat.log2 value + 1) := (Nat.log2_lt zero).mp (Nat.lt_succ_self _)
      have exponents : Nat.log2 value + 1 + shift = 53 := by omega
      calc value * 2 ^ shift
          < 2 ^ (Nat.log2 value + 1) * 2 ^ shift :=
            Nat.mul_lt_mul_of_pos_right above (Nat.two_pow_pos _)
        _ = 2 ^ 53 := by rw [← pow_add, exponents]
    have fits : exponent - shift ≤ 2045 := by omega
    have whole : shift + (exponent - shift) = exponent := by omega
    have below : 1074 - (exponent - shift) = shift := by omega
    have above : exponent - shift - 1074 = 0 := by omega
    refine ⟨⟨value * 2 ^ shift, exponent - shift, upper, fits, .inr lower⟩, ?_, ?_, ?_⟩
    · rw [Magnitude.units, mul_assoc, ← pow_add, whole]
    · rw [isWhole, below, Nat.mul_mod_left, decide_eq_true rfl]
    · rw [wholeOf, below, above, Nat.pow_zero, Nat.mul_one,
        Nat.mul_div_cancel _ (Nat.two_pow_pos _)]

theorem ofDecimal_zero (value : Nat) {exponent : Nat} (enough : exponent = 1074) :
    ofDecimal value 0 = ofUnits (value * 2 ^ exponent) 1 := by
  rw [enough]
  have none : value * 10 ^ (0 : Int).toNat = value := by
    rw [Int.toNat_zero, Nat.pow_zero, Nat.mul_one]
  calc ofDecimal value 0
      = ofUnits (value * 10 ^ (0 : Int).toNat * 2 ^ 1074) 1 := if_pos (le_refl _)
    _ = ofUnits (value * 2 ^ 1074) 1 := by rw [none]

theorem wholeNumber_read {value : Nat} (small : value < 2 ^ 53) :
    (rereadField (wholeNumber value)).isUndefined = false ∧
      isInteger (rereadField (wholeNumber value)) = true ∧
      readNumber (rereadField (wholeNumber value)) = some value := by
  obtain ⟨exponent, enough⟩ : ∃ exponent, exponent = 1074 := ⟨1074, rfl⟩
  obtain ⟨magnitude, units, whole, read⟩ := exists_magnitude small enough
  have exactly := ofUnits_exact magnitude Nat.one_pos
  rw [Nat.mul_one, units, ← ofDecimal_zero value enough] at exactly
  have written : rereadField (wholeNumber value) = .number (.finite false magnitude) := by
    rw [wholeNumber, exactly, Option.elim_some, rereadField_defined rfl, reread, JsNumber.written,
      Bool.false_and]
  rw [written, isInteger, readNumber, if_pos whole, read]
  exact ⟨rfl, whole, rfl⟩

/-! ## The objects inside an entry -/

theorem isObjectLike_reread (members : List (JsString × JsValue)) :
    (reread (.object members)).isObjectLike = true := rfl

theorem isString_string (text : JsString) : isString (.string text) = true := rfl

theorem pinHash_distinct (pin : PinHash) : ((pinHashMembers pin).map Prod.fst).Nodup := by
  have keys : (pinHashMembers pin).map Prod.fst = [js "salt", js "hash", js "iterations"] := rfl
  rw [keys]
  decide

theorem get_pinHash (pin : PinHash) {key : JsString} {value : JsValue}
    (member : (key, value) ∈ pinHashMembers pin) :
    (reread (.object (pinHashMembers pin))).get key = rereadField value :=
  get_reread (pinHash_distinct pin) member

theorem pinHash_read {pin : PinHash} (small : pin.iterations < 2 ^ 53) :
    isPinHash (reread (.object (pinHashMembers pin))) = true ∧
      readPinHash (reread (.object (pinHashMembers pin))) = some pin := by
  have salt := get_pinHash pin (List.mem_cons_self ..)
  have hash := get_pinHash pin (.tail _ (List.mem_cons_self ..))
  have iterations := get_pinHash pin (.tail _ (.tail _ (List.mem_cons_self ..)))
  obtain ⟨-, integer, number⟩ := wholeNumber_read small
  constructor
  · simp only [isPinHash, isObjectLike_reread, salt, hash, iterations, integer, rereadField_string,
      isString_string, Bool.and_true]
  · simp only [readPinHash, stringField, salt, hash, iterations, number, rereadField_string]
    rfl

theorem signedVouch_distinct (vouch : SignedVouch) :
    ((signedVouchMembers vouch).map Prod.fst).Nodup := by
  have keys : (signedVouchMembers vouch).map Prod.fst = [js "address", js "deviceKey",
    js "deviceLabel", js "deviceFingerprint", js "method", js "vouchedAt", js "revokedAt",
    js "revocation"] := rfl
  rw [keys]
  decide

theorem get_signedVouch (vouch : SignedVouch) {key : JsString} {value : JsValue}
    (member : (key, value) ∈ signedVouchMembers vouch) :
    (reread (.object (signedVouchMembers vouch))).get key = rereadField value :=
  get_reread (signedVouch_distinct vouch) member

theorem vouchMethod?_methodText (method : VouchMethod) :
    vouchMethod? (.string (methodText method)) = some method := by
  cases method <;> decide

theorem optionalString_read (text : Option JsString) :
    isOptionalString (rereadField (optionalValue .string text)) = true := by
  cases text <;> rfl

theorem signedVouch_read (vouch : SignedVouch) :
    isSignedVouch (reread (.object (signedVouchMembers vouch))) = true ∧
      readSignedVouch (reread (.object (signedVouchMembers vouch))) = some vouch := by
  have get {key : JsString} {value : JsValue}
      (member : (key, value) ∈ signedVouchMembers vouch) := get_signedVouch vouch member
  have address := get (List.mem_cons_self ..)
  have deviceKey := get (.tail _ (List.mem_cons_self ..))
  have deviceLabel := get (.tail _ (.tail _ (List.mem_cons_self ..)))
  have deviceFingerprint := get (.tail _ (.tail _ (.tail _ (List.mem_cons_self ..))))
  have method := get (.tail _ (.tail _ (.tail _ (.tail _ (List.mem_cons_self ..)))))
  have vouchedAt := get (.tail _ (.tail _ (.tail _ (.tail _ (.tail _ (List.mem_cons_self ..))))))
  have revokedAt := get
    (.tail _ (.tail _ (.tail _ (.tail _ (.tail _ (.tail _ (List.mem_cons_self ..)))))))
  have revocation := get
    (.tail _ (.tail _ (.tail _ (.tail _ (.tail _ (.tail _ (.tail _ (List.mem_cons_self ..))))))))
  constructor
  · simp only [isSignedVouch, address, deviceKey, deviceLabel, deviceFingerprint, method,
      vouchedAt, revokedAt, revocation, rereadField_string, vouchMethod?_methodText,
      optionalString_read]
    rfl
  · obtain ⟨_, _, _, _, _, _, revoked, revoker⟩ := vouch
    simp only [readSignedVouch, stringField, optionalStringField, address, deviceKey, deviceLabel,
      deviceFingerprint, method, vouchedAt, revokedAt, revocation, rereadField_string,
      vouchMethod?_methodText]
    cases revoked <;> cases revoker <;> rfl

theorem passkeyRecord_distinct (stored : StoredPasskeyRecord) :
    ((passkeyRecordMembers stored).map Prod.fst).Nodup := by
  have keys : (passkeyRecordMembers stored).map Prod.fst =
    [js "credentialId", js "tokenHash", js "record", js "storedAt"] := rfl
  rw [keys]
  decide

theorem passkeyRecord_read (stored : StoredPasskeyRecord) :
    isStoredPasskeyRecord (reread (.object (passkeyRecordMembers stored))) = true ∧
      readPasskeyRecord (reread (.object (passkeyRecordMembers stored))) = some stored := by
  have get {key : JsString} {value : JsValue}
      (member : (key, value) ∈ passkeyRecordMembers stored) :=
    get_reread (passkeyRecord_distinct stored) member
  have credentialId := get (List.mem_cons_self ..)
  have tokenHash := get (.tail _ (List.mem_cons_self ..))
  have record := get (.tail _ (.tail _ (List.mem_cons_self ..)))
  have storedAt := get (.tail _ (.tail _ (.tail _ (List.mem_cons_self ..))))
  constructor
  · rw [isStoredPasskeyRecord, credentialId, tokenHash, record, storedAt]
    rfl
  · simp only [readPasskeyRecord, stringField, credentialId, tokenHash, record, storedAt]
    rfl

theorem firstCertificate_read {certificate : FirstCertificate}
    (data : IsData certificate.signed.payload) :
    readFirstCertificate (reread (.object (firstCertificateMembers certificate))) =
        some ⟨certificate.address,
          ⟨reread certificate.signed.payload, certificate.signed.signature⟩⟩ ∧
      isString ((reread (.object (firstCertificateMembers certificate))).get (js "address")) =
        true ∧
      isString (((reread (.object (firstCertificateMembers certificate))).get
        (js "signed")).get (js "signature")) = true := by
  have distinct : ((firstCertificateMembers certificate).map Prod.fst).Nodup := by
    have keys : (firstCertificateMembers certificate).map Prod.fst =
      [js "address", js "signed"] := rfl
    rw [keys]
    decide
  have address := get_reread distinct (List.mem_cons_self ..)
  have signed := get_reread distinct (.tail _ (List.mem_cons_self ..))
  let wrapper := [(js "payload", certificate.signed.payload),
    (js "signature", JsValue.string certificate.signed.signature)]
  have names : (wrapper.map Prod.fst).Nodup := by
    have keys : wrapper.map Prod.fst = [js "payload", js "signature"] := rfl
    rw [keys]
    decide
  have payload := get_reread names (List.mem_cons_self ..)
  have signature := get_reread names (.tail _ (List.mem_cons_self ..))
  have defined : certificate.signed.payload.isUndefined = false := by
    cases held : certificate.signed.payload with
    | undefined =>
        rw [held] at data
        exact absurd data id
    | _ => rfl
  rw [defined] at payload
  have wrapped : (reread (.object (firstCertificateMembers certificate))).get (js "signed") =
      reread (.object wrapper) := signed
  refine ⟨?_, ?_, ?_⟩
  · simp only [readFirstCertificate, stringField, wrapped, address, signature, payload]
    rfl
  · rw [address]
    rfl
  · rw [wrapped, signature]
    rfl

/-! ## Entries -/

theorem Field.mem_all (field : Field) : field ∈ Field.all := by
  cases field <;> decide

theorem Field.key_injective {left right : Field} (same : left.key = right.key) : left = right := by
  have keys : ∀ left ∈ Field.all, ∀ right ∈ Field.all, left.key = right.key → left = right := by
    decide
  exact keys left left.mem_all right right.mem_all same

theorem entryMembers_distinct {order : List Field} (distinct : order.Nodup) (entry : RosterEntry) :
    ((entryMembers order entry).map Prod.fst).Nodup := by
  have keys : (entryMembers order entry).map Prod.fst = order.map Field.key := by
    simp [entryMembers]
  rw [keys]
  exact distinct.map fun _ _ => Field.key_injective

theorem lookup_entryMembers (field : Field) (order : List Field) (entry : RosterEntry) :
    JsValue.lookup field.key (entryMembers order entry) =
      if field ∈ order then field.value entry else .undefined := by
  induction order with
  | nil => rfl
  | cons first rest induction =>
      rw [entryMembers, List.map_cons, JsValue.lookup]
      by_cases same : first = field
      · simp [same]
      · have other : first.key ≠ field.key := fun keys => same (Field.key_injective keys)
        have later : ¬ field = first := fun equal => same equal.symm
        rw [if_neg other]
        simpa [entryMembers, later] using induction

/-- Whatever the order, each field reads back. -/
theorem get_entry {order : List Field} {entry : RosterEntry} (ordered : Order order entry)
    (field : Field) :
    (reread (.object (entryMembers order entry))).get field.key =
      rereadField (field.value entry) := by
  rw [get_reread_object _ (entryMembers_distinct ordered.distinct entry), lookup_entryMembers]
  split
  · rfl
  · rename_i absent
    cases missing : (field.value entry).isUndefined with
    | true => rw [rereadField_undefined, rereadField, if_pos missing]
    | false => exact absurd (ordered.present field field.mem_all missing) absent

theorem rereadItems_map (write : α → JsValue) (values : List α) :
    rereadItems (values.map write) = values.map fun value => reread (write value) := by
  induction values with
  | nil => rfl
  | cons value rest induction => rw [List.map_cons, rereadItems, induction, List.map_cons]

theorem mapM_read {read : JsValue → Option α} {write : β → JsValue} {again : β → α}
    {values : List β} (reads : ∀ value ∈ values, read (write value) = some (again value)) :
    (values.map write).mapM read = some (values.map again) := by
  induction values with
  | nil => rfl
  | cons value rest induction =>
      have first := reads value List.mem_cons_self
      have later := induction fun other member => reads other (List.mem_cons_of_mem value member)
      simp [first, later]

/-- An optional list of objects that each pass their check. -/
theorem optionalItems_read {members : α → List (JsString × JsValue)} {holds : JsValue → Bool}
    {read : JsValue → Option α}
    (passes : ∀ value, holds (reread (.object (members value))) = true ∧
      read (reread (.object (members value))) = some value) (values : Option (List α)) :
    everyItem holds (rereadField (optionalValue
        (fun values => .array (values.map fun value => .object (members value))) values)) =
        some true ∧
      readOptional (readItems read) (rereadField (optionalValue
        (fun values => .array (values.map fun value => .object (members value))) values)) =
        some values := by
  cases values with
  | none => exact ⟨rfl, rfl⟩
  | some values =>
      have items := rereadItems_map (fun value => JsValue.object (members value)) values
      simp only [optionalValue, Option.elim, rereadField_array, items]
      constructor
      · simp only [everyItem, Option.some.injEq, List.all_map, List.all_eq_true]
        intro value _
        exact (passes value).1
      · have each : (values.map fun value => reread (JsValue.object (members value))).mapM read =
            some (values.map id) := mapM_read fun value _ => (passes value).2
        simp [readOptional, readItems, JsValue.isUndefined, JsValue.array?, each]

theorem entry_read {order : List Field} {entry : RosterEntry} (ordered : Order order entry)
    (writable : Writable entry) :
    isRosterEntry (reread (.object (entryMembers order entry))) = some true ∧
      readEntry (reread (.object (entryMembers order entry))) = some entry.reread := by
  have personKey := get_entry ordered .personKey
  have name := get_entry ordered .name
  have firstCertificate := get_entry ordered .firstCertificate
  have pin := get_entry ordered .pin
  have pinFailures := get_entry ordered .pinFailures
  have vouches := get_entry ordered .vouches
  have passkeyRecords := get_entry ordered .passkeyRecords
  have joinedAt := get_entry ordered .joinedAt
  simp only [Field.key, Field.value, rereadField_string, rereadField_object]
    at personKey name firstCertificate pin pinFailures vouches passkeyRecords joinedAt
  obtain ⟨certified, address, signature⟩ := firstCertificate_read writable.certificate
  obtain ⟨vouch_checks, vouch_reads⟩ := optionalItems_read signedVouch_read entry.vouches
  obtain ⟨record_checks, record_reads⟩ := optionalItems_read passkeyRecord_read entry.passkeyRecords
  have pins : ((rereadField (optionalValue (fun pin => .object (pinHashMembers pin))
      entry.pin)).isUndefined || isPinHash (rereadField (optionalValue
        (fun pin => .object (pinHashMembers pin)) entry.pin))) = true ∧
      readOptional readPinHash (rereadField (optionalValue
        (fun pin => .object (pinHashMembers pin)) entry.pin)) = some entry.pin := by
    cases held : entry.pin with
    | none => exact ⟨rfl, rfl⟩
    | some pin =>
        obtain ⟨checks, reads⟩ := pinHash_read (writable.iterations pin held)
        simp only [optionalValue, Option.elim, rereadField_object, checks, Bool.or_true, true_and]
        rw [readOptional, reads]
        rfl
  have counts : ((rereadField (optionalValue wholeNumber entry.pinFailures)).isUndefined ||
      isInteger (rereadField (optionalValue wholeNumber entry.pinFailures))) = true ∧
      readOptional readNumber (rereadField (optionalValue wholeNumber entry.pinFailures)) =
        some entry.pinFailures := by
    cases held : entry.pinFailures with
    | none => exact ⟨rfl, rfl⟩
    | some count =>
        obtain ⟨defined, integer, number⟩ := wholeNumber_read (writable.failures count held)
        simp only [optionalValue, Option.elim, integer, Bool.or_true, true_and]
        rw [readOptional, defined, number]
        rfl
  constructor
  · simp only [isRosterEntry, isObjectLike_reread, isString_string, personKey, name,
      firstCertificate, pin, pinFailures, vouches, passkeyRecords, joinedAt, address, signature,
      pins.1, counts.1, vouch_checks, record_checks, Bool.and_self, if_true, Option.bind_eq_bind,
      Option.bind_some, Bool.true_eq_false, if_false, Option.pure_def]
  · simp only [readEntry, stringField, personKey, name, firstCertificate, pin, pinFailures,
      vouches, passkeyRecords, joinedAt, certified, pins.2, counts.2, vouch_reads, record_reads]
    rfl

/-! ## The whole file -/

theorem filterItems_all {holds : JsValue → Option Bool} {items : List JsValue}
    (all : ∀ item ∈ items, holds item = some true) : filterItems holds items = some items := by
  induction items with
  | nil => rfl
  | cons item rest induction =>
      have later := induction fun other member => all other (List.mem_cons_of_mem item member)
      simp [filterItems, all item List.mem_cons_self, later]

theorem readRoster_rosterText {layout : RosterEntry → List Field} {people : List RosterEntry}
    (ordered : ∀ entry ∈ people, Order (layout entry) entry)
    (writable : ∀ entry ∈ people, Writable entry) :
    readRoster (rosterText layout people) = some (people.map RosterEntry.reread) := by
  have gaps : Spaces (js "  ") := List.all_eq_true.mp (by decide)
  have line : Spaces (js "\n") := List.all_eq_true.mp (by decide)
  have none : Spaces [] := by simp [Spaces]
  have parsed : parse (rosterText layout people) = some (reread (rosterValue layout people)) :=
    parse_indented gaps none line (rosterValue layout people)
  have listed : (reread (rosterValue layout people)).get (js "people") =
      .array (rereadItems (people.map fun entry =>
        .object (entryMembers (layout entry) entry))) := by
    have single : ([(js "people", JsValue.array (people.map fun entry =>
        .object (entryMembers (layout entry) entry)))].map Prod.fst).Nodup :=
      List.nodup_singleton _
    exact get_reread single (List.mem_cons_self ..)
  have passes : ∀ entry ∈ people,
      isRosterEntry (reread (.object (entryMembers (layout entry) entry))) = some true ∧
        readEntry (reread (.object (entryMembers (layout entry) entry))) = some entry.reread :=
    fun entry member => entry_read (ordered entry member) (writable entry member)
  have kept : filterItems isRosterEntry (rereadItems (people.map fun entry =>
      .object (entryMembers (layout entry) entry))) =
      some (people.map fun entry => reread (.object (entryMembers (layout entry) entry))) := by
    rw [rereadItems_map]
    apply filterItems_all
    intro item member
    obtain ⟨entry, inside, rfl⟩ := List.mem_map.mp member
    exact (passes entry inside).1
  have read : (people.map fun entry => reread (.object (entryMembers (layout entry) entry))).mapM
      readEntry = some (people.map RosterEntry.reread) :=
    mapM_read fun entry member => (passes entry member).2
  simp only [readRoster, readPeople, filePeople, parsed, listed, JsValue.array?, kept,
    Option.bind_eq_bind, Option.bind_some, read]

end Tapes.Roster
