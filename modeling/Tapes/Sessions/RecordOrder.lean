import Tapes.Provenance.KeyOrder
import Tapes.Sessions.SessionRecorder
import Tapes.Uploads.ClaimIngest

namespace Tapes.Sessions

open Tapes.Js Tapes.Provenance
open Tapes.Uploads (statementAddress)

/-! A session record does not depend on the order in which its parts arrived. -/

/-! ## The record as it is signed -/

def SessionSpan.toValue (span : SessionSpan) : JsValue :=
  .object [(js "joinedAt", .string span.joinedAt), (js "leftAt", .string span.leftAt)]

def SessionDevice.toValue (device : SessionDevice) : JsValue :=
  .object [(js "deviceKey", .string device.deviceKey),
    (js "label", device.label.elim .undefined .string),
    (js "spans", .array (device.spans.map SessionSpan.toValue))]

def SessionRecord.toValue (record : SessionRecord) : JsValue :=
  .object [(js "type", .string sessionRecordType), (js "sessionId", .string record.sessionId),
    (js "openedAt", .string record.openedAt), (js "closedAt", .string record.closedAt),
    (js "devices", .array (record.devices.map SessionDevice.toValue)),
    (js "claims", .array (record.claims.map .string)), (js "hostKey", .string record.hostKey)]

/-- The bytes under a record's signature. -/
def signatureInput (record : SessionRecord) : Option Bytes :=
  (canonicalJson (SessionRecord.toValue record)).map utf8Encode

/-- `signStatement` with the host's key. Ed25519 signs the same bytes the same way. -/
def signRecord (sign : Bytes → JsString) (record : SessionRecord) : Option (Signed JsValue) :=
  (signatureInput record).map fun bytes => ⟨SessionRecord.toValue record, sign bytes⟩

def recordAddress (platform : Provenance.Platform) (sign : Bytes → JsString) (record : SessionRecord) :
    Option JsString :=
  (signRecord sign record).bind (statementAddress platform)

/-! ## The orders -/

instance : Std.Total fun left right : JsString => compareOrder left right = true := by
  refine ⟨fun left right => ?_⟩
  unfold compareOrder
  cases less : lessThan right left with
  | false => exact .inl rfl
  | true => exact .inr (by rw [lessThan_asymm less]; rfl)

theorem compareOrder_trans {first second third : JsString} (left : compareOrder first second = true)
    (right : compareOrder second third = true) : compareOrder first third = true := by
  unfold compareOrder at *
  rw [Bool.not_eq_true'] at *
  exact not_lessThan_trans left right

theorem eq_of_compareOrder {left right : JsString} (before : compareOrder left right = true)
    (after : compareOrder right left = true) : left = right := by
  unfold compareOrder at *
  rw [Bool.not_eq_true'] at *
  exact eq_of_not_lessThan after before

instance : IsTrans JsString fun left right => compareOrder left right = true :=
  ⟨fun _ _ _ => compareOrder_trans⟩

instance : Std.Total fun left right : SessionDevice =>
    compareOrder left.deviceKey right.deviceKey = true :=
  ⟨fun left right => Std.Total.total (r := fun left right : JsString => compareOrder left right = true)
    left.deviceKey right.deviceKey⟩

instance : IsTrans SessionDevice fun left right =>
    compareOrder left.deviceKey right.deviceKey = true :=
  ⟨fun _ _ _ => compareOrder_trans⟩

theorem spanOrder_iff {left right : SessionSpan} : spanOrder left right = true ↔
    lessThan left.joinedAt right.joinedAt = true ∨
      left.joinedAt = right.joinedAt ∧ compareOrder left.leftAt right.leftAt = true := by
  rw [spanOrder, Bool.or_eq_true, Bool.and_eq_true, decide_eq_true_eq]

theorem lessThan_irrefl (text : JsString) : lessThan text text = false := by
  cases less : lessThan text text with
  | false => rfl
  | true =>
      have back := lessThan_asymm less
      rw [less] at back
      cases back

theorem lessThan_trans {first second third : JsString} (left : lessThan first second = true)
    (right : lessThan second third = true) : lessThan first third = true := by
  cases less : lessThan first third with
  | true => rfl
  | false =>
      have back := not_lessThan_trans (lessThan_asymm right) less
      rw [left] at back
      cases back

instance : Std.Total fun left right : SessionSpan => spanOrder left right = true := by
  refine ⟨fun left right => ?_⟩
  rw [spanOrder_iff, spanOrder_iff]
  cases less : lessThan left.joinedAt right.joinedAt with
  | true => exact .inl (.inl rfl)
  | false =>
      cases more : lessThan right.joinedAt left.joinedAt with
      | true => exact .inr (.inl rfl)
      | false =>
          have same := eq_of_not_lessThan less more
          have total := Std.Total.total (r := fun left right : JsString => compareOrder left right = true)
            left.leftAt right.leftAt
          exact total.imp (fun before => .inr ⟨same, before⟩) fun after => .inr ⟨same.symm, after⟩

instance : IsTrans SessionSpan fun left right => spanOrder left right = true := by
  refine ⟨fun first second third => ?_⟩
  rw [spanOrder_iff, spanOrder_iff, spanOrder_iff]
  rintro (less | ⟨same, before⟩) (later | ⟨also, after⟩)
  · exact .inl (lessThan_trans less later)
  · exact .inl (also ▸ less)
  · exact .inl (same ▸ later)
  · exact .inr ⟨same.trans also, compareOrder_trans before after⟩

theorem eq_of_spanOrder {left right : SessionSpan} (before : spanOrder left right = true)
    (after : spanOrder right left = true) : left = right := by
  rw [spanOrder_iff] at before after
  rcases before with less | ⟨same, before⟩
  · rcases after with more | ⟨same, -⟩
    · rw [lessThan_asymm less] at more
      cases more
    · rw [same, lessThan_irrefl] at less
      cases less
  · rcases after with more | ⟨-, after⟩
    · rw [same, lessThan_irrefl] at more
      cases more
    · cases left
      cases right
      rw [SessionSpan.mk.injEq]
      exact ⟨same, eq_of_compareOrder before after⟩

/-! ## What arrived -/

/-- The same device, its spans in some other order. -/
structure SameDevice (left right : SessionDevice) : Prop where
  key : left.deviceKey = right.deviceKey
  label : left.label = right.label
  spans : left.spans.Perm right.spans

/-- The same devices in some other order, each with its spans in some other order. -/
def SameDevices (left right : List SessionDevice) : Prop :=
  ∃ reordered, List.Forall₂ SameDevice left reordered ∧ reordered.Perm right

theorem sortSpans_eq_of_perm {left right : List SessionSpan} (same : left.Perm right) :
    sortSpans left = sortSpans right :=
  insertionSort_eq_of_perm same fun _ _ _ _ => eq_of_spanOrder

def sortedDevice (device : SessionDevice) : SessionDevice :=
  { device with spans := sortSpans device.spans }

theorem sortedDevice_same {left right : SessionDevice} (same : SameDevice left right) :
    sortedDevice left = sortedDevice right := by
  obtain ⟨key, label, spans⟩ := same
  cases left
  cases right
  cases key
  cases label
  rw [sortedDevice, sortedDevice, SessionDevice.mk.injEq]
  exact ⟨rfl, rfl, sortSpans_eq_of_perm spans⟩

theorem map_sortedDevice {left right : List SessionDevice} (same : List.Forall₂ SameDevice left right) :
    left.map sortedDevice = right.map sortedDevice := by
  induction same with
  | nil => rfl
  | cons first _ induction => rw [List.map_cons, List.map_cons, sortedDevice_same first, induction]

section

variable (platform : RecorderPlatform) (sessionId : JsString) (openedAt closedAt : Int)

theorem createSessionRecord_devices (devices : List SessionDevice) (claims : List JsString) :
    (createSessionRecord platform sessionId openedAt closedAt devices claims).devices =
      (devices.map sortedDevice).insertionSort fun left right =>
        compareOrder left.deviceKey right.deviceKey := rfl

theorem devices_of_any_order {left right : List SessionDevice}
    (distinct : (left.map SessionDevice.deviceKey).Nodup) (same : SameDevices left right)
    (leftClaims rightClaims : List JsString) :
    (createSessionRecord platform sessionId openedAt closedAt left leftClaims).devices =
      (createSessionRecord platform sessionId openedAt closedAt right rightClaims).devices := by
  obtain ⟨reordered, each, perm⟩ := same
  rw [createSessionRecord_devices, createSessionRecord_devices, map_sortedDevice each]
  apply insertionSort_eq_of_perm (perm.map sortedDevice)
  intro first firstIn second secondIn before after
  rw [← map_sortedDevice each] at firstIn secondIn
  have keys : ((left.map sortedDevice).map SessionDevice.deviceKey).Nodup := by
    rw [List.map_map]
    exact distinct
  exact List.inj_on_of_nodup_map keys firstIn secondIn (eq_of_compareOrder before after)

theorem claims_of_any_order {leftClaims rightClaims : List JsString}
    (same : ∀ claim, claim ∈ leftClaims ↔ claim ∈ rightClaims) (left right : List SessionDevice) :
    (createSessionRecord platform sessionId openedAt closedAt left leftClaims).claims =
      (createSessionRecord platform sessionId openedAt closedAt right rightClaims).claims := by
  have perm : (leftClaims.foldl addTo []).Perm (rightClaims.foldl addTo []) := by
    rw [List.perm_ext_iff_of_nodup (nodup_foldl_addTo List.nodup_nil _)
      (nodup_foldl_addTo List.nodup_nil _)]
    intro claim
    simp only [mem_foldl_addTo, List.not_mem_nil, false_or, same]
  exact insertionSort_eq_of_perm perm fun _ _ _ _ => eq_of_compareOrder

/-- The record has what was given, each claim once. -/
structure KeepsAll (devices : List SessionDevice) (claims : List JsString) (record : SessionRecord) :
    Prop where
  devices : SameDevices devices record.devices
  claims : ∀ claim, claim ∈ record.claims ↔ claim ∈ claims
  once : record.claims.Nodup

theorem createSessionRecord_keepsAll (devices : List SessionDevice) (claims : List JsString) :
    KeepsAll devices claims
      (createSessionRecord platform sessionId openedAt closedAt devices claims) where
  devices := by
    refine ⟨devices.map sortedDevice, ?_, (List.perm_insertionSort _ _).symm⟩
    rw [List.forall₂_map_right_iff, List.forall₂_same]
    exact fun device _ => ⟨rfl, rfl, (List.perm_insertionSort _ _).symm⟩
  claims := by
    intro claim
    simp only [createSessionRecord, List.mem_insertionSort, mem_foldl_addTo, List.not_mem_nil,
      false_or]
  once := (List.perm_insertionSort _ _).nodup_iff.mpr (nodup_foldl_addTo List.nodup_nil _)

/-! ## The property -/

theorem session_record_of_any_order (addresses : Provenance.Platform) (sign : Bytes → JsString)
    (left right : List SessionDevice) (leftClaims rightClaims : List JsString)
    (distinct : (left.map SessionDevice.deviceKey).Nodup) (devices : SameDevices left right)
    (claims : ∀ claim, claim ∈ leftClaims ↔ claim ∈ rightClaims) :
    let first := createSessionRecord platform sessionId openedAt closedAt left leftClaims
    let second := createSessionRecord platform sessionId openedAt closedAt right rightClaims
    first = second ∧ signatureInput first = signatureInput second ∧
      recordAddress addresses sign first = recordAddress addresses sign second ∧
      KeepsAll left leftClaims first ∧ KeepsAll right rightClaims second := by
  intro first second
  have same : first = second := by
    have sameDevices := devices_of_any_order platform sessionId openedAt closedAt distinct devices
      leftClaims rightClaims
    have sameClaims := claims_of_any_order platform sessionId openedAt closedAt claims left right
    rw [SessionRecord.mk.injEq]
    exact ⟨rfl, rfl, rfl, sameDevices, sameClaims, rfl⟩
  have kept := createSessionRecord_keepsAll platform sessionId openedAt closedAt left leftClaims
  have keptToo := createSessionRecord_keepsAll platform sessionId openedAt closedAt right rightClaims
  exact ⟨same, by rw [same], by rw [same], kept, keptToo⟩

end

/-! A sample: two devices the other way round, one with its two spans the other way round, and a
claim that came twice. -/

def sampleRecorder : RecorderPlatform where
  hostKey := js "host"
  toISOString := toISOString
  storedHash _ := []
  statementAt _ := none

def morning : SessionSpan := ⟨js "2024-05-01T08:00:00.000Z", js "2024-05-01T09:00:00.000Z"⟩

def evening : SessionSpan := ⟨js "2024-05-01T18:00:00.000Z", js "2024-05-01T19:00:00.000Z"⟩

theorem sample_record_of_any_order :
    let left := [⟨js "phone", none, [morning, evening]⟩, ⟨js "tablet", some (js "Studio"), [morning]⟩]
    let right := [⟨js "tablet", some (js "Studio"), [morning]⟩, ⟨js "phone", none, [evening, morning]⟩]
    let platform : Provenance.Platform := ⟨fun _ => [], fun _ => true, fun _ _ _ => true, fun _ => none⟩
    let first := createSessionRecord sampleRecorder (js "s") 0 1 left [js "b", js "a"]
    let second := createSessionRecord sampleRecorder (js "s") 0 1 right [js "a", js "b", js "a"]
    first = second ∧ signatureInput first = signatureInput second ∧
      recordAddress platform toBase64Url first = recordAddress platform toBase64Url second ∧
      KeepsAll left [js "b", js "a"] first ∧ KeepsAll right [js "a", js "b", js "a"] second := by
  intro left right platform
  apply session_record_of_any_order
  · decide
  · refine ⟨[⟨js "phone", none, [evening, morning]⟩, ⟨js "tablet", some (js "Studio"), [morning]⟩],
      .cons ⟨rfl, rfl, .swap ..⟩ (.cons ⟨rfl, rfl, .refl _⟩ .nil), .swap ..⟩
  · intro claim
    simp only [List.mem_cons, List.not_mem_nil, or_false]
    exact ⟨fun member => member.elim (.inr ∘ .inl) .inl,
      fun member => member.elim .inr (Or.elim · .inl .inr)⟩

end Tapes.Sessions
