import Tapes.Js.Text
import Tapes.Machine.Run
import Tapes.Machine.Table

namespace Tapes.Recorder

open Tapes.Js Tapes.Machine

/-! The saved recordings of one device, and their uploads: one step for each await of the page. -/

/-- `claim` is none when the recorder signed none. -/
structure PendingUpload where
  docUrl : JsString
  filepath : JsString
  claim : Option JsString
deriving DecidableEq

structure BlobDescriptor where
  hash : JsString
  size : Nat
  mimeType : JsString
  ext : JsString
deriving DecidableEq

/-- What an upload reads and writes of a recording's document. -/
structure RecordingDoc where
  filepath : JsString
  blob : Option BlobDescriptor
  statements : Option (List JsString)

/-- What the host answers an upload with. -/
structure StoredBlob where
  blob : BlobDescriptor
  statements : List JsString

abbrev UploadId := Nat

/-- An upload awaits the host's answer, or the document that it writes the answer to. -/
structure Upload where
  pending : PendingUpload
  stored : Option StoredBlob

/-- `queue` is what `localStorage` keeps, and `endpoint` is none without a host. A closed page runs no
upload. `saved` lists what documents were created for. -/
structure Device where
  page : Bool
  endpoint : Option JsString
  queue : List PendingUpload
  docs : Table JsString RecordingDoc
  uploads : Table UploadId Upload
  nextUpload : UploadId
  saved : List PendingUpload

def Device.new : Device := ⟨false, none, [], .empty, .empty, 0, []⟩

def addPendingUpload (queue : List PendingUpload) (pending : PendingUpload) : List PendingUpload :=
  queue.filter (fun entry => entry.docUrl ≠ pending.docUrl) ++ [pending]

def removePendingUpload (queue : List PendingUpload) (docUrl : JsString) : List PendingUpload :=
  queue.filter fun entry => entry.docUrl ≠ docUrl

/-- `storeRecordingAudio` up to its first await. -/
def storeRecordingAudio (device : Device) (pending : PendingUpload) : Device :=
  match device.endpoint with
  | none => { device with queue := addPendingUpload device.queue pending }
  | some _ => { device with
      uploads := device.uploads.put device.nextUpload ⟨pending, none⟩
      nextUpload := device.nextUpload + 1 }

/-- The effect, which does nothing without an endpoint. -/
def retryPending (device : Device) : Device :=
  if device.endpoint.isNone then device else device.queue.foldl storeRecordingAudio device

/-- The listed statements stay, and those that are not listed yet are added. -/
def RecordingDoc.describe (doc : RecordingDoc) (stored : StoredBlob) : RecordingDoc :=
  let listed := doc.statements.getD []
  let added := stored.statements.filter fun hash => hash ∉ listed
  { doc with
    blob := some stored.blob
    statements := if added = [] then doc.statements else some (listed ++ added) }

def Device.finish (device : Device) (upload : UploadId) : Device :=
  { device with uploads := device.uploads.remove upload }

inductive DeviceAction where
  /-- `createRecordingDocument`, with a filepath and no errors. -/
  | save (docUrl filepath : JsString) (claim : Option JsString)
  | setEndpoint (endpoint : Option JsString)
  | stored (upload : UploadId) (answer : StoredBlob)
  | found (upload : UploadId)
  | failed (upload : UploadId)
  /-- The host lists a session record. -/
  | list (docUrl hash : JsString)
  | close
  | openPage (endpoint : Option JsString)

def deviceStep (device : Device) : DeviceAction → Option Device
  | .save docUrl filepath claim =>
      if device.page = true ∧ filepath ≠ [] ∧ device.docs docUrl = none then
        let created := { device with
          docs := device.docs.put docUrl ⟨filepath, none, none⟩
          saved := device.saved ++ [⟨docUrl, filepath, claim⟩] }
        some (storeRecordingAudio created ⟨docUrl, filepath, claim⟩)
      else none
  | .setEndpoint endpoint =>
      if device.page then some (retryPending { device with endpoint := endpoint }) else none
  | .stored upload answer => match device.uploads upload with
      | some ⟨pending, none⟩ =>
          some { device with uploads := device.uploads.put upload ⟨pending, some answer⟩ }
      | _ => none
  | .found upload => match device.uploads upload with
      | some ⟨pending, some answer⟩ =>
          some { device.finish upload with
            docs := device.docs.modify pending.docUrl fun doc => doc.describe answer
            queue := removePendingUpload device.queue pending.docUrl }
      | _ => none
  | .failed upload => match device.uploads upload with
      | some ⟨pending, _⟩ =>
          some { device.finish upload with queue := addPendingUpload device.queue pending }
      | none => none
  | .list docUrl hash => match device.docs docUrl with
      | some _ => some { device with
          docs := device.docs.modify docUrl fun doc =>
            { doc with statements := some (doc.statements.getD [] ++ [hash]) } }
      | none => none
  | .close => some { device with page := false, endpoint := none, uploads := .empty }
  | .openPage endpoint =>
      if device.page then none
      else some (retryPending { device with page := true, endpoint := endpoint })

end Tapes.Recorder
