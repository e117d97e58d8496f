import Mathlib.Data.Int.Notation
import Mathlib.Data.List.Basic

/-!
# The data of `EventsManager`

Events and snaps as `EventsManager` builds, checks and buffers them. A snap is an event together with
a group of files. The strings are byte strings in UTF-8, and their lengths are in bytes.

The callbacks of a snap are an optional `std::function` each, which may be null as well. Both are the
same to the code, so that a callback is an `Option` of what the user's function does, of any type
`K`.
-/

namespace DepthaiCore

namespace EventsManager

/-- `EVENT_BUFFER_MAX_SIZE`. -/
def eventBufferMaxSize : ℕ := 300

def maxAttempts : ℕ := 10

def eventValidationNameLength : ℕ := 56
def eventValidationMaxTags : ℕ := 20
def eventValidationTagLength : ℕ := 56
def eventValidationMaxExtras : ℕ := 25
def eventValidationExtraKeyLength : ℕ := 40
def eventValidationExtraValueLength : ℕ := 100
def eventValidationMaxAssociateFiles : ℕ := 20

structure Event where
  name : String
  createdAt : ℤ
  tags : List String
  extras : List (String × String)
  associateFiles : List String
  deriving DecidableEq, Repr

def validateEvent (inputEvent : Event) : Bool :=
  if inputEvent.name.isEmpty then false
  else if inputEvent.name.utf8ByteSize > eventValidationNameLength then false
  else if inputEvent.tags.length > eventValidationMaxTags then false
  else if inputEvent.tags.any fun tag =>
      tag.isEmpty || tag.utf8ByteSize > eventValidationTagLength then false
  else if inputEvent.extras.length > eventValidationMaxExtras then false
  else if inputEvent.extras.any fun extra => extra.1.isEmpty ||
      extra.1.utf8ByteSize > eventValidationExtraKeyLength ||
      extra.2.utf8ByteSize > eventValidationExtraValueLength then false
  else if inputEvent.associateFiles.length > eventValidationMaxAssociateFiles then false
  else true

/-- An element of `eventBuffer`. -/
structure EventData (K : Type*) where
  localID : String
  event : Event
  onSuccess : Option K
  onFailure : Option K
  deriving DecidableEq, Repr

/-- A file of a snap. -/
structure FileData where
  mimeType : String
  fileTag : String
  data : List UInt8
  deriving DecidableEq, Repr

/-- `FileData::size`, which every constructor sets to the length of the data. -/
def FileData.size (file : FileData) : ℕ := file.data.length

/-- An element of `snapBuffer`. -/
structure SnapData (K : Type*) where
  eventData : EventData K
  fileGroup : List FileData
  deriving DecidableEq, Repr

/-- The check of the files that `sendSnap` makes. -/
def validateFiles (maxFilesPerGroup maxFileSizeBytes : ℕ) (fileGroup : List FileData) : Bool :=
  if fileGroup.length > maxFilesPerGroup then false
  else if fileGroup.isEmpty then false
  else if fileGroup.any fun file => file.size ≥ maxFileSizeBytes then false
  else true

inductive EventResult
  | accepted (id : String)
  | rejected
  | notSet
  deriving DecidableEq, Repr

/-- The callback for a result. -/
def resultCallback {K : Type*} (eventData : EventData K) : EventResult → Option K
  | .accepted _ => eventData.onSuccess
  | .rejected => eventData.onFailure
  | .notSet => none

end EventsManager

end DepthaiCore
