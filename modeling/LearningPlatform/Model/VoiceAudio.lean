import LearningPlatform.Shared.Bytes
import Mathlib.Data.Rat.Floor

/-! # Inspection of voice recordings

`VoiceAudioInspection`: the boxes of an M4A file and the duration that its movie header states. -/

namespace LearningPlatform

open Shared

namespace VoiceAudioInspection

/-- The bytes of a text in ASCII. -/
def ascii (text : String) : List UInt8 :=
  text.toList.map fun c => UInt8.ofNat c.toNat

def containerBoxes : List (List UInt8) :=
  ["moov", "trak", "mdia", "minf", "stbl"].map ascii

/-- What `each_box` yields, with the offset at which the header of the box starts. -/
structure BoxRange where
  start : ℕ
  type : List UInt8
  payloadStart : ℕ
  boxEnd : ℕ
  deriving DecidableEq, Repr

/-- A box with those whose calls of `each_box` are on the stack when it is yielded. -/
structure Yield where
  box : BoxRange
  enclosing : List BoxRange
  deriving DecidableEq, Repr

/-- A box of a given size, unless it ends after the range or before its payload. -/
def boxOfSize (bytes : List UInt8) (offset endAt size headerSize : ℕ) : Option BoxRange :=
  if size < headerSize ∨ endAt < offset + size then none
  else some ⟨offset, slice bytes (offset + 4) 4, offset + headerSize, offset + size⟩

/-- The header of a box; `none` where the loop of `each_box` breaks. -/
def boxAt (bytes : List UInt8) (offset endAt : ℕ) : Option BoxRange :=
  let size := ofBigEndian (slice bytes offset 4)
  if size = 1 then
    if endAt < offset + 16 then none
    else boxOfSize bytes offset endAt (ofBigEndian (slice bytes (offset + 8) 8)) 16
  else boxOfSize bytes offset endAt (if size = 0 then endAt - offset else size) 8

/-- A box that `each_box` calls itself on; `depth` is the number of enclosing boxes. -/
def opens (enclosing : List BoxRange) (box : BoxRange) : Prop :=
  enclosing.length < 8 ∧ box.type ∈ containerBoxes

instance (enclosing : List BoxRange) (box : BoxRange) : Decidable (opens enclosing box) :=
  inferInstanceAs (Decidable (_ ∧ _))

/-- `each_box`, from `offset` on; `none` if `fuel` iterations and calls do not suffice. -/
def eachBox (bytes : List UInt8) : ℕ → ℕ → ℕ → List BoxRange → Option (List Yield)
  | 0, _, _, _ => none
  | fuel + 1, offset, endAt, enclosing =>
    if offset + 8 ≤ endAt then
      match boxAt bytes offset endAt with
      | none => some []
      | some box => do
        let inner ←
          if opens enclosing box then
            eachBox bytes fuel box.payloadStart box.boxEnd (box :: enclosing)
          else some []
        let rest ← eachBox bytes fuel box.boxEnd endAt enclosing
        some ({ box, enclosing } :: (inner ++ rest))
    else some []

/-- The duration and the timescale of a movie header that can be used. -/
def movieHeader (bytes : List UInt8) (box : BoxRange) : Option (ℕ × ℕ) :=
  if box.type = ascii "mvhd" then
    let version := bytes[box.payloadStart]?
    let found :=
      if version = some 0 ∧ box.payloadStart + 20 ≤ box.boxEnd then
        some (ofBigEndian (slice bytes (box.payloadStart + 16) 4),
          ofBigEndian (slice bytes (box.payloadStart + 12) 4))
      else if version = some 1 ∧ box.payloadStart + 32 ≤ box.boxEnd then
        some (ofBigEndian (slice bytes (box.payloadStart + 24) 8),
          ofBigEndian (slice bytes (box.payloadStart + 20) 4))
      else none
    found.filter fun (_, timescale) => 0 < timescale
  else none

/-- `movie_duration`, for any division of the two numbers; `none` if the fuel does not suffice. The
source returns from inside the block, at the first header that can be used. -/
def movieDuration {α : Type} (divide : ℕ → ℕ → α) (bytes : List UInt8) (fuel : ℕ) :
    Option (Option α) :=
  (eachBox bytes fuel 0 bytes.length []).map fun yields =>
    (yields.findSome? fun yield => movieHeader bytes yield.box).map fun (duration, timescale) =>
      divide duration timescale

/-! ## Uploads -/

def maxBytes : ℕ := 6 * 1024 * 1024

def maxDurationSeconds : ℚ := 300

def allowedContentTypes : List String :=
  ["audio/mp4", "audio/m4a", "audio/x-m4a"]

/-- An uploaded file; its size is that of the file it is read from. -/
structure Upload where
  contentType : String
  originalFilename : String
  bytes : List UInt8

structure Inspected where
  durationSeconds : ℚ
  contentType : String
  deriving DecidableEq, Repr

/-- `VoiceAudioInspection.call` with exact quotients; `extname` is `File.extname`. -/
def call (extname : String → String) (upload : Upload) : Except String Inspected :=
  let contentType := upload.contentType.toLower
  let opaqueM4a := contentType == "application/octet-stream" &&
    (extname upload.originalFilename).toLower == ".m4a"
  if !(allowedContentTypes.contains contentType || opaqueM4a) then
    .error "Choose an M4A recording."
  else if upload.bytes.length = 0 then .error "The recording is empty."
  else if maxBytes < upload.bytes.length then .error "The recording is too large."
  else if upload.bytes.length < 12 ∨ slice upload.bytes 4 4 ≠ ascii "ftyp" then
    .error "The recording is not a valid M4A file."
  else
    match movieDuration (fun duration timescale => (duration : ℚ) / timescale) upload.bytes
        (upload.bytes.length + 1) with
    | some (some duration) =>
      if duration ≤ 0 then .error "The recording duration could not be verified."
      else if maxDurationSeconds + 1 / 2 < duration then
        .error "Recordings must be 5 minutes or shorter."
      else
        .ok { durationSeconds := (⌊duration * 10 + 1 / 2⌋ : ℚ) / 10, contentType := "audio/mp4" }
    | _ => .error "The recording duration could not be verified."

end VoiceAudioInspection

end LearningPlatform
