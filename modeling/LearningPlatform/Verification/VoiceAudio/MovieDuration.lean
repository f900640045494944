import LearningPlatform.Shared.Run
import LearningPlatform.Verification.VoiceAudio.Scanning

/-! # The duration of a tree of boxes

A well-formed tree of boxes is scanned in document order, and the first movie header that can be
used states the duration. -/

namespace LearningPlatform.VoiceAudioInspection

open Shared

/-! ## Trees of boxes -/

/-- How a header states the size of its box. -/
inductive SizeForm
  | compact
  | large
  | toEnd
  deriving DecidableEq, Repr

namespace SizeForm

def headerSize : SizeForm → ℕ
  | compact => 8
  | large => 16
  | toEnd => 8

/-- A payload whose box has a size that the form can state. -/
def Fits (length : ℕ) : SizeForm → Prop
  | compact => 8 + length < 2 ^ 32
  | large => 16 + length < 2 ^ 64
  | toEnd => True

instance (length : ℕ) : (form : SizeForm) → Decidable (form.Fits length)
  | compact => inferInstanceAs (Decidable (_ < _))
  | large => inferInstanceAs (Decidable (_ < _))
  | toEnd => inferInstanceAs (Decidable True)

end SizeForm

/-- The four bytes of a type. -/
abbrev BoxType := { bytes : List UInt8 // bytes.length = 4 }

/-- The header of a box with a payload of a length. -/
def header (form : SizeForm) (type : BoxType) (length : ℕ) : List UInt8 :=
  match form with
  | .compact => bigEndian 4 (8 + length) ++ type.1
  | .large => bigEndian 4 1 ++ (type.1 ++ bigEndian 8 (16 + length))
  | .toEnd => bigEndian 4 0 ++ type.1

@[simp] theorem length_header (form : SizeForm) (type : BoxType) (length : ℕ) :
    (header form type length).length = form.headerSize := by
  cases form <;> simp [header, SizeForm.headerSize, type.2]

/-- Boxes that follow each other, with the boxes inside them. -/
inductive Boxes
  | nil
  | data (type : BoxType) (form : SizeForm) (payload : List UInt8) (rest : Boxes)
  | container (type : BoxType) (form : SizeForm) (children rest : Boxes)
  deriving DecidableEq

namespace Boxes

def encode : Boxes → List UInt8
  | nil => []
  | data type form payload rest => header form type payload.length ++ (payload ++ rest.encode)
  | container type form children rest =>
    header form type children.encode.length ++ (children.encode ++ rest.encode)

/-- The container types are those of the containers, each size can be stated, and only the last
box of a range extends to its end. -/
def WellFormed : Boxes → Prop
  | nil => True
  | data type form payload rest =>
    type.1 ∉ containerBoxes ∧ form.Fits payload.length ∧ (form = .toEnd → rest = nil) ∧
      rest.WellFormed
  | container type form children rest =>
    type.1 ∈ containerBoxes ∧ form.Fits children.encode.length ∧ (form = .toEnd → rest = nil) ∧
      children.WellFormed ∧ rest.WellFormed

instance decidableWellFormed : (boxes : Boxes) → Decidable boxes.WellFormed
  | nil => inferInstanceAs (Decidable True)
  | data _ _ _ rest =>
    have := decidableWellFormed rest
    inferInstanceAs (Decidable (_ ∧ _ ∧ _ ∧ _))
  | container _ _ children rest =>
    have := decidableWellFormed children
    have := decidableWellFormed rest
    inferInstanceAs (Decidable (_ ∧ _ ∧ _ ∧ _ ∧ _))

/-- How many containers enclose each other. -/
def nesting : Boxes → ℕ
  | nil => 0
  | data _ _ _ rest => rest.nesting
  | container _ _ children rest => max (children.nesting + 1) rest.nesting

/-- The types and payloads of the boxes, a container before the boxes inside it. -/
def documentOrder : Boxes → List (List UInt8 × List UInt8)
  | nil => []
  | data type _ payload rest => (type.1, payload) :: rest.documentOrder
  | container type _ children rest =>
    (type.1, children.encode) :: (children.documentOrder ++ rest.documentOrder)

end Boxes

/-- The duration and the timescale that a payload of a movie header states. -/
def headerFields (payload : List UInt8) : Option (ℕ × ℕ) :=
  if payload[0]? = some 0 ∧ 20 ≤ payload.length then
    some (ofBigEndian (slice payload 16 4), ofBigEndian (slice payload 12 4))
  else if payload[0]? = some 1 ∧ 32 ≤ payload.length then
    some (ofBigEndian (slice payload 24 8), ofBigEndian (slice payload 20 4))
  else none

/-- A box that is a movie header of a known version, long enough and with a timescale. -/
def usableHeader : List UInt8 × List UInt8 → Option (ℕ × ℕ)
  | (type, payload) =>
    if type = ascii "mvhd" then
      (headerFields payload).filter fun (_, timescale) => 0 < timescale
    else none

/-- The duration of the first movie header that can be used. -/
def Boxes.duration {α : Type} (divide : ℕ → ℕ → α) (boxes : Boxes) : Option α :=
  (boxes.documentOrder.findSome? usableHeader).map fun (duration, timescale) =>
    divide duration timescale

/-- A well-formed tree in which at most eight containers enclose each other. -/
structure BoxTree where
  boxes : Boxes
  wellFormed : boxes.WellFormed
  nesting_le : boxes.nesting ≤ 8

/-! ## Scans of encoded trees -/

section Scan

variable {bytes tail : List UInt8} {offset endAt : ℕ} {enclosing : List BoxRange}

theorem boxAt_header {form : SizeForm} {type : BoxType} {length : ℕ}
    (hdrop : bytes.drop offset = header form type length ++ tail) (hfits : form.Fits length)
    (hend : offset + form.headerSize + length ≤ endAt)
    (hlast : form = .toEnd → endAt = offset + form.headerSize + length) :
    boxAt bytes offset endAt = some ⟨offset, type.1, offset + form.headerSize,
      offset + form.headerSize + length⟩ := by
  cases form with
  | compact =>
    rw [header, List.append_assoc] at hdrop
    have hsize : slice bytes offset 4 = bigEndian 4 (8 + length) := slice_of_drop hdrop (by simp)
    have htype : slice bytes (offset + 4) 4 = type.1 :=
      slice_of_drop (by simpa using drop_of_drop hdrop) type.2
    have hread : ofBigEndian (bigEndian 4 (8 + length)) = 8 + length :=
      ofBigEndian_bigEndian hfits
    simp only [SizeForm.headerSize] at hend ⊢
    have hnotOne : 8 + length ≠ 1 := by omega
    have hnotZero : 8 + length ≠ 0 := by omega
    have hroom : ¬(8 + length < 8 ∨ endAt < offset + (8 + length)) := by omega
    simp only [boxAt, boxOfSize, hsize, htype, hread, if_neg hnotOne, if_neg hnotZero, if_neg hroom,
      Nat.add_assoc]
  | large =>
    rw [header, List.append_assoc, List.append_assoc] at hdrop
    have hafter : bytes.drop (offset + 4) = type.1 ++ (bigEndian 8 (16 + length) ++ tail) := by
      simpa using drop_of_drop hdrop
    have hone : slice bytes offset 4 = bigEndian 4 1 := slice_of_drop hdrop (by simp)
    have htype : slice bytes (offset + 4) 4 = type.1 := slice_of_drop hafter type.2
    have hsize : slice bytes (offset + 8) 8 = bigEndian 8 (16 + length) :=
      slice_of_drop (by simpa [type.2, Nat.add_assoc] using drop_of_drop hafter) (by simp)
    have hread : ofBigEndian (bigEndian 8 (16 + length)) = 16 + length :=
      ofBigEndian_bigEndian hfits
    have hreadOne : ofBigEndian (bigEndian 4 1) = 1 := ofBigEndian_bigEndian (by decide)
    simp only [SizeForm.headerSize] at hend ⊢
    have hwide : ¬endAt < offset + 16 := by omega
    have hroom : ¬(16 + length < 16 ∨ endAt < offset + (16 + length)) := by omega
    simp only [boxAt, boxOfSize, hone, hreadOne, htype, hsize, hread, if_neg hwide, if_neg hroom,
      if_true, Nat.add_assoc]
  | toEnd =>
    rw [header, List.append_assoc] at hdrop
    have hzero : slice bytes offset 4 = bigEndian 4 0 := slice_of_drop hdrop (by simp)
    have htype : slice bytes (offset + 4) 4 = type.1 :=
      slice_of_drop (by simpa using drop_of_drop hdrop) type.2
    have hreadZero : ofBigEndian (bigEndian 4 0) = 0 := ofBigEndian_bigEndian (by decide)
    have hrange := hlast rfl
    simp only [SizeForm.headerSize] at hend hrange ⊢
    have hleft : endAt - offset = 8 + length := by omega
    have hroom : ¬(8 + length < 8 ∨ endAt < offset + (8 + length)) := by omega
    simp only [boxAt, boxOfSize, hzero, hreadZero, htype, hleft, if_neg (by decide : ¬0 = 1),
      if_neg hroom, if_true, Nat.add_assoc]

namespace Boxes

/-- What a scan of encoded boxes yields. -/
def yields : Boxes → ℕ → List BoxRange → List Yield
  | nil, _, _ => []
  | data type form payload rest, offset, enclosing =>
    let payloadStart := offset + form.headerSize
    { box := ⟨offset, type.1, payloadStart, payloadStart + payload.length⟩, enclosing } ::
      rest.yields (payloadStart + payload.length) enclosing
  | container type form children rest, offset, enclosing =>
    let payloadStart := offset + form.headerSize
    let box : BoxRange := ⟨offset, type.1, payloadStart, payloadStart + children.encode.length⟩
    { box, enclosing } :: (children.yields payloadStart (box :: enclosing) ++
      rest.yields (payloadStart + children.encode.length) enclosing)

theorem headerSize_ge (form : SizeForm) : 8 ≤ form.headerSize := by
  cases form <;> decide

/-- The header of the first box, in a range that ends with the last box. -/
theorem boxAt_encode {form : SizeForm} {type : BoxType} {payload : List UInt8} {rest : Boxes}
    (hdrop : bytes.drop offset =
      header form type payload.length ++ (payload ++ rest.encode) ++ tail)
    (hfits : form.Fits payload.length) (hlast : form = .toEnd → rest = nil)
    (hend : endAt = offset + form.headerSize + payload.length + rest.encode.length) :
    boxAt bytes offset endAt = some ⟨offset, type.1, offset + form.headerSize,
      offset + form.headerSize + payload.length⟩ := by
  rw [List.append_assoc] at hdrop
  refine boxAt_header hdrop hfits (by omega) ?_
  intro hform
  rw [hend, hlast hform]
  rfl

theorem drop_payload {form : SizeForm} {type : BoxType} {length : ℕ} {payload after : List UInt8}
    (hdrop : bytes.drop offset = header form type length ++ (payload ++ after) ++ tail) :
    bytes.drop (offset + form.headerSize) = payload ++ (after ++ tail) ∧
      bytes.drop (offset + form.headerSize + payload.length) = after ++ tail := by
  rw [List.append_assoc, List.append_assoc] at hdrop
  have hpayload : bytes.drop (offset + form.headerSize) = payload ++ (after ++ tail) := by
    simpa using drop_of_drop hdrop
  exact ⟨hpayload, drop_of_drop hpayload⟩

theorem scans_encode (boxes : Boxes) (hwell : boxes.WellFormed)
    (hnesting : enclosing.length + boxes.nesting ≤ 8)
    (hdrop : bytes.drop offset = boxes.encode ++ tail)
    (hend : endAt = offset + boxes.encode.length) :
    Scans bytes offset endAt enclosing (boxes.yields offset enclosing) := by
  induction boxes generalizing offset endAt enclosing tail with
  | nil =>
    refine .done fun hroom => ?_
    simp only [encode, List.length_nil] at hend
    omega
  | data type form payload rest ih =>
    obtain ⟨htype, hfits, hlast, hrest⟩ := hwell
    have hafter := (drop_payload hdrop).2
    have hheader := headerSize_ge form
    simp only [encode, List.length_append, length_header] at hend
    have hbox : boxAt bytes offset endAt = _ := boxAt_encode hdrop hfits hlast (by omega)
    refine .leaf (by omega) hbox (fun hopens => htype hopens.2) ?_
    exact ih hrest hnesting hafter (by simp only; omega)
  | container type form children rest ihchildren ihrest =>
    obtain ⟨htype, hfits, hlast, hchildren, hrest⟩ := hwell
    obtain ⟨hinside, hafter⟩ := drop_payload hdrop
    have hheader := headerSize_ge form
    simp only [nesting] at hnesting
    simp only [encode, List.length_append, length_header] at hend
    have hbox : boxAt bytes offset endAt = _ := boxAt_encode hdrop hfits hlast (by omega)
    refine .container (by omega) hbox ⟨by omega, htype⟩ ?_ ?_
    · refine ihchildren hchildren ?_ hinside rfl
      simp only [List.length_cons]
      omega
    · exact ihrest hrest (by omega) hafter (by simp only; omega)

end Boxes

/-! ## Movie headers -/

theorem movieHeader_eq {box : BoxRange} {payload : List UInt8}
    (hdrop : bytes.drop box.payloadStart = payload ++ tail)
    (hend : box.boxEnd = box.payloadStart + payload.length) :
    movieHeader bytes box = usableHeader (box.type, payload) := by
  have hfields :
      (if bytes[box.payloadStart]? = some 0 ∧ box.payloadStart + 20 ≤ box.boxEnd then
        some (ofBigEndian (slice bytes (box.payloadStart + 16) 4),
          ofBigEndian (slice bytes (box.payloadStart + 12) 4))
      else if bytes[box.payloadStart]? = some 1 ∧ box.payloadStart + 32 ≤ box.boxEnd then
        some (ofBigEndian (slice bytes (box.payloadStart + 24) 8),
          ofBigEndian (slice bytes (box.payloadStart + 20) 4))
      else none) = headerFields payload := by
    by_cases hshort : payload.length < 20
    · have hshort0 : ¬box.payloadStart + 20 ≤ box.boxEnd := by omega
      have hshort1 : ¬box.payloadStart + 32 ≤ box.boxEnd := by omega
      have hshort2 : ¬20 ≤ payload.length := by omega
      have hshort3 : ¬32 ≤ payload.length := by omega
      simp [headerFields, hshort0, hshort1, hshort2, hshort3]
    · have hversion : bytes[box.payloadStart]? = payload[0]? := by
        have hfirst : (bytes.drop box.payloadStart)[0]? = payload[0]? := by
          rw [hdrop, List.getElem?_append_left (by omega)]
        simpa using hfirst
      have hlength (n : ℕ) : box.payloadStart + n ≤ box.boxEnd ↔ n ≤ payload.length := by omega
      by_cases hlong : 32 ≤ payload.length
      · rw [headerFields, hversion, slice_inside hdrop (by omega), slice_inside hdrop (by omega),
          slice_inside hdrop (by omega), slice_inside hdrop (by omega)]
        simp only [hlength]
      · rw [headerFields, hversion, slice_inside hdrop (by omega), slice_inside hdrop (by omega)]
        simp only [hlength, hlong, and_false, if_false]
  rw [movieHeader, usableHeader]
  simp only [hfields]

namespace Boxes

theorem findSome?_yields (boxes : Boxes) (hdrop : bytes.drop offset = boxes.encode ++ tail) :
    ((boxes.yields offset enclosing).findSome? fun yield => movieHeader bytes yield.box) =
      boxes.documentOrder.findSome? usableHeader := by
  induction boxes generalizing offset enclosing tail with
  | nil => rfl
  | data type form payload rest ih =>
    obtain ⟨hpayload, hafter⟩ := drop_payload hdrop
    simp only [yields, documentOrder, List.findSome?_cons, ih hafter]
    rw [movieHeader_eq hpayload rfl]
  | container type form children rest ihchildren ihrest =>
    obtain ⟨hinside, hafter⟩ := drop_payload hdrop
    simp only [yields, documentOrder, List.findSome?_cons, List.findSome?_append,
      ihchildren hinside, ihrest hafter]
    rw [movieHeader_eq hinside rfl]

theorem movieDuration_encode {α : Type} (divide : ℕ → ℕ → α) (tree : BoxTree) {fuel : ℕ}
    (hfuel : tree.boxes.encode.length < fuel) :
    movieDuration divide tree.boxes.encode fuel = some (tree.boxes.duration divide) := by
  have hdrop : tree.boxes.encode.drop 0 = tree.boxes.encode ++ [] := by simp
  have hscan : Scans tree.boxes.encode 0 tree.boxes.encode.length [] (tree.boxes.yields 0 []) :=
    scans_encode tree.boxes tree.wellFormed (by simpa using tree.nesting_le) hdrop (by simp)
  rw [movieDuration, hscan.eachBox_eq (by omega), Option.map_some, findSome?_yields _ hdrop,
    duration]

end Boxes

end Scan

/-- A scan of any range of a string ends, its boxes lie inside the range and inside those that
enclose them, and two of them lie apart or one inside the other. The duration of an encoded tree is
that of its first movie header that can be used. -/
theorem boxes_nested_and_duration_of_tree :
    (∀ (bytes : List UInt8) (startAt endAt : ℕ), endAt ≤ bytes.length →
      ∃ yields : List Yield,
        (∀ fuel, endAt - startAt < fuel → eachBox bytes fuel startAt endAt [] = some yields) ∧
        (∀ yield ∈ yields, yield.box.Fits startAt bytes.length ∧
          ∀ outer ∈ yield.enclosing, yield.box.Within outer) ∧
        yields.Pairwise fun yield later =>
          yield.box.EndsBefore later.box ∨ later.box.Within yield.box) ∧
    (∀ (α : Type) (divide : ℕ → ℕ → α) (tree : BoxTree) (fuel : ℕ),
      tree.boxes.encode.length < fuel →
        movieDuration divide tree.boxes.encode fuel = some (tree.boxes.duration divide)) := by
  refine ⟨?_, ?_⟩
  · intro bytes startAt endAt hlength
    obtain ⟨yields, hscan⟩ := exists_scans bytes startAt endAt []
    refine ⟨yields, fun fuel hfuel => hscan.eachBox_eq hfuel, ?_, hscan.pairwise⟩
    intro yield hyield
    exact ⟨(hscan.fits yield hyield).widen le_rfl hlength,
      hscan.within_enclosing (by simp [CoverRange]) yield hyield⟩
  · intro α divide tree fuel hfuel
    exact Boxes.movieDuration_encode divide tree hfuel

/-- An upload of an encoded tree is accepted exactly if its type, its size and its first box are
those of a recording and its first movie header that can be used states a duration up to 300.5
seconds. What is stored differs from that by at most a twentieth of a second. -/
theorem call_encode_eq_ok_iff (extname : String → String) (contentType filename : String)
    (tree : BoxTree) (inspected : Inspected) :
    call extname ⟨contentType, filename, tree.boxes.encode⟩ = .ok inspected ↔
      (contentType.toLower ∈ allowedContentTypes ∨
        contentType.toLower = "application/octet-stream" ∧ (extname filename).toLower = ".m4a") ∧
      12 ≤ tree.boxes.encode.length ∧ tree.boxes.encode.length ≤ maxBytes ∧
      slice tree.boxes.encode 4 4 = ascii "ftyp" ∧
      ∃ duration, tree.boxes.duration (fun units timescale => (units / timescale : ℚ)) =
          some duration ∧ 0 < duration ∧ duration ≤ maxDurationSeconds + 1 / 2 ∧
        inspected = ⟨(⌊duration * 10 + 1 / 2⌋ : ℚ) / 10, "audio/mp4"⟩ ∧
        |inspected.durationSeconds - duration| ≤ 1 / 20 := by
  have hduration := Boxes.movieDuration_encode (fun units timescale => (units / timescale : ℚ)) tree
    (Nat.lt_succ_self _)
  simp only [call, ite_error_eq_ok, hduration]
  cases tree.boxes.duration fun units timescale => (units / timescale : ℚ) with
  | none => simp
  | some duration =>
    have hround : |(⌊duration * 10 + 1 / 2⌋ : ℚ) / 10 - duration| ≤ 1 / 20 := by
      have hle := Int.floor_le (duration * 10 + 1 / 2)
      have hlt := Int.lt_floor_add_one (duration * 10 + 1 / 2)
      rw [abs_le]
      constructor <;> linarith
    simp only [ite_error_eq_ok]
    constructor
    · rintro ⟨htype, -, hmax, hfile, hpositive, hshort, ⟨⟩⟩
      rw [not_or, not_lt, not_not] at hfile
      exact ⟨by simpa [or_iff_not_imp_left] using htype, hfile.1, not_lt.mp hmax, hfile.2,
        duration, rfl, not_le.mp hpositive, not_lt.mp hshort, rfl, hround⟩
    · rintro ⟨htype, hmin, hmax, hftyp, _, ⟨⟩, hpositive, hshort, rfl, -⟩
      exact ⟨by simpa [or_iff_not_imp_left] using htype, by omega, hmax.not_gt,
        by simp [hmin, hftyp], hpositive.not_ge, hshort.not_gt, rfl⟩

namespace MovieDurationExample

def ftyp : BoxType := ⟨ascii "ftyp", by decide⟩

def moov : BoxType := ⟨ascii "moov", by decide⟩

def mvhd : BoxType := ⟨ascii "mvhd", by decide⟩

/-- A movie header of version 0, with no timescale. -/
def unscaled : List UInt8 :=
  List.replicate 20 0

/-- A movie header of version 1 with 90 units in 30 units per second. -/
def scaled : List UInt8 :=
  1 :: List.replicate 19 0 ++ bigEndian 4 30 ++ bigEndian 8 90

/-- A file with sizes of the three forms and two movie headers, of which the first is no use. -/
def recordingBoxes : Boxes :=
  .data ftyp .compact [0, 0, 0, 0] (.container moov .toEnd
    (.data mvhd .large unscaled (.data mvhd .toEnd scaled .nil)) .nil)

theorem recordingBoxes_wellFormed : recordingBoxes.WellFormed := by decide +kernel

theorem recordingBoxes_nesting_le : recordingBoxes.nesting ≤ 8 := by decide

def recording : BoxTree :=
  ⟨recordingBoxes, recordingBoxes_wellFormed, recordingBoxes_nesting_le⟩

/-- The second movie header states a duration of three seconds, and the scan stays inside the
string. -/
theorem recording_of_three_seconds :
    recording.boxes.duration (· / ·) = some 3 ∧
    movieDuration (· / ·) recording.boxes.encode 97 = some (some 3) ∧
    ∃ yields : List Yield,
      eachBox recording.boxes.encode 97 0 96 [] = some yields ∧
        yields.Pairwise fun yield later =>
          yield.box.EndsBefore later.box ∨ later.box.Within yield.box := by
  have hlength : recording.boxes.encode.length = 96 := by decide +kernel
  have hduration : recording.boxes.duration (· / ·) = some 3 := by decide +kernel
  obtain ⟨hscan, htree⟩ := boxes_nested_and_duration_of_tree
  obtain ⟨yields, hyields, _, hpairwise⟩ := hscan recording.boxes.encode 0 96 (by omega)
  refine ⟨hduration, ?_, yields, hyields 97 (by omega), hpairwise⟩
  rw [htree ℕ (· / ·) recording 97 (by omega), hduration]

end MovieDurationExample

end LearningPlatform.VoiceAudioInspection
