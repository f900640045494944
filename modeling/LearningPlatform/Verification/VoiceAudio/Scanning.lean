import LearningPlatform.Model.VoiceAudio
import Mathlib.Data.List.Pairwise

/-! # The boxes that are scanned

Every scan ends, and its boxes lie inside each other or apart. -/

namespace LearningPlatform.VoiceAudioInspection

open Shared

variable {bytes : List UInt8} {offset endAt fuel : ℕ} {enclosing : List BoxRange} {box : BoxRange}
  {yields : List Yield}

/-! ## Headers -/

/-- A box with room for its header, inside a range. -/
structure BoxRange.Fits (box : BoxRange) (startAt endAt : ℕ) : Prop where
  start : startAt ≤ box.start
  header : box.start + 8 ≤ box.payloadStart
  payload : box.payloadStart ≤ box.boxEnd
  boxEnd : box.boxEnd ≤ endAt

theorem boxOfSize_eq_some {size headerSize : ℕ}
    (h : boxOfSize bytes offset endAt size headerSize = some box) :
    headerSize ≤ size ∧ offset + size ≤ endAt ∧
      box = ⟨offset, slice bytes (offset + 4) 4, offset + headerSize, offset + size⟩ := by
  by_cases hbreak : size < headerSize ∨ endAt < offset + size
  · simp [boxOfSize, hbreak] at h
  · have hbox := h
    simp only [boxOfSize, if_neg hbreak, Option.some.injEq] at hbox
    exact ⟨by omega, by omega, hbox.symm⟩

theorem boxOfSize_fits {size headerSize : ℕ} (hheader : 8 ≤ headerSize)
    (h : boxOfSize bytes offset endAt size headerSize = some box) :
    box.start = offset ∧ box.Fits offset endAt := by
  obtain ⟨hsize, hend, rfl⟩ := boxOfSize_eq_some h
  refine ⟨rfl, ⟨le_rfl, ?_, ?_, hend⟩⟩
  · exact Nat.add_le_add_left hheader offset
  · exact Nat.add_le_add_left hsize offset

theorem boxAt_fits (h : boxAt bytes offset endAt = some box) :
    box.start = offset ∧ box.Fits offset endAt := by
  by_cases hlarge : ofBigEndian (slice bytes offset 4) = 1
  · by_cases hroom : endAt < offset + 16
    · simp [boxAt, hlarge, hroom] at h
    · simp only [boxAt, if_pos hlarge, if_neg hroom] at h
      exact boxOfSize_fits (by decide) h
  · simp only [boxAt, if_neg hlarge] at h
    exact boxOfSize_fits le_rfl h

theorem le_payloadStart_of_boxAt (h : boxAt bytes offset endAt = some box) :
    offset + 8 ≤ box.payloadStart := by
  obtain ⟨rfl, hfits⟩ := boxAt_fits h
  exact hfits.header

theorem le_boxEnd_of_boxAt (h : boxAt bytes offset endAt = some box) : offset + 8 ≤ box.boxEnd :=
  (le_payloadStart_of_boxAt h).trans (boxAt_fits h).2.payload

theorem BoxRange.Fits.widen {startAt endAt startAt' endAt' : ℕ} (h : box.Fits startAt endAt)
    (hstart : startAt' ≤ startAt) (hend : endAt ≤ endAt') : box.Fits startAt' endAt' :=
  ⟨hstart.trans h.start, h.header, h.payload, h.boxEnd.trans hend⟩

/-! ## Scans without fuel -/

/-- The boxes that a call of `each_box` yields. -/
inductive Scans (bytes : List UInt8) : ℕ → ℕ → List BoxRange → List Yield → Prop
  | done {offset endAt : ℕ} {enclosing : List BoxRange}
      (hend : offset + 8 ≤ endAt → boxAt bytes offset endAt = none) :
      Scans bytes offset endAt enclosing []
  | leaf {offset endAt : ℕ} {enclosing : List BoxRange} {box : BoxRange} {rest : List Yield}
      (hroom : offset + 8 ≤ endAt) (hbox : boxAt bytes offset endAt = some box)
      (hleaf : ¬opens enclosing box) (hrest : Scans bytes box.boxEnd endAt enclosing rest) :
      Scans bytes offset endAt enclosing ({ box, enclosing } :: rest)
  | container {offset endAt : ℕ} {enclosing : List BoxRange} {box : BoxRange}
      {inner rest : List Yield}
      (hroom : offset + 8 ≤ endAt) (hbox : boxAt bytes offset endAt = some box)
      (hopens : opens enclosing box)
      (hinner : Scans bytes box.payloadStart box.boxEnd (box :: enclosing) inner)
      (hrest : Scans bytes box.boxEnd endAt enclosing rest) :
      Scans bytes offset endAt enclosing ({ box, enclosing } :: (inner ++ rest))

theorem exists_scans (bytes : List UInt8) (offset endAt : ℕ) (enclosing : List BoxRange) :
    ∃ yields, Scans bytes offset endAt enclosing yields := by
  induction hleft : endAt - offset using Nat.strong_induction_on generalizing offset endAt
    enclosing with
  | _ left ih =>
    by_cases hroom : offset + 8 ≤ endAt
    · cases hbox : boxAt bytes offset endAt with
      | none => exact ⟨[], .done fun _ => hbox⟩
      | some box =>
        have hinside := le_payloadStart_of_boxAt hbox
        have hafter := le_boxEnd_of_boxAt hbox
        have hend := (boxAt_fits hbox).2.boxEnd
        obtain ⟨rest, hrest⟩ := ih (endAt - box.boxEnd) (by omega) box.boxEnd endAt enclosing rfl
        by_cases hopens : opens enclosing box
        · obtain ⟨inner, hinner⟩ := ih (box.boxEnd - box.payloadStart) (by omega) box.payloadStart
            box.boxEnd (box :: enclosing) rfl
          exact ⟨_, .container hroom hbox hopens hinner hrest⟩
        · exact ⟨_, .leaf hroom hbox hopens hrest⟩
    · exact ⟨[], .done fun h => absurd h hroom⟩

/-- With one unit of fuel per byte and one more, `each_box` yields the boxes of the scan. -/
theorem Scans.eachBox_eq (h : Scans bytes offset endAt enclosing yields)
    (hfuel : endAt - offset < fuel) : eachBox bytes fuel offset endAt enclosing = some yields := by
  induction h generalizing fuel with
  | @done offset endAt enclosing hend =>
    obtain ⟨fuel, rfl⟩ := Nat.exists_eq_add_one_of_ne_zero (Nat.ne_zero_of_lt hfuel)
    by_cases hroom : offset + 8 ≤ endAt
    · simp [eachBox, hroom, hend hroom]
    · simp [eachBox, hroom]
  | @leaf offset endAt enclosing box rest hroom hbox hleaf hrest ih =>
    obtain ⟨fuel, rfl⟩ := Nat.exists_eq_add_one_of_ne_zero (Nat.ne_zero_of_lt hfuel)
    have hbehind := le_boxEnd_of_boxAt hbox
    have hafter : eachBox bytes fuel box.boxEnd endAt enclosing = some rest := ih (by omega)
    simp [eachBox, hroom, hbox, hleaf, hafter]
  | @container offset endAt enclosing box inner rest hroom hbox hopens hinner hrest ihinner
      ihrest =>
    obtain ⟨fuel, rfl⟩ := Nat.exists_eq_add_one_of_ne_zero (Nat.ne_zero_of_lt hfuel)
    have hheader := le_payloadStart_of_boxAt hbox
    have hbehind := le_boxEnd_of_boxAt hbox
    have hend := (boxAt_fits hbox).2.boxEnd
    have hinside : eachBox bytes fuel box.payloadStart box.boxEnd (box :: enclosing) = some inner :=
      ihinner (by omega)
    have hafter : eachBox bytes fuel box.boxEnd endAt enclosing = some rest := ihrest (by omega)
    simp [eachBox, hroom, hbox, hopens, hinside, hafter]

/-! ## Where the boxes lie -/

/-- A box with its header, inside the payload of another. -/
def BoxRange.Within (box outer : BoxRange) : Prop :=
  outer.payloadStart ≤ box.start ∧ box.boxEnd ≤ outer.boxEnd

/-- A box that ends before another starts. -/
def BoxRange.EndsBefore (box other : BoxRange) : Prop :=
  box.boxEnd ≤ other.start

theorem BoxRange.Fits.within {outer : BoxRange} (h : box.Fits outer.payloadStart outer.boxEnd) :
    box.Within outer :=
  ⟨h.start, h.boxEnd⟩

theorem Scans.fits (h : Scans bytes offset endAt enclosing yields) :
    ∀ yield ∈ yields, yield.box.Fits offset endAt := by
  induction h with
  | done _ => simp
  | leaf _ hbox _ _ ih =>
    have hfits := (boxAt_fits hbox).2
    have hafter := Nat.le_of_add_right_le (le_boxEnd_of_boxAt hbox)
    intro yield hyield
    rcases List.mem_cons.mp hyield with rfl | hyield
    · exact hfits
    · exact (ih yield hyield).widen hafter le_rfl
  | container _ hbox _ _ _ ihinner ihrest =>
    have hfits := (boxAt_fits hbox).2
    have hinside := Nat.le_of_add_right_le (le_payloadStart_of_boxAt hbox)
    intro yield hyield
    rcases List.mem_cons.mp hyield with rfl | hyield
    · exact hfits
    rcases List.mem_append.mp hyield with hyield | hyield
    · exact (ihinner yield hyield).widen hinside hfits.boxEnd
    · exact (ihrest yield hyield).widen (hinside.trans hfits.payload) le_rfl

/-- The payloads of all boxes cover a range. -/
def CoverRange (boxes : List BoxRange) (startAt endAt : ℕ) : Prop :=
  ∀ outer ∈ boxes, outer.payloadStart ≤ startAt ∧ endAt ≤ outer.boxEnd

theorem CoverRange.narrow {boxes : List BoxRange} {startAt endAt startAt' endAt' : ℕ}
    (h : CoverRange boxes startAt endAt) (hstart : startAt ≤ startAt') (hend : endAt' ≤ endAt) :
    CoverRange boxes startAt' endAt' :=
  fun outer houter => ⟨(h outer houter).1.trans hstart, hend.trans (h outer houter).2⟩

theorem CoverRange.within {boxes : List BoxRange} (h : CoverRange boxes offset endAt)
    (hfits : box.Fits offset endAt) : ∀ outer ∈ boxes, box.Within outer :=
  fun outer houter => (hfits.widen (h outer houter).1 (h outer houter).2).within

/-- Where all enclosing boxes hold the range of a scan, they hold each of its boxes. -/
theorem Scans.within_enclosing (h : Scans bytes offset endAt enclosing yields)
    (hcover : CoverRange enclosing offset endAt) :
    ∀ yield ∈ yields, ∀ outer ∈ yield.enclosing, yield.box.Within outer := by
  induction h with
  | done _ => simp
  | leaf _ hbox _ _ ih =>
    have hafter := Nat.le_of_add_right_le (le_boxEnd_of_boxAt hbox)
    intro yield hyield
    rcases List.mem_cons.mp hyield with rfl | hyield
    · exact hcover.within (boxAt_fits hbox).2
    · exact ih (hcover.narrow hafter le_rfl) yield hyield
  | container _ hbox _ _ _ ihinner ihrest =>
    have hfits := (boxAt_fits hbox).2
    have hinside := Nat.le_of_add_right_le (le_payloadStart_of_boxAt hbox)
    intro yield hyield
    rcases List.mem_cons.mp hyield with rfl | hyield
    · exact hcover.within hfits
    rcases List.mem_append.mp hyield with hyield | hyield
    · refine ihinner (List.forall_mem_cons.mpr ⟨⟨le_rfl, le_rfl⟩, ?_⟩) yield hyield
      exact hcover.narrow hinside hfits.boxEnd
    · exact ihrest (hcover.narrow (hinside.trans hfits.payload) le_rfl) yield hyield

theorem Scans.pairwise (h : Scans bytes offset endAt enclosing yields) :
    yields.Pairwise fun yield later =>
      yield.box.EndsBefore later.box ∨ later.box.Within yield.box := by
  induction h with
  | done _ => exact .nil
  | leaf _ hbox _ hrest ih =>
    refine List.pairwise_cons.mpr ⟨?_, ih⟩
    intro later hlater
    exact .inl (hrest.fits later hlater).start
  | container _ hbox _ hinner hrest ihinner ihrest =>
    refine List.pairwise_cons.mpr ⟨?_, List.pairwise_append.mpr ⟨ihinner, ihrest, ?_⟩⟩
    · intro later hlater
      rcases List.mem_append.mp hlater with hlater | hlater
      · exact .inr (hinner.fits later hlater).within
      · exact .inl (hrest.fits later hlater).start
    · intro yield hyield later hlater
      exact .inl ((hinner.fits yield hyield).boxEnd.trans (hrest.fits later hlater).start)

end LearningPlatform.VoiceAudioInspection
