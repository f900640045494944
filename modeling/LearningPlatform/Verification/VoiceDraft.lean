import LearningPlatform.Model.VoiceDraft
import Mathlib.Data.List.Infix
import Mathlib.Algebra.Order.Ring.Int

/-! # Voice drafts keep the text around them

What `insertVoiceDraft` changes, and when the inserted segment is found again in an edited draft. -/

namespace LearningPlatform.VoiceDraft

open Shared JsText

/-! ## Insertion -/

section Insertion

variable {draft text kept : JsString} {selection : Selection} {multiline : Bool}

/-- The point between `low` and `high` that is nearest to a position. -/
structure Nearest (low high position nearest : ℤ) : Prop where
  inside : low ≤ position → position ≤ high → nearest = position
  below : position < low → nearest = low
  above : high < position → nearest = high

theorem nearest_selectionStart (draft : JsString) (selection : Selection) :
    Nearest 0 draft.length selection.start (selectionStart draft selection) := by
  unfold selectionStart
  constructor <;> omega

theorem nearest_selectionStop (draft : JsString) (selection : Selection) :
    Nearest (selectionStart draft selection) draft.length selection.stop
      (selectionStop draft selection) := by
  have hstart : selectionStart draft selection ≤ draft.length := by
    unfold selectionStart
    omega
  unfold selectionStop
  constructor <;> omega

/-- White space stands at the end of the text before an insertion, an empty line if the insertion
has several lines. -/
def EndsApart (text before : JsString) : Prop :=
  (∃ c, before.getLast? = some c ∧ isWhitespace c) ∧
    (newline ∈ text → [newline, newline] <:+ before)

/-- White space stands at the start of the text after an insertion. -/
def StartsApart (text after : JsString) : Prop :=
  (∃ c, after.head? = some c ∧ isWhitespace c) ∧ (newline ∈ text → [newline, newline] <+: after)

/-- A separator between a text and what is kept beside it, which `joined` is with it. -/
structure Separates (apart : JsString → Prop) (kept sep joined : JsString) : Prop where
  whitespace : ∀ c ∈ sep, isWhitespace c
  unneeded : kept = [] ∨ apart kept → sep = []
  beside : kept ≠ [] → apart joined

theorem isWhitespace_newline : isWhitespace newline := by decide

theorem separator_whitespace : ∀ c ∈ separator multiline, isWhitespace c := by
  exact List.all_eq_true.mp (by cases multiline <;> decide)

theorem endsSeparated_iff :
    endsSeparated (text.contains newline) kept = true ↔ EndsApart text kept := by
  unfold EndsApart endsSeparated
  by_cases hlines : newline ∈ text
  · simp only [List.contains_iff_mem.mpr hlines, if_true, List.isSuffixOf_iff_suffix, hlines,
      true_implies]
    refine ⟨fun hsuffix => ⟨?_, hsuffix⟩, And.right⟩
    obtain ⟨front, rfl⟩ := hsuffix
    exact ⟨newline, by simp, isWhitespace_newline⟩
  · simp [hlines, Option.any_eq_true]

theorem startsSeparated_iff :
    startsSeparated (text.contains newline) kept = true ↔ StartsApart text kept := by
  unfold StartsApart startsSeparated
  by_cases hlines : newline ∈ text
  · simp only [List.contains_iff_mem.mpr hlines, if_true, List.isPrefixOf_iff_prefix, hlines,
      true_implies]
    refine ⟨fun hprefix => ⟨?_, hprefix⟩, And.right⟩
    obtain ⟨rest, rfl⟩ := hprefix
    exact ⟨newline, by simp, isWhitespace_newline⟩
  · simp [hlines, Option.any_eq_true]

/-- A separator that is left out if the kept side is empty or has the white space already. -/
theorem separates_of_if {apart : JsString → Prop} {separated : Bool}
    (join : JsString → JsString) (hkept : separated = true ↔ apart kept) (hnil : join [] = kept)
    (hjoin : apart (join (separator multiline))) :
    let sep := if kept = [] ∨ separated then [] else separator multiline
    Separates apart kept sep (join sep) := by
  intro sep
  by_cases hnone : kept = [] ∨ separated
  · have hsep : sep = [] := if_pos hnone
    refine ⟨by simp [hsep], fun _ => hsep, fun hne => ?_⟩
    rw [hsep, hnil]
    exact hkept.mp (hnone.resolve_left hne)
  · have hsep : sep = separator multiline := if_neg hnone
    refine ⟨hsep ▸ separator_whitespace, fun h => absurd (h.imp_right hkept.mpr) hnone, ?_⟩
    exact fun _ => hsep ▸ hjoin

theorem separates_leading (text kept : JsString) :
    let leading := if kept = [] ∨ endsSeparated (text.contains newline) kept then []
      else separator (text.contains newline)
    Separates (EndsApart text) kept leading (kept ++ leading) := by
  refine separates_of_if (kept ++ ·) endsSeparated_iff (List.append_nil kept)
    (endsSeparated_iff.mp ?_)
  cases text.contains newline
  · simpa [endsSeparated, separator, ascii] using (by decide : isWhitespace 32 = true)
  · simp [endsSeparated, separator]

theorem separates_trailing (text kept : JsString) :
    let trailing := if kept = [] ∨ startsSeparated (text.contains newline) kept then []
      else separator (text.contains newline)
    Separates (StartsApart text) kept trailing (trailing ++ kept) := by
  refine separates_of_if (· ++ kept) startsSeparated_iff rfl (startsSeparated_iff.mp ?_)
  cases text.contains newline
  · simpa [startsSeparated, separator, ascii] using (by decide : isWhitespace 32 = true)
  · simp [startsSeparated, separator]

theorem insertVoiceDraft_value (draft : JsString) (selection : Selection) (text : JsString) :
    (insertVoiceDraft draft selection text).value =
      (insertVoiceDraft draft selection text).before ++ text ++
        (insertVoiceDraft draft selection text).after := by
  simp [insertVoiceDraft]

theorem insertVoiceDraft_cursor (draft : JsString) (selection : Selection) (text : JsString) :
    let inserted := insertVoiceDraft draft selection text
    0 ≤ inserted.selection.start ∧ inserted.selection.start = inserted.selection.stop ∧
      inserted.selection.stop ≤ inserted.value.length := by
  intro inserted
  refine ⟨Int.add_nonneg (Int.natCast_nonneg _) (Int.natCast_nonneg _), rfl, ?_⟩
  simp only [inserted, insertVoiceDraft, List.length_append, Nat.cast_add]
  exact le_add_of_nonneg_right (Int.natCast_nonneg _)

end Insertion

/-! ## Segments -/

section Segments

variable {draft segment : JsString} {review : Review}

/-- The prefix and the suffix do not overlap in the draft, and there is something before the
suffix. -/
def Apart (draft : JsString) (review : Review) : Prop :=
  review.before.length + review.after.length ≤ draft.length ∧
    (review.after.length < draft.length ∨ draft = [])

theorem voiceDraftSegment_eq_some_iff :
    voiceDraftSegment draft review = some segment ↔
      review.before <+: draft ∧ review.after <:+ draft ∧
        segment = if draft.length = review.after.length then draft.drop review.before.length
          else (draft.take (draft.length - review.after.length)).drop review.before.length := by
  by_cases hbefore : review.before <+: draft
  · by_cases hafter : review.after <:+ draft
    · have hlength := hafter.length_le
      have hchecks :
          (!review.before.isPrefixOf draft || !review.after.isSuffixOf draft) = false := by
        simp [hbefore, hafter]
      simp only [voiceDraftSegment, hchecks, hbefore, hafter, true_and, Bool.false_eq_true,
        if_false]
      by_cases hwhole : draft.length = review.after.length
      · simp [hwhole, eq_comm]
      · obtain ⟨stop, hstop⟩ := Nat.exists_eq_add_one_of_ne_zero
          (Nat.sub_ne_zero_of_lt (lt_of_le_of_ne hlength (Ne.symm hwhole)))
        simp [hwhole, hstop, eq_comm]
    · simp [voiceDraftSegment, hafter]
  · simp [voiceDraftSegment, hbefore]

theorem voiceDraftSegment_between (review : Review) {text : JsString} (htext : text ≠ []) :
    voiceDraftSegment (review.before ++ text ++ review.after) review = some text := by
  have hpositive : 0 < text.length := List.length_pos_iff.mpr htext
  rw [voiceDraftSegment_eq_some_iff, if_neg (by simp only [List.length_append]; omega)]
  refine ⟨⟨text ++ review.after, by simp⟩, ⟨review.before ++ text, rfl⟩, ?_⟩
  rw [List.length_append, Nat.add_sub_cancel, List.take_left, List.drop_left]

/-- The segment is what stands between the prefix and the suffix if they are apart. -/
theorem segment_between (h : voiceDraftSegment draft review = some segment)
    (hapart : Apart draft review) : review.before ++ segment ++ review.after = draft := by
  obtain ⟨hbefore, hafter, hsegment⟩ := voiceDraftSegment_eq_some_iff.mp h
  obtain ⟨hlength, hroom⟩ := hapart
  rcases hroom with hroom | rfl
  · have hstop : (draft.take (draft.length - review.after.length)).take review.before.length =
        review.before := by
      rw [List.take_take, min_eq_left (by omega), ← List.prefix_iff_eq_take.mp hbefore]
    rw [if_neg (by omega)] at hsegment
    calc review.before ++ segment ++ review.after
        = draft.take (draft.length - review.after.length) ++ review.after := by
          rw [hsegment, ← hstop, List.length_take, min_eq_left]
          · rw [List.take_append_drop]
          · rw [List.length_take]
            omega
      _ = draft.take (draft.length - review.after.length) ++
            draft.drop (draft.length - review.after.length) := by
          rw [← List.suffix_iff_eq_drop.mp hafter]
      _ = draft := List.take_append_drop _ _
  · have hbefore : review.before = [] := by simpa using hbefore
    have hafter : review.after = [] := by simpa using hafter
    simp [hsegment, hbefore, hafter]

theorem apart_of_segment (h : voiceDraftSegment draft review = some segment)
    (hjoined : review.before ++ segment ++ review.after = draft) : Apart draft review := by
  obtain ⟨hbefore, hafter, hsegment⟩ := voiceDraftSegment_eq_some_iff.mp h
  have hlength : review.before.length + segment.length + review.after.length = draft.length := by
    simpa [Nat.add_assoc] using congrArg List.length hjoined
  have hbeforeLength := hbefore.length_le
  by_cases hwhole : draft.length = review.after.length
  · have hsegmentLength : segment.length = draft.length - review.before.length := by
      rw [hsegment, if_pos hwhole, List.length_drop]
    exact ⟨by omega, .inr (List.length_eq_zero_iff.mp (by omega))⟩
  · have hafterLength := hafter.length_le
    exact ⟨by omega, .inl (by omega)⟩

/-- A draft with `length` code units at a position replaced. -/
def replaceAt (draft : JsString) (position length : ℕ) (text : JsString) : JsString :=
  draft.take position ++ text ++ draft.drop (position + length)

theorem replaceAt_between (before segment after text : JsString) :
    replaceAt (before ++ segment ++ after) before.length segment.length text =
      before ++ text ++ after := by
  rw [replaceAt, ← List.length_append, List.drop_left, List.append_assoc before segment,
    List.take_left]

theorem restoreRawVoiceDraft_of_segment (h : voiceDraftSegment draft review = some segment) :
    ∃ restored, restoreRawVoiceDraft draft review = some restored ∧
      restored.value = review.before ++ review.rawText ++ review.after := by
  rw [restoreRawVoiceDraft, h]
  exact ⟨_, rfl, rfl⟩

theorem voiceDraftSegment_of_restored {restored : Restored}
    (h : restoreRawVoiceDraft draft review = some restored) :
    ∃ segment, voiceDraftSegment draft review = some segment := by
  cases hsegment : voiceDraftSegment draft review with
  | none => simp [restoreRawVoiceDraft, hsegment] at h
  | some segment => exact ⟨segment, rfl⟩

end Segments

/-- The segment that is found in an edited draft stands between the prefix and the suffix, and the
raw transcript replaces only it, just if the draft does not match the review or the prefix and the
suffix stand apart in it. -/
theorem segment_found_iff_apart (original draft text rawText : JsString) (selection : Selection) :
    let review := (insertVoiceDraft original selection text).review rawText text
    ((∀ segment, voiceDraftSegment draft review = some segment →
        review.before ++ segment ++ review.after = draft) ∧
      ∀ restored, restoreRawVoiceDraft draft review = some restored →
        ∃ segment, voiceDraftSegment draft review = some segment ∧
          restored.value = replaceAt draft review.before.length segment.length rawText) ↔
      (review.before <+: draft → review.after <:+ draft → Apart draft review) := by
  intro review
  constructor
  · rintro ⟨hfound, -⟩ hbefore hafter
    have hsegment := voiceDraftSegment_eq_some_iff.mpr ⟨hbefore, hafter, rfl⟩
    exact apart_of_segment hsegment (hfound _ hsegment)
  · intro hapart
    have hbetween (segment : JsString) (h : voiceDraftSegment draft review = some segment) :
        review.before ++ segment ++ review.after = draft := by
      obtain ⟨hbefore, hafter, -⟩ := voiceDraftSegment_eq_some_iff.mp h
      exact segment_between h (hapart hbefore hafter)
    refine ⟨hbetween, ?_⟩
    intro restored hrestored
    obtain ⟨segment, hsegment⟩ := voiceDraftSegment_of_restored hrestored
    obtain ⟨restored', hrestored', hvalue⟩ := restoreRawVoiceDraft_of_segment hsegment
    obtain rfl : restored' = restored := Option.some.inj (hrestored'.symm.trans hrestored)
    refine ⟨segment, hsegment, ?_⟩
    rw [hvalue, ← hbetween segment hsegment, replaceAt_between]
    rfl

namespace SegmentExample

def cursorAt (position : ℤ) : Selection :=
  ⟨position, position⟩

/-- The review of a transcript that is inserted into a draft. -/
def reviewOf (original : String) (position : ℤ) : Review :=
  (insertVoiceDraft (ascii original) (cursorAt position) (ascii "yes")).review (ascii "raw")
    (ascii "yes")

/-- A transcript is deleted in front of the rest of the draft, whose segment is then the whole
draft. In a draft with repeated words the prefix and the suffix overlap, and the raw transcript
doubles a word. -/
theorem words_doubled_around_transcript :
    voiceDraftSegment (ascii " no") (reviewOf "no" 0) = some (ascii " no") ∧
    (reviewOf "no" 0).before ++ ascii " no" ++ (reviewOf "no" 0).after ≠ ascii " no" ∧
    voiceDraftSegment (ascii "no no no") (reviewOf "no no no no" 5) = some [] ∧
    (restoreRawVoiceDraft (ascii "no no no") (reviewOf "no no no no" 5)).map Restored.value =
      some (ascii "no no raw no no") ∧
    ascii "no no raw no no" ≠
      replaceAt (ascii "no no no") (reviewOf "no no no no" 5).before.length 0 (ascii "raw") := by
  decide +kernel

/-- A transcript that is edited in place is found and replaced. -/
theorem edited_transcript_found :
    (∀ segment, voiceDraftSegment (ascii "a maybe b") (reviewOf "a b" 2) = some segment →
      (reviewOf "a b" 2).before ++ segment ++ (reviewOf "a b" 2).after = ascii "a maybe b") ∧
    voiceDraftSegment (ascii "a maybe b") (reviewOf "a b" 2) = some (ascii "maybe") := by
  have hfound := (segment_found_iff_apart (ascii "a b") (ascii "a maybe b") (ascii "yes")
    (ascii "raw") (cursorAt 2)).mpr (fun _ _ => by
      refine ⟨?_, .inl ?_⟩ <;> decide +kernel)
  exact ⟨hfound.1, by decide +kernel⟩

end SegmentExample

/-- An insertion changes only the selection, whose ends are moved into the draft; its text stands
between white space and is found again, the raw transcript takes its place, and the cursor lies in
the draft. -/
theorem insertion_keeps_surroundings (draft text rawText : JsString) (selection : Selection)
    (htext : text ≠ []) :
    let inserted := insertVoiceDraft draft selection text
    let review := inserted.review rawText text
    (∃ start stop : ℕ, Nearest 0 draft.length selection.start start ∧
      Nearest start draft.length selection.stop stop ∧
      ∃ leading trailing,
        inserted.value =
          draft.take start ++ leading ++ text ++ trailing ++ draft.drop stop ∧
        Separates (EndsApart text) (draft.take start) leading (draft.take start ++ leading) ∧
        Separates (StartsApart text) (draft.drop stop) trailing (trailing ++ draft.drop stop)) ∧
    voiceDraftSegment inserted.value review = some text ∧
    (∃ restored, restoreRawVoiceDraft inserted.value review = some restored ∧
      restored.value = inserted.before ++ rawText ++ inserted.after) ∧
    (0 ≤ inserted.selection.start ∧ inserted.selection.start = inserted.selection.stop ∧
      inserted.selection.stop ≤ inserted.value.length) := by
  intro inserted review
  have hvalue : inserted.value = review.before ++ text ++ review.after :=
    insertVoiceDraft_value draft selection text
  have hsegment : voiceDraftSegment inserted.value review = some text := by
    rw [hvalue]
    exact voiceDraftSegment_between review htext
  refine ⟨⟨_, _, nearest_selectionStart draft selection, nearest_selectionStop draft selection,
    _, _, ?_, separates_leading text _, separates_trailing text _⟩, hsegment,
    restoreRawVoiceDraft_of_segment hsegment, insertVoiceDraft_cursor draft selection text⟩
  simp [inserted, insertVoiceDraft]

namespace InsertionExample

/-- Two lines replace a word that is selected in reverse, behind the end of the draft. -/
theorem lines_inserted_at_end :
    let inserted := insertVoiceDraft (ascii "old") ⟨7, 0⟩ (ascii "- one\n- two")
    inserted.value = ascii "old\n\n- one\n- two" ∧
      voiceDraftSegment inserted.value (inserted.review (ascii "raw") (ascii "- one\n- two")) =
        some (ascii "- one\n- two") ∧
      inserted.selection.stop ≤ inserted.value.length := by
  have hkeeps := insertion_keeps_surroundings (ascii "old") (ascii "- one\n- two") (ascii "raw")
    ⟨7, 0⟩ (by decide)
  exact ⟨by decide +kernel, hkeeps.2.1, hkeeps.2.2.2.2.2⟩

end InsertionExample

end LearningPlatform.VoiceDraft
