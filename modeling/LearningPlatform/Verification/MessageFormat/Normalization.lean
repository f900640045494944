import LearningPlatform.Model.MessageFormat
import LearningPlatform.Shared.TextLines

/-! # Normalized messages

`normalizeMessageMarkdown` removes empty list markers outside fences and cuts runs of newlines, and
a second pass finds nothing to change. -/

namespace LearningPlatform.MessageFormat

open Shared JsText

/-! ## Fence lines and empty markers -/

section Lines

variable {line text : JsString}

theorem isFenceLine_eq (line : JsString) :
    isFenceLine line = fence.isPrefixOf (trimStart line) := by
  have hfails (matched : JsString) (c : UInt16) (rest : JsString) (hc : isWhitespace c) :
      Pattern.literal fence (fun _ => some ()) (c :: rest) = none := by
    have hne : backtick ≠ c := by
      rintro rfl
      exact absurd hc (by decide)
    simp [Pattern.literal, fence, hne]
  rw [isFenceLine, Pattern.many_eq_of_fails hfails]
  cases h : fence.isPrefixOf (line.dropWhile isWhitespace) <;>
    simp [Pattern.literal, trimStart, h]

@[simp] theorem isFenceLine_trimStart (line : JsString) :
    isFenceLine (trimStart line) = isFenceLine line := by
  rw [isFenceLine_eq, isFenceLine_eq, trimStart_eq_self_iff.mpr (trimStart_startsSolid line)]

theorem fence_solid : StartsSolid fence ∧ EndsSolid fence := by
  constructor <;> simp [StartsSolid, EndsSolid, fence] <;> decide

/-- The backticks of a fence are no white space, so that they are kept at the end of a line. -/
theorem fence_prefix_trimEnd_iff : fence <+: trimEnd text ↔ fence <+: text := by
  constructor
  · intro h
    exact h.trans (trimEnd_isPrefix text)
  · rintro ⟨rest, rfl⟩
    by_cases hrest : isBlank rest
    · rw [trimEnd_append_blank hrest, trimEnd_eq_self_iff.mpr fence_solid.2]
    · refine List.prefix_of_prefix_length_le (List.prefix_append fence rest) (trimEnd_isPrefix _) ?_
      obtain ⟨tail, htail, htext⟩ := exists_trimEnd (fence ++ rest)
      by_contra hshort
      have hlength : (fence ++ rest).length = (trimEnd (fence ++ rest)).length + tail.length := by
        rw [← List.length_append, ← htext]
      rw [List.length_append] at hlength
      have hsuffix : rest <:+ tail := by
        refine List.suffix_of_suffix_length_le (List.suffix_append fence rest) ?_ (by omega)
        exact ⟨_, htext.symm⟩
      obtain ⟨front, hfront⟩ := hsuffix
      rw [← hfront, isBlank_append] at htail
      simp [hrest] at htail

theorem trimStart_trimEnd_comm (text : JsString) :
    trimStart (trimEnd text) = trimEnd (trimStart text) := by
  have hsolid : EndsSolid (trimStart (trimEnd text)) := by
    obtain ⟨front, -, htext⟩ := exists_trimStart (trimEnd text)
    have hend := trimEnd_endsSolid text
    intro c hc
    refine hend c ?_
    rw [htext, List.getLast?_append, Option.mem_def.mp hc]
    rfl
  rw [← trimEnd_eq_self_iff.mpr hsolid]
  exact trim_trimEnd text

@[simp] theorem isFenceLine_trimEnd (line : JsString) :
    isFenceLine (trimEnd line) = isFenceLine line := by
  rw [isFenceLine_eq, isFenceLine_eq, trimStart_trimEnd_comm, Bool.eq_iff_iff,
    List.isPrefixOf_iff_prefix, List.isPrefixOf_iff_prefix, fence_prefix_trimEnd_iff]

theorem not_isFenceLine_of_isBlank (h : isBlank line) : isFenceLine line = false := by
  rw [isFenceLine_eq, trimStart_eq_nil_iff.mpr h]
  rfl

/-- A marker of a list without an item. -/
def IsMarker (text : JsString) : Prop :=
  (∃ c, isOneOf "-*" c ∧ text = [c]) ∨
    ∃ digits c, digits ≠ [] ∧ (∀ d ∈ digits, isDigit d) ∧ isOneOf ".)" c ∧ text = digits ++ [c]

theorem isSome_toEnd_iff :
    (Pattern.many isWhitespace (fun _ => Pattern.atEnd ()) text).isSome ↔ isBlank text := by
  rw [Pattern.many_eq_of_fails (fun _ _ _ _ => rfl), ← trimStart_eq_nil_iff, trimStart]
  cases text.dropWhile isWhitespace <;> simp [Pattern.atEnd]

theorem isSome_one_iff {p : UInt16 → Bool} :
    (Pattern.one p (Pattern.many isWhitespace fun _ => Pattern.atEnd ()) text).isSome ↔
      ∃ c rest, text = c :: rest ∧ p c ∧ isBlank rest := by
  cases text with
  | nil => simp [Pattern.one]
  | cons c rest =>
    by_cases hc : p c
    · simp [Pattern.one, hc, isSome_toEnd_iff]
    · simp [Pattern.one, hc]

theorem isOneOf_iff (chars : String) (c : UInt16) : isOneOf chars c ↔ c ∈ ascii chars := by
  simp [isOneOf]

theorem not_isDigit_of_isOneOf {c : UInt16} (h : isOneOf ".)" c) : isDigit c = false := by
  rw [isOneOf_iff] at h
  have hcases : c = 46 ∨ c = 41 := by simpa [ascii] using h
  rcases hcases with rfl | rfl <;> decide

theorem isSome_several_digits_iff :
    (Pattern.several isDigit (fun _ => Pattern.one (isOneOf ".)")
      (Pattern.many isWhitespace fun _ => Pattern.atEnd ())) text).isSome ↔
      ∃ digits c rest, text = digits ++ c :: rest ∧ digits ≠ [] ∧ (∀ d ∈ digits, isDigit d) ∧
        isOneOf ".)" c ∧ isBlank rest := by
  have hfails (matched : JsString) (c : UInt16) (rest : JsString) (hc : isDigit c) :
      Pattern.one (isOneOf ".)") (Pattern.many isWhitespace fun _ => Pattern.atEnd ())
        (c :: rest) = none := by
    have hnone : isOneOf ".)" c = false := by
      by_contra h
      simp [not_isDigit_of_isOneOf (Bool.not_eq_false _ ▸ h)] at hc
    simp [Pattern.one, hnone]
  cases text with
  | nil => simp [Pattern.several]
  | cons first text =>
    by_cases hfirst : isDigit first
    · rw [Pattern.several_cons_of_fails hfails hfirst, isSome_one_iff]
      constructor
      · rintro ⟨c, rest, hdrop, hc, hrest⟩
        refine ⟨first :: text.takeWhile isDigit, c, rest, ?_, by simp, ?_, hc, hrest⟩
        · rw [List.cons_append, ← hdrop, List.takeWhile_append_dropWhile]
        · intro d hd
          rcases List.mem_cons.mp hd with rfl | hd
          · exact hfirst
          · exact List.mem_takeWhile_imp hd
      · rintro ⟨digits, c, rest, htext, hne, hdigits, hc, hrest⟩
        obtain ⟨d, digits, rfl⟩ := List.exists_cons_of_ne_nil hne
        rw [List.cons_append] at htext
        refine ⟨c, rest, ?_, hc, hrest⟩
        rw [(List.cons.inj htext).2,
          List.dropWhile_append_of_pos fun d hd => hdigits d (List.mem_cons_of_mem _ hd),
          List.dropWhile_cons_of_neg (by simp [not_isDigit_of_isOneOf hc])]
    · have hnone : ∀ digits c rest, first :: text = digits ++ c :: rest → digits ≠ [] →
          ¬∀ d ∈ digits, isDigit d := by
        intro digits c rest htext hne hdigits
        obtain ⟨d, digits, rfl⟩ := List.exists_cons_of_ne_nil hne
        obtain ⟨rfl, -⟩ := List.cons.inj htext
        exact hfirst (hdigits _ List.mem_cons_self)
      simp only [Pattern.several, hfirst, Bool.false_eq_true, if_false, Option.isSome_none,
        false_iff]
      rintro ⟨digits, c, rest, htext, hne, hdigits, -⟩
      exact hnone digits c rest htext hne hdigits

theorem not_isWhitespace_of_marker {c : UInt16} (h : isOneOf "-*" c ∨ isDigit c ∨ isOneOf ".)" c) :
    ¬isWhitespace c := by
  rcases h with h | h | h
  · rw [isOneOf_iff] at h
    have hcases : c = 45 ∨ c = 42 := by simpa [ascii] using h
    rcases hcases with rfl | rfl <;> decide
  · simp only [isDigit, Bool.and_eq_true, decide_eq_true_eq, UInt16.le_iff_toNat_le] at h
    simp only [isWhitespace, Bool.or_eq_true, Bool.and_eq_true, decide_eq_true_eq, beq_iff_eq,
      UInt16.le_iff_toNat_le, ← UInt16.toNat_inj]
    simp only [UInt16.reduceToNat] at h ⊢
    omega
  · rw [isOneOf_iff] at h
    have hcases : c = 46 ∨ c = 41 := by simpa [ascii] using h
    rcases hcases with rfl | rfl <;> decide

theorem IsMarker.solid (h : IsMarker text) : StartsSolid text ∧ EndsSolid text := by
  rcases h with ⟨c, hc, rfl⟩ | ⟨digits, c, hne, hdigits, hc, rfl⟩
  · have hsolid := not_isWhitespace_of_marker (.inl hc)
    constructor <;> simpa [StartsSolid, EndsSolid] using hsolid
  · obtain ⟨d, digits, rfl⟩ := List.exists_cons_of_ne_nil hne
    have hstart := not_isWhitespace_of_marker (.inr (.inl (hdigits d List.mem_cons_self)))
    have hend := not_isWhitespace_of_marker (.inr (.inr hc))
    constructor
    · simpa [StartsSolid] using hstart
    · intro last hlast
      rw [List.getLast?_concat, Option.mem_some] at hlast
      rwa [← hlast]

/-- A line that matches starts with a marker, behind which it is blank. -/
theorem isEmptyMarker_iff_exists :
    isEmptyMarker line ↔ ∃ marker rest, trimStart line = marker ++ rest ∧ IsMarker marker ∧
      isBlank rest := by
  have hfails (matched : JsString) (c : UInt16) (rest : JsString) (hc : isWhitespace c) :
      Pattern.either (Pattern.one (isOneOf "-*") (Pattern.many isWhitespace fun _ =>
        Pattern.atEnd ())) (Pattern.several isDigit fun _ => Pattern.one (isOneOf ".)")
          (Pattern.many isWhitespace fun _ => Pattern.atEnd ())) (c :: rest) = none := by
    have hone : isOneOf "-*" c = false := by
      by_contra h
      exact not_isWhitespace_of_marker (.inl (Bool.not_eq_false _ ▸ h)) hc
    have hdigit : isDigit c = false := by
      by_contra h
      exact not_isWhitespace_of_marker (.inr (.inl (Bool.not_eq_false _ ▸ h))) hc
    simp [Pattern.either, Pattern.one, Pattern.several, hone, hdigit]
  rw [isEmptyMarker, Pattern.many_eq_of_fails hfails, Pattern.isSome_either,
    Bool.or_eq_true, isSome_one_iff, isSome_several_digits_iff, trimStart]
  constructor
  · rintro (⟨c, rest, htext, hc, hrest⟩ | ⟨digits, c, rest, htext, hne, hdigits, hc, hrest⟩)
    · exact ⟨[c], rest, htext, .inl ⟨c, hc, rfl⟩, hrest⟩
    · refine ⟨digits ++ [c], rest, by simpa using htext, ?_, hrest⟩
      exact .inr ⟨digits, c, hne, hdigits, hc, rfl⟩
  · rintro ⟨marker, rest, htext, ⟨c, hc, rfl⟩ | ⟨digits, c, hne, hdigits, hc, rfl⟩, hrest⟩
    · exact .inl ⟨c, rest, htext, hc, hrest⟩
    · exact .inr ⟨digits, c, rest, by simpa using htext, hne, hdigits, hc, hrest⟩

theorem isEmptyMarker_iff : isEmptyMarker line ↔ IsMarker (trim line) := by
  rw [isEmptyMarker_iff_exists]
  constructor
  · rintro ⟨marker, rest, htext, hmarker, hrest⟩
    rwa [trim, htext, trimEnd_append_blank hrest, trimEnd_eq_self_iff.mpr hmarker.solid.2]
  · intro h
    obtain ⟨tail, htail, htext⟩ := exists_trimEnd (trimStart line)
    exact ⟨trim line, tail, htext, h, htail⟩

@[simp] theorem isEmptyMarker_trimStart (line : JsString) :
    isEmptyMarker (trimStart line) = isEmptyMarker line := by
  rw [Bool.eq_iff_iff, isEmptyMarker_iff, isEmptyMarker_iff, trim_trimStart]

@[simp] theorem isEmptyMarker_trimEnd (line : JsString) :
    isEmptyMarker (trimEnd line) = isEmptyMarker line := by
  rw [Bool.eq_iff_iff, isEmptyMarker_iff, isEmptyMarker_iff, trim_trimEnd]

theorem not_isBlank_of_isEmptyMarker (h : isEmptyMarker line) : isBlank line = false := by
  rw [isEmptyMarker_iff] at h
  by_contra hblank
  rw [trim_eq_nil_iff.mpr (by simpa using hblank)] at h
  rcases h with ⟨c, -, hnil⟩ | ⟨digits, c, -, -, -, hnil⟩ <;> simp at hnil

end Lines

/-! ## Places of lines -/

/-- A line, and whether it stands outside fences. -/
structure PlacedLine where
  outside : Bool
  line : JsString
  deriving DecidableEq, Repr

/-- Where the lines of a message stand, from a state in which a fence is open or not. -/
def places : Bool → List JsString → List PlacedLine
  | _, [] => []
  | inside, line :: rest =>
    if isFenceLine line then ⟨false, line⟩ :: places (!inside) rest
    else ⟨!inside, line⟩ :: places inside rest

namespace PlacedLine

variable (placed : PlacedLine)

/-- An empty marker outside fences, which is removed. -/
def removed : Bool :=
  placed.outside && isEmptyMarker placed.line

def blank : Bool :=
  isBlank placed.line

def trimStart : PlacedLine :=
  { placed with line := JsText.trimStart placed.line }

def trimEnd : PlacedLine :=
  { placed with line := JsText.trimEnd placed.line }

@[simp] theorem removed_trimStart : placed.trimStart.removed = placed.removed := by
  simp [removed, trimStart]

@[simp] theorem removed_trimEnd : placed.trimEnd.removed = placed.removed := by
  simp [removed, trimEnd]

end PlacedLine

/-- Lines of a message that is trimmed at its two ends. -/
def trimMessage (placed : List PlacedLine) : List PlacedLine :=
  (placed.modifyHead PlacedLine.trimStart).modifyLast PlacedLine.trimEnd

section Places

variable {inside : Bool} {texts : List JsString} {line : JsString}

theorem places_fence (h : isFenceLine line) (rest : List JsString) :
    places inside (line :: rest) = ⟨false, line⟩ :: places (!inside) rest := by
  rw [places, if_pos h]

theorem places_of_not_fence (h : ¬isFenceLine line) (rest : List JsString) :
    places inside (line :: rest) = ⟨!inside, line⟩ :: places inside rest := by
  rw [places, if_neg h]

theorem map_line_places (inside : Bool) (texts : List JsString) :
    (places inside texts).map PlacedLine.line = texts := by
  induction texts generalizing inside with
  | nil => rfl
  | cons line rest ih =>
    by_cases hfence : isFenceLine line
    · rw [places_fence hfence, List.map_cons, ih]
    · rw [places_of_not_fence hfence, List.map_cons, ih]

/-- The filter removes the empty markers, and the other lines keep their places. -/
theorem places_keptLines (inside : Bool) (texts : List JsString) :
    places inside (keptLines inside texts) = (places inside texts).filter (!·.removed) := by
  induction texts generalizing inside with
  | nil => rfl
  | cons line rest ih =>
    by_cases hfence : isFenceLine line
    · rw [keptLines, if_pos hfence, places_fence hfence, places_fence hfence, ih,
        List.filter_cons_of_pos (by simp [PlacedLine.removed])]
    · by_cases hkept : inside || !isEmptyMarker line
      · rw [keptLines, if_neg hfence, if_pos hkept, places_of_not_fence hfence,
          places_of_not_fence hfence, ih, List.filter_cons_of_pos (by
            simpa [PlacedLine.removed] using hkept)]
      · rw [keptLines, if_neg hfence, if_neg hkept, places_of_not_fence hfence, ih,
          List.filter_cons_of_neg (by simpa [PlacedLine.removed] using hkept)]

theorem keptLines_eq_self (h : ∀ placed ∈ places inside texts, placed.removed = false) :
    keptLines inside texts = texts := by
  have hplaces : places inside (keptLines inside texts) = places inside texts := by
    rw [places_keptLines, List.filter_eq_self]
    intro placed hplaced
    simp [h placed hplaced]
  rw [← map_line_places inside (keptLines inside texts), hplaces, map_line_places]

theorem keptLines_sublist (inside : Bool) (texts : List JsString) :
    (keptLines inside texts).Sublist texts := by
  rw [← map_line_places inside (keptLines inside texts), places_keptLines]
  conv_rhs => rw [← map_line_places inside texts]
  exact List.filter_sublist.map _

/-- Blank lines do not change the places of the others. -/
theorem places_filter_content (inside : Bool) (texts : List JsString) :
    places inside (texts.filter (!isBlank ·)) = (places inside texts).filter (!·.blank) := by
  induction texts generalizing inside with
  | nil => rfl
  | cons line rest ih =>
    by_cases hblank : isBlank line
    · have hfence : ¬isFenceLine line := by simp [not_isFenceLine_of_isBlank hblank]
      rw [List.filter_cons_of_neg (by simp [hblank]), places_of_not_fence hfence, ih,
        List.filter_cons_of_neg (by simp [PlacedLine.blank, hblank])]
    · rw [List.filter_cons_of_pos (by simp [hblank])]
      by_cases hfence : isFenceLine line
      · rw [places_fence hfence, places_fence hfence, ih,
          List.filter_cons_of_pos (by simp [PlacedLine.blank, hblank])]
      · rw [places_of_not_fence hfence, places_of_not_fence hfence, ih,
          List.filter_cons_of_pos (by simp [PlacedLine.blank, hblank])]

theorem places_modifyHead (inside : Bool) (texts : List JsString) :
    places inside (texts.modifyHead trimStart) =
      (places inside texts).modifyHead PlacedLine.trimStart := by
  cases texts with
  | nil => rfl
  | cons line rest =>
    rw [List.modifyHead_cons, places, places, isFenceLine_trimStart]
    by_cases hfence : isFenceLine line <;> simp [hfence, PlacedLine.trimStart]

theorem places_modifyLast (inside : Bool) (texts : List JsString) :
    places inside (texts.modifyLast trimEnd) =
      (places inside texts).modifyLast PlacedLine.trimEnd := by
  induction texts generalizing inside with
  | nil => rfl
  | cons line rest ih =>
    by_cases hrest : rest = []
    · subst hrest
      rw [show [line].modifyLast trimEnd = [trimEnd line] from rfl, places, places,
        isFenceLine_trimEnd]
      by_cases hfence : isFenceLine line <;> simp [hfence, places] <;> rfl
    · have hplaces (state : Bool) : places state rest ≠ [] := by
        intro hnil
        exact hrest (by rw [← map_line_places state rest, hnil, List.map_nil])
      have hcons {α : Type} (f : α → α) (first : α) {others : List α} (h : others ≠ []) :
          (first :: others).modifyLast f = first :: others.modifyLast f :=
        List.modifyLast_append_of_right_ne_nil f [first] others h
      rw [hcons _ _ hrest]
      by_cases hfence : isFenceLine line
      · rw [places_fence hfence, places_fence hfence, ih, hcons _ _ (hplaces _)]
      · rw [places_of_not_fence hfence, places_of_not_fence hfence, ih, hcons _ _ (hplaces _)]

theorem places_trimEnds (texts : List JsString) :
    places false (trimEnds texts) = trimMessage (places false texts) := by
  rw [trimEnds, places_modifyLast, places_modifyHead, trimMessage]

end Places

/-! ## One pass -/

section Pass

variable (body : JsString)

theorem contentLines_normalize :
    contentLines (normalizeMessageMarkdown body) =
      trimEnds ((keptLines false (lines (joinLineEnds body))).filter (!isBlank ·)) := by
  have hjoined (kept : List JsString) (hkept : ∀ line ∈ kept, newline ∉ line) :
      contentLines (unlines kept) = kept.filter (!isBlank ·) := by
    by_cases hnil : kept = []
    · subst hnil
      rfl
    · rw [contentLines, lines_unlines hkept hnil]
  rw [normalizeMessageMarkdown, contentLines_trim, contentLines_collapseNewlines, hjoined]
  intro line hline
  exact newline_notMem_of_mem_lines ((keptLines_sublist _ _).mem hline)

theorem placed_content_normalize :
    (places false (lines (normalizeMessageMarkdown body))).filter (!·.blank) =
      trimMessage ((places false (lines (joinLineEnds body))).filter fun placed =>
        !placed.blank && !placed.removed) := by
  rw [← places_filter_content, ← contentLines, contentLines_normalize, places_trimEnds,
    places_filter_content, places_keptLines, List.filter_filter]

theorem not_removed_normalize :
    ∀ placed ∈ places false (lines (normalizeMessageMarkdown body)), placed.removed = false := by
  intro placed hplaced
  by_contra hremoved
  have hmarker : isEmptyMarker placed.line := by
    simp only [PlacedLine.removed, Bool.not_eq_false, Bool.and_eq_true] at hremoved
    exact hremoved.2
  have hcontent : placed ∈ (places false (lines (normalizeMessageMarkdown body))).filter
      (!·.blank) := by
    rw [List.mem_filter]
    exact ⟨hplaced, by simp [PlacedLine.blank, not_isBlank_of_isEmptyMarker hmarker]⟩
  rw [placed_content_normalize, trimMessage] at hcontent
  refine hremoved (forall_modifyLast (P := fun placed => placed.removed = false) ?_ ?_ placed
    hcontent)
  · refine forall_modifyHead ?_ fun placed h => by simpa using h
    intro placed hkept
    have hfilter := (List.mem_filter.mp hkept).2
    simp only [Bool.and_eq_true, Bool.not_eq_true'] at hfilter
    exact hfilter.2
  · intro placed h
    simpa using h

variable {body}

theorem joinLineEnds_of_notMem (h : carriageReturn ∉ body) : joinLineEnds body = body :=
  joinLineEnds_eq_self fun hends => h (hends.mem List.mem_cons_self)

theorem carriageReturn_notMem_normalize (h : carriageReturn ∉ body) :
    carriageReturn ∉ normalizeMessageMarkdown body := by
  intro hmem
  have hjoined := (cutRuns_sublist 0 _).mem ((trim_isInfix _).mem hmem)
  rcases mem_unlines hjoined with hnewline | ⟨line, hline, hmem⟩
  · exact absurd hnewline (by decide)
  · rw [joinLineEnds_of_notMem h] at hline
    exact h ((infix_of_mem_lines ((keptLines_sublist _ _).mem hline)).mem hmem)

theorem not_threeNewlines_normalize : ¬threeNewlines <:+: normalizeMessageMarkdown body := by
  intro h
  exact not_threeNewlines_collapseNewlines _ (h.trans (trim_isInfix _))

end Pass

/-- A second pass changes nothing; the lines outside fences that are neither blank nor empty markers
stay as they are and where they are, up to trimming at the two ends of the message; and the result
has no three newlines in a row and no white space around it. -/
theorem normalize_idempotent_and_keeps_lines (body : JsString) (hreturn : carriageReturn ∉ body) :
    normalizeMessageMarkdown (normalizeMessageMarkdown body) = normalizeMessageMarkdown body ∧
    (places false (lines (normalizeMessageMarkdown body))).filter (!·.blank) =
      trimMessage ((places false (lines body)).filter fun placed =>
        !placed.blank && !placed.removed) ∧
    ¬threeNewlines <:+: normalizeMessageMarkdown body ∧
    StartsSolid (normalizeMessageMarkdown body) ∧ EndsSolid (normalizeMessageMarkdown body) := by
  have hthree : ¬threeNewlines <:+: normalizeMessageMarkdown body := not_threeNewlines_normalize
  have hstart : StartsSolid (normalizeMessageMarkdown body) := trim_startsSolid _
  have hend : EndsSolid (normalizeMessageMarkdown body) := trim_endsSolid _
  refine ⟨?_, ?_, hthree, hstart, hend⟩
  · conv_lhs => rw [normalizeMessageMarkdown]
    rw [joinLineEnds_of_notMem (carriageReturn_notMem_normalize hreturn),
      keptLines_eq_self (not_removed_normalize body), unlines_lines,
      collapseNewlines_eq_self hthree, trim_eq_self hstart hend]
  · rw [placed_content_normalize, joinLineEnds_of_notMem hreturn]

namespace NormalizationExample

/-- A heading with a code block, between empty markers. -/
def message : JsString :=
  ascii " Steps:\n-\n\n\n" ++ fence ++ ascii "\n1.\n" ++ fence ++ ascii "\n2. "

/-- The markers around the fence are removed, the one inside stays. -/
theorem markers_removed_around_fence :
    normalizeMessageMarkdown message =
      ascii "Steps:\n\n" ++ fence ++ ascii "\n1.\n" ++ fence ∧
    normalizeMessageMarkdown (normalizeMessageMarkdown message) =
      normalizeMessageMarkdown message :=
  ⟨by decide +kernel, (normalize_idempotent_and_keeps_lines message (by decide +kernel)).1⟩

end NormalizationExample

end LearningPlatform.MessageFormat
