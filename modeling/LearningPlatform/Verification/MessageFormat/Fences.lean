import LearningPlatform.Model.MessageFormat
import LearningPlatform.Shared.TextLines

/-! # Messages split at their fences

The loop of the parser splits a message at its fences, from left to right: text and code alternate
between them. -/

namespace LearningPlatform.MessageFormat

open Shared JsText

/-! ## Splitting -/

/-- The parts of a text between its fences. -/
def segments : JsString → List JsString
  | [] => [[]]
  | [a] => [[a]]
  | [a, b] => [[a, b]]
  | a :: b :: c :: rest =>
    if a = backtick ∧ b = backtick ∧ c = backtick then [] :: segments rest
    else (segments (b :: c :: rest)).modifyHead (List.cons a)

variable {c : UInt16} {rest text segment code : JsString} {others : List JsString}

theorem fence_prefix_cons_iff {a b : UInt16} :
    fence <+: a :: b :: c :: rest ↔ a = backtick ∧ b = backtick ∧ c = backtick := by
  simp [fence, eq_comm]

@[simp] theorem segments_nil : segments [] = [[]] := rfl

@[simp] theorem segments_fence_append (rest : JsString) :
    segments (fence ++ rest) = [] :: segments rest := by
  simp [fence, segments]

theorem segments_cons (h : ¬fence <+: c :: rest) :
    segments (c :: rest) = (segments rest).modifyHead (List.cons c) := by
  match rest with
  | [] => rfl
  | [b] => rfl
  | b :: d :: rest => rw [segments, if_neg (fence_prefix_cons_iff.not.mp h)]

/-- A text is empty, starts with a fence, or starts with another code unit. -/
@[elab_as_elim]
theorem fence_induction {motive : JsString → Prop} (text : JsString) (nil : motive [])
    (fence : ∀ rest, motive rest → motive (fence ++ rest))
    (cons : ∀ c rest, ¬MessageFormat.fence <+: c :: rest → motive rest → motive (c :: rest)) :
    motive text := by
  induction hlength : text.length using Nat.strong_induction_on generalizing text with
  | _ length ih =>
    cases text with
    | nil => exact nil
    | cons c text =>
      by_cases hfence : MessageFormat.fence <+: c :: text
      · obtain ⟨rest, hrest⟩ := hfence
        rw [← hrest] at hlength ⊢
        refine fence rest (ih rest.length ?_ rest rfl)
        simp only [List.length_append, MessageFormat.fence, List.length_cons] at hlength
        omega
      · refine cons c text hfence (ih text.length ?_ text rfl)
        simp only [List.length_cons] at hlength
        omega

theorem segments_ne_nil (text : JsString) : segments text ≠ [] := by
  induction text using fence_induction with
  | nil => simp
  | fence rest _ => simp
  | cons c rest hfence ih =>
    rw [segments_cons hfence]
    simpa using ih

theorem exists_segments_eq_cons (text : JsString) :
    ∃ first others, segments text = first :: others :=
  List.exists_cons_of_ne_nil (segments_ne_nil text)

theorem segments_of_not_fence (h : ¬fence <:+: text) : segments text = [text] := by
  induction text with
  | nil => rfl
  | cons c rest ih =>
    rw [List.infix_cons_iff, not_or] at h
    rw [segments_cons h.1, ih h.2]
    rfl

/-- The parts of a text with a fence, and those of the rest behind the first. -/
theorem exists_first_fence {gap : JsString} (h : segments text = gap :: segment :: others) :
    ∃ rest, text = gap ++ (fence ++ rest) ∧ segments rest = segment :: others ∧
      ∀ before c tail, gap = before ++ c :: tail → ¬fence <+: c :: tail ++ (fence ++ rest) := by
  induction text using fence_induction generalizing gap with
  | nil => simp at h
  | fence rest _ =>
    rw [segments_fence_append, List.cons.injEq] at h
    obtain ⟨rfl, hrest⟩ := h
    exact ⟨rest, rfl, hrest, by simp⟩
  | cons c text hfence ih =>
    obtain ⟨first, later, hsegments⟩ := exists_segments_eq_cons text
    rw [segments_cons hfence, hsegments, List.modifyHead_cons, List.cons.injEq] at h
    obtain ⟨rfl, rfl⟩ := h
    obtain ⟨rest, htext, hrest, hfirst⟩ := ih hsegments
    refine ⟨rest, by rw [htext]; rfl, hrest, ?_⟩
    intro before d tail hgap
    cases before with
    | nil =>
      obtain ⟨rfl, rfl⟩ := List.cons.inj hgap
      rwa [List.cons_append, ← htext]
    | cons e before =>
      obtain ⟨-, htail⟩ := List.cons.inj hgap
      exact hfirst before d tail htail

theorem not_fence_of_segments (h : segments text = [segment]) :
    text = segment ∧ ¬fence <:+: text := by
  induction text using fence_induction generalizing segment with
  | nil =>
    rw [segments_nil, List.cons.injEq] at h
    exact ⟨h.1, by simp [fence]⟩
  | fence rest _ =>
    rw [segments_fence_append, List.cons.injEq] at h
    exact absurd h.2 (segments_ne_nil rest)
  | cons c rest hfence ih =>
    obtain ⟨first, later, hsegments⟩ := exists_segments_eq_cons rest
    rw [segments_cons hfence, hsegments, List.modifyHead_cons, List.cons.injEq] at h
    obtain ⟨rfl, rfl⟩ := h
    obtain ⟨rfl, hnone⟩ := ih hsegments
    exact ⟨rfl, by rw [List.infix_cons_iff, not_or]; exact ⟨hfence, hnone⟩⟩

/-! ## Joining -/

/-- Two lists of parts, of which the last of the first and the first of the second become one. -/
def glue : List JsString → List JsString → List JsString
  | [], others => others
  | [last], [] => [last]
  | [last], first :: others => (last ++ first) :: others
  | first :: second :: rest, others => first :: glue (second :: rest) others

theorem glue_cons {first : JsString} {rest : List JsString} (h : rest ≠ [])
    (others : List JsString) :
    glue (first :: rest) others = first :: glue rest others := by
  obtain ⟨second, rest, rfl⟩ := List.exists_cons_of_ne_nil h
  rfl

theorem glue_singleton (last : JsString) (h : others ≠ []) :
    glue [last] others = others.modifyHead (last ++ ·) := by
  obtain ⟨first, others, rfl⟩ := List.exists_cons_of_ne_nil h
  rfl

theorem glue_modifyHead (c : UInt16) {parts : List JsString} (hparts : parts ≠ [])
    (hothers : others ≠ []) :
    glue (parts.modifyHead (List.cons c)) others =
      (glue parts others).modifyHead (List.cons c) := by
  obtain ⟨first, rest, rfl⟩ := List.exists_cons_of_ne_nil hparts
  obtain ⟨next, others, rfl⟩ := List.exists_cons_of_ne_nil hothers
  cases rest with
  | nil => rfl
  | cons second rest => rfl

/-- Texts that do not touch with backticks are split apart from each other. -/
theorem segments_append (h : text.getLast? ≠ some backtick ∨ rest.head? ≠ some backtick) :
    segments (text ++ rest) = glue (segments text) (segments rest) := by
  induction text using fence_induction with
  | nil =>
    obtain ⟨first, others, hrest⟩ := exists_segments_eq_cons rest
    simp [hrest, glue]
  | fence text ih =>
    have hrest : text.getLast? ≠ some backtick ∨ rest.head? ≠ some backtick := by
      refine h.imp_left fun hlast htext => hlast ?_
      rw [List.getLast?_append, htext]
      rfl
    rw [List.append_assoc, segments_fence_append, segments_fence_append, ih hrest,
      glue_cons (segments_ne_nil text)]
  | cons c text hfence ih =>
    have hrest : text.getLast? ≠ some backtick ∨ rest.head? ≠ some backtick := by
      refine h.imp_left fun hlast htext => hlast ?_
      rw [List.getLast?_cons, htext]
      rfl
    -- a fence that starts in the text and ends in the rest would touch with backticks
    have hjoined : ¬fence <+: c :: (text ++ rest) := by
      intro hstarts
      match text, rest with
      | [], [] => simp [fence] at hstarts
      | [], [d] => simp [fence] at hstarts
      | [], d :: e :: rest =>
        have hticks := fence_prefix_cons_iff.mp hstarts
        simp [hticks.1, hticks.2.1] at h
      | [d], [] => simp [fence] at hstarts
      | [d], e :: rest =>
        have hticks := fence_prefix_cons_iff.mp hstarts
        simp [hticks.2.1, hticks.2.2] at h
      | d :: e :: text, rest =>
        exact hfence (fence_prefix_cons_iff.mpr (fence_prefix_cons_iff.mp hstarts))
    rw [List.cons_append, segments_cons hjoined, segments_cons hfence, ih hrest,
      glue_modifyHead c (segments_ne_nil text) (segments_ne_nil rest)]

theorem segments_text_append (hnone : ¬fence <:+: text) (rest : JsString)
    (h : text.getLast? ≠ some backtick ∨ rest.head? ≠ some backtick) :
    segments (text ++ rest) = (segments rest).modifyHead (text ++ ·) := by
  rw [segments_append h, segments_of_not_fence hnone, glue_singleton _ (segments_ne_nil rest)]

theorem not_fence_of_backtick_notMem (h : backtick ∉ text) :
    ¬fence <:+: text := fun hwithin => h (hwithin.mem (by simp [fence]))

theorem fence_infix_append_cons_iff (hc : c ≠ backtick) :
    fence <:+: text ++ c :: rest ↔ fence <:+: text ∨ fence <:+: rest := by
  constructor
  · intro h
    rcases List.infix_append_iff.mp h with h | h | ⟨front, tail, heq, hfront, htail⟩
    · exact .inl h
    · rcases List.infix_cons_iff.mp h with h | h
      · exact absurd (List.cons_prefix_cons.mp h).1.symm hc
      · exact .inr h
    · cases tail with
      | nil =>
        rw [List.append_nil] at heq
        exact .inl (heq ▸ hfront.isInfix)
      | cons d tail =>
        have hd : d = backtick := by
          have hmem : d ∈ fence := by rw [heq]; simp
          simpa [fence] using hmem
        exact absurd ((List.cons_prefix_cons.mp htail).1.symm.trans hd) hc
  · rintro (h | h)
    · exact List.infix_append_of_infix_left h
    · exact List.infix_append_of_infix_right (List.infix_cons h)

/-- Code between fences on lines of their own. -/
def fenced (code : JsString) : JsString :=
  fence ++ [newline] ++ code ++ [newline] ++ fence

/-- Code with the newlines beside its fences. -/
def lineOfCode (code : JsString) : JsString :=
  newline :: code ++ [newline]

theorem not_fence_lineOfCode (h : ¬fence <:+: code) : ¬fence <:+: lineOfCode code := by
  have hne : newline ≠ backtick := by decide
  rw [lineOfCode, fence_infix_append_cons_iff hne, ← List.nil_append (newline :: code),
    fence_infix_append_cons_iff hne]
  rintro ((hnil | hcode) | hnil)
  · exact absurd hnil.length_le (by decide)
  · exact h hcode
  · exact absurd hnil.length_le (by decide)

theorem segments_fenced_append (h : ¬fence <:+: code) (rest : JsString) :
    segments (fenced code ++ rest) = [] :: lineOfCode code :: segments rest := by
  have hparts : fenced code ++ rest = fence ++ (lineOfCode code ++ (fence ++ rest)) := by
    simp [fenced, lineOfCode]
  have hlast : (lineOfCode code).getLast? ≠ some backtick := by
    rw [lineOfCode, List.getLast?_concat]
    decide
  rw [hparts, segments_fence_append, segments_text_append (not_fence_lineOfCode h) _ (.inl hlast),
    segments_fence_append, List.modifyHead_cons, List.append_nil]

/-! ## The fence pattern -/

def isLanguage (c : UInt16) : Bool :=
  c != newline && c != backtick

def languagePart (segment : JsString) : JsString :=
  segment.takeWhile isLanguage

/-- The code behind a fence, a language and a newline. -/
def codePart (segment : JsString) : JsString :=
  match segment.dropWhile isLanguage with
  | [] => []
  | c :: rest => if c = newline then rest else c :: rest

theorem codePart_suffix (segment : JsString) : codePart segment <:+ segment := by
  have hdrop := List.dropWhile_suffix (l := segment) isLanguage
  unfold codePart
  cases h : segment.dropWhile isLanguage with
  | nil => exact List.nil_suffix
  | cons c rest =>
    rw [h] at hdrop
    by_cases hc : c = newline
    · simp only [if_pos hc]
      exact (List.suffix_cons c rest).trans hdrop
    · simpa only [if_neg hc] using hdrop

theorem languagePart_append_fence (segment rest : JsString) :
    languagePart (segment ++ (fence ++ rest)) = languagePart segment := by
  have hstop : (fence ++ rest).takeWhile isLanguage = [] := rfl
  rw [languagePart, languagePart, List.takeWhile_append, hstop]
  by_cases hall : (segment.takeWhile isLanguage).length = segment.length
  · rw [if_pos hall, List.append_nil, (List.takeWhile_prefix isLanguage).eq_of_length hall]
  · rw [if_neg hall]

theorem codePart_append_fence (segment rest : JsString) :
    codePart (segment ++ (fence ++ rest)) = codePart segment ++ (fence ++ rest) := by
  have hstop : (fence ++ rest).dropWhile isLanguage = fence ++ rest := rfl
  unfold codePart
  rw [List.dropWhile_append, hstop]
  cases h : segment.dropWhile isLanguage with
  | nil => rfl
  | cons c tail =>
    by_cases hc : c = newline <;> simp [hc]

/-- What the pattern of fences gives behind a language. -/
theorem optional_codePart {next : JsString → Option FenceMatch} {found : FenceMatch}
    (h : next (codePart text) = some found) :
    Pattern.optional (· == newline) next (text.dropWhile isLanguage) = some found := by
  unfold codePart at h
  cases hdrop : text.dropWhile isLanguage with
  | nil =>
    rw [hdrop] at h
    exact h
  | cons c rest =>
    rw [hdrop] at h
    by_cases hc : c = newline
    · rw [Pattern.optional, if_pos (by simpa using hc)]
      simp only [if_pos hc] at h
      rw [h]
      rfl
    · rw [Pattern.optional, if_neg (by simpa using hc)]
      simpa only [if_neg hc] using h

/-- The end of the fence pattern: a fence or the end of the text. -/
def closing (language code : JsString) : JsString → Option FenceMatch :=
  Pattern.either (Pattern.literal fence fun rest => some ⟨language, code, rest⟩)
    (Pattern.atEnd ⟨language, code, []⟩)

theorem closing_fence (language code rest : JsString) :
    closing language code (fence ++ rest) = some ⟨language, code, rest⟩ := by
  simp [closing, Pattern.either, Pattern.literal]

theorem closing_nil (language code : JsString) :
    closing language code [] = some ⟨language, code, []⟩ := rfl

theorem closing_eq_none {language : JsString} (h : ¬fence <+: c :: rest) :
    closing language code (c :: rest) = none := by
  simp [closing, Pattern.either, Pattern.literal, Pattern.atEnd, h]

theorem fencePattern_eq_none (h : ¬fence <+: text) : Web.fencePattern text = none := by
  simp [Web.fencePattern, Pattern.literal, h]

theorem fencePattern_fence {found : FenceMatch}
    (h : Pattern.optional (· == newline) (Pattern.fewest (closing (languagePart text)))
      (text.dropWhile isLanguage) = some found) :
    Web.fencePattern (fence ++ text) = some found := by
  rw [Web.fencePattern, Pattern.literal, if_pos (by simp), List.drop_left]
  exact Pattern.many_eq_some h

theorem fencePattern_segment
    (hfirst : ∀ before c tail, segment = before ++ c :: tail → ¬fence <+: c :: tail ++ (fence ++
      rest)) :
    Web.fencePattern (fence ++ (segment ++ (fence ++ rest))) =
      some ⟨languagePart segment, codePart segment, rest⟩ := by
  have hcode : Pattern.fewest (closing (languagePart segment))
      (codePart (segment ++ (fence ++ rest))) =
        some ⟨languagePart segment, codePart segment, rest⟩ := by
    rw [codePart_append_fence]
    refine Pattern.fewestFrom_append ?_ (closing_fence _ _ _)
    intro before c tail hpart
    obtain ⟨front, hfront⟩ := codePart_suffix segment
    refine closing_eq_none (hfirst (front ++ before) c tail ?_)
    rw [← hfront, hpart, List.append_assoc]
  rw [← languagePart_append_fence segment rest] at hcode ⊢
  exact fencePattern_fence (optional_codePart hcode)

theorem fencePattern_last (h : ¬fence <:+: segment) :
    Web.fencePattern (fence ++ segment) =
      some ⟨languagePart segment, codePart segment, []⟩ := by
  have hcode : Pattern.fewest (closing (languagePart segment)) (codePart segment) =
      some ⟨languagePart segment, codePart segment, []⟩ := by
    rw [← List.append_nil (codePart segment)]
    refine Pattern.fewestFrom_append ?_ ?_
    · intro before c tail hpart
      have hsuffix : c :: tail ++ [] <:+ codePart segment := ⟨before, by rw [hpart]; simp⟩
      refine closing_eq_none fun hstarts => h ?_
      exact hstarts.isInfix.trans (hsuffix.trans (codePart_suffix segment)).isInfix
    · simp [closing_nil]
  exact fencePattern_fence (optional_codePart hcode)

/-! ## The loop over the parts -/

def segmentBlock (segment : JsString) : MessageBlock :=
  .code (stripNewlines (codePart segment)) (trim (languagePart segment))

/-- The blocks of parts that are text and code in turn. -/
def segmentBlocks : List MessageBlock → List JsString → List MessageBlock
  | blocks, [] => blocks
  | blocks, [gap] => appendGap Web.patterns blocks gap
  | blocks, gap :: segment :: rest =>
    segmentBlocks (appendGap Web.patterns blocks gap ++ [segmentBlock segment]) rest

/-- The search for the next match takes a text and the code behind it. -/
theorem exec_fencePattern_cases (text : JsString) :
    (∃ gap, segments text = [gap] ∧ gap = text ∧ Pattern.exec Web.fencePattern text = none) ∨
    ∃ gap segment others rest, segments text = gap :: segment :: others ∧
      Pattern.exec Web.fencePattern text =
        some (gap, ⟨languagePart segment, codePart segment, rest⟩) ∧
      rest.length < text.length ∧
      (segments rest = others ∨ others = [] ∧ rest = []) := by
  obtain ⟨gap, others, hsegments⟩ := exists_segments_eq_cons text
  cases others with
  | nil =>
    obtain ⟨rfl, hnone⟩ := not_fence_of_segments hsegments
    refine .inl ⟨text, hsegments, rfl, Pattern.exec_eq_none ?_⟩
    intro rest hrest
    exact fencePattern_eq_none fun hstarts => hnone (hstarts.isInfix.trans hrest.isInfix)
  | cons segment others =>
    obtain ⟨behind, rfl, hbehind, hfirst⟩ := exists_first_fence hsegments
    have hfails : ∀ before c tail, gap = before ++ c :: tail →
        Web.fencePattern (c :: tail ++ (fence ++ behind)) = none := by
      intro before c tail hgap
      exact fencePattern_eq_none (hfirst before c tail hgap)
    refine .inr ?_
    cases others with
    | nil =>
      obtain ⟨rfl, hnone⟩ := not_fence_of_segments hbehind
      refine ⟨gap, behind, [], [], hsegments, ?_, ?_, .inr ⟨rfl, rfl⟩⟩
      · exact Pattern.exec_append hfails (fencePattern_last hnone)
      · simp only [List.length_append, fence, List.length_cons, List.length_nil]
        omega
    | cons next others =>
      obtain ⟨rest, rfl, hrest, hsecond⟩ := exists_first_fence hbehind
      refine ⟨gap, segment, next :: others, rest, hsegments, ?_, ?_, .inl hrest⟩
      · exact Pattern.exec_append hfails (fencePattern_segment hsecond)
      · simp only [List.length_append, fence, List.length_cons]
        omega

theorem parseLoop_eq {fuel : ℕ} (blocks : List MessageBlock) (hfuel : text.length < fuel) :
    parseLoop Web.patterns fuel blocks text = some (segmentBlocks blocks (segments text)) := by
  induction fuel generalizing blocks text with
  | zero => exact absurd hfuel (Nat.not_lt_zero _)
  | succ fuel ih =>
    rcases exec_fencePattern_cases text with
      ⟨gap, hsegments, rfl, hexec⟩ | ⟨gap, segment, others, rest, hsegments, hexec, hlength, hrest⟩
    · have hexec' : Pattern.exec Web.patterns.fence gap = none := hexec
      rw [parseLoop, hexec', hsegments, segmentBlocks]
    · have hexec' : Pattern.exec Web.patterns.fence text =
          some (gap, ⟨languagePart segment, codePart segment, rest⟩) := hexec
      rw [parseLoop, hexec', hsegments, segmentBlocks]
      simp only [ih _ (show rest.length < fuel by omega)]
      rcases hrest with hrest | ⟨rfl, rfl⟩
      · rw [hrest]
        rfl
      · rfl

theorem parseMessageBlocks_eq {fuel : ℕ} {body : JsString} (hfuel : body.length < fuel) :
    Web.parseMessageBlocks fuel body =
      some (finishBlocks body (segmentBlocks [] (segments body))) := by
  rw [Web.parseMessageBlocks, parseBlocks, parseLoop_eq [] hfuel]
  rfl

end LearningPlatform.MessageFormat
