import LearningPlatform.Verification.MessageFormat.Fences

/-! # Blocks of a message

Where spacers stand among the blocks of a message, and that code blocks come back as they were
written. -/

namespace LearningPlatform.MessageFormat

open Shared JsText

/-! ## What text adds -/

/-- The code of a block. -/
def MessageBlock.code? : MessageBlock → Option JsString
  | .code text _ => some text
  | _ => none

/-- What the lines of a text can do to the blocks: blocks of text are added, and spacers behind
other blocks. -/
inductive Adds : List MessageBlock → List MessageBlock → Prop
  | refl (blocks : List MessageBlock) : Adds blocks blocks
  | text {blocks later : List MessageBlock} {block : MessageBlock} (hspacer : block ≠ .spacer)
      (hcode : block.code? = none) (h : Adds (blocks ++ [block]) later) : Adds blocks later
  | spacer {blocks later : List MessageBlock} (hne : blocks ≠ [])
      (hlast : blocks.getLast? ≠ some .spacer) (h : Adds (blocks ++ [.spacer]) later) :
      Adds blocks later

theorem Adds.trans {blocks later last : List MessageBlock} (h : Adds blocks later)
    (hlast : Adds later last) : Adds blocks last := by
  induction h with
  | refl _ => exact hlast
  | text hspacer hcode _ ih => exact .text hspacer hcode (ih hlast)
  | spacer hne hlast' _ ih => exact .spacer hne hlast' (ih hlast)

namespace LineState

variable (s : LineState)

theorem adds_flushParagraph : Adds s.blocks s.flushParagraph.blocks := by
  by_cases h : trim (unlines s.paragraph) = []
  · simp only [flushParagraph, if_pos h]
    exact .refl _
  · simp only [flushParagraph, if_neg h]
    exact .text (by simp) rfl (.refl _)

theorem adds_flushList : Adds s.blocks s.flushList.blocks := by
  cases hlist : s.listType with
  | none =>
    simp only [flushList, hlist]
    exact .refl _
  | some listType =>
    by_cases h : s.listItems = []
    · simp only [flushList, hlist, if_pos h]
      exact .refl _
    · simp only [flushList, hlist, if_neg h]
      refine .text ?_ ?_ (.refl _)
      · cases listType <;> simp [ListType.block]
      · cases listType <;> rfl

theorem adds_flushQuote : Adds s.blocks s.flushQuote.blocks := by
  by_cases h : trim (unlines s.quoteLines) = []
  · simp only [flushQuote, if_pos h]
    exact .refl _
  · simp only [flushQuote, if_neg h]
    exact .text (by simp) rfl (.refl _)

theorem adds_flushAll : Adds s.blocks s.flushAll.blocks :=
  s.adds_flushParagraph.trans (s.flushParagraph.adds_flushList.trans
    s.flushParagraph.flushList.adds_flushQuote)

theorem adds_pushSpacer : Adds s.blocks s.pushSpacer.blocks := by
  by_cases h : s.blocks = [] ∨ s.blocks.getLast? = some .spacer
  · rw [pushSpacer, if_pos h]
    exact .refl _
  · rw [pushSpacer, if_neg h]
    rw [not_or] at h
    exact .spacer h.1 h.2 (.refl _)

theorem adds_pushItem (listType : ListType) (item : JsString) :
    Adds s.blocks (s.pushItem listType item).blocks := by
  refine s.adds_flushParagraph.trans (s.flushParagraph.adds_flushQuote.trans ?_)
  unfold pushItem
  by_cases hother : s.flushParagraph.flushQuote.listType.isSome &&
      s.flushParagraph.flushQuote.listType != some listType
  · simp only [if_pos hother]
    exact adds_flushList _
  · simp only [if_neg hother]
    exact .refl _

theorem adds_appendLine (patterns : Patterns) (line : JsString) :
    Adds s.blocks (s.appendLine patterns line).blocks := by
  by_cases hblank : trim line = []
  · rw [appendLine, if_pos hblank]
    exact s.adds_flushAll.trans s.flushAll.adds_pushSpacer
  rw [appendLine, if_neg hblank]
  cases patterns.bullet line with
  | some item => exact s.adds_pushItem .bulletList item
  | none =>
    cases patterns.ordered line with
    | some item => exact s.adds_pushItem .orderedList item
    | none =>
      cases patterns.quote line with
      | some text => exact s.adds_flushParagraph.trans s.flushParagraph.adds_flushList
      | none => exact s.adds_flushList.trans s.flushList.adds_flushQuote

theorem adds_foldl (patterns : Patterns) (texts : List JsString) :
    Adds s.blocks (texts.foldl (appendLine patterns) s).blocks := by
  induction texts generalizing s with
  | nil => exact .refl _
  | cons line rest ih => exact (s.adds_appendLine patterns line).trans (ih _)

end LineState

theorem adds_appendGap (patterns : Patterns) (blocks : List MessageBlock) (text : JsString) :
    Adds blocks (appendGap patterns blocks text) := by
  by_cases h : text = []
  · rw [appendGap, if_pos h]
    exact .refl _
  · rw [appendGap, if_neg h, appendTextBlocks]
    exact (LineState.adds_foldl { blocks } patterns _).trans (LineState.adds_flushAll _)

/-! ## Spacers -/

/-- No spacer comes first or follows another. -/
structure Spaced (blocks : List MessageBlock) : Prop where
  first : blocks.head? ≠ some .spacer
  apart : ¬[.spacer, .spacer] <:+: blocks

theorem Spaced.nil : Spaced [] :=
  ⟨by simp, by simp⟩

variable {blocks : List MessageBlock}

theorem Spaced.concat {block : MessageBlock} (h : Spaced blocks)
    (hblock : block = .spacer → blocks ≠ [] ∧ blocks.getLast? ≠ some .spacer) :
    Spaced (blocks ++ [block]) := by
  constructor
  · cases blocks with
    | nil =>
      intro hfirst
      have hspacer : block = .spacer := by simpa using hfirst
      exact (hblock hspacer).1 rfl
    | cons first rest => simpa using h.first
  · rw [List.infix_concat_iff, not_or]
    refine ⟨?_, h.apart⟩
    rw [List.suffix_concat_iff]
    rintro (hnil | ⟨front, hfront, hsuffix⟩)
    · simp at hnil
    · have hparts : [MessageBlock.spacer] ++ [.spacer] = front ++ [block] := hfront
      obtain ⟨rfl, hlast⟩ := List.append_inj' hparts rfl
      obtain ⟨before, rfl⟩ := hsuffix
      exact (hblock (List.singleton_inj.mp hlast).symm).2 (by simp)

theorem Adds.spaced {later : List MessageBlock} (h : Adds blocks later) (hspaced : Spaced blocks) :
    Spaced later := by
  induction h with
  | refl _ => exact hspaced
  | text hspacer _ _ ih => exact ih (hspaced.concat fun h => absurd h hspacer)
  | spacer hne hlast _ ih => exact ih (hspaced.concat fun _ => ⟨hne, hlast⟩)

theorem spaced_segmentBlocks (blocks : List MessageBlock) (parts : List JsString)
    (h : Spaced blocks) : Spaced (segmentBlocks blocks parts) := by
  fun_induction segmentBlocks blocks parts with
  | case1 blocks => exact h
  | case2 blocks gap => exact (adds_appendGap _ _ _).spaced h
  | case3 blocks gap segment rest ih =>
    exact ih (((adds_appendGap _ _ _).spaced h).concat fun hcode => by simp [segmentBlock] at hcode)

theorem finishBlocks_spaced (body : JsString) (h : Spaced blocks) :
    finishBlocks body blocks ≠ [] ∧ Spaced (finishBlocks body blocks) ∧
      (finishBlocks body blocks).getLast? ≠ some .spacer := by
  have hstarts := List.rdropWhile_prefix (· == MessageBlock.spacer) blocks
  cases hrest : blocks.rdropWhile (· == .spacer) with
  | nil =>
    simp only [finishBlocks, hrest]
    refine ⟨by simp, ⟨by simp, ?_⟩, by simp⟩
    intro hwithin
    exact absurd hwithin.length_le (by simp)
  | cons block rest =>
    simp only [finishBlocks, hrest]
    rw [hrest] at hstarts
    refine ⟨by simp, ⟨?_, fun hwithin => h.apart (hwithin.trans hstarts.isInfix)⟩, ?_⟩
    · obtain ⟨tail, rfl⟩ := hstarts
      simpa using h.first
    · have hlast := List.rdropWhile_last_not (· == MessageBlock.spacer) blocks (by simp [hrest])
      intro hspacer
      rw [← hrest, List.getLast?_eq_some_getLast (by simp [hrest]), Option.some.injEq] at hspacer
      simp [hspacer] at hlast

theorem finishBlocks_of_getLast? (body : JsString) (hne : blocks ≠ [])
    (hlast : blocks.getLast? ≠ some .spacer) : finishBlocks body blocks = blocks := by
  have hself : blocks.rdropWhile (· == .spacer) = blocks := by
    rw [List.rdropWhile_eq_self_iff]
    intro hne' hspacer
    rw [List.getLast?_eq_some_getLast hne', beq_iff_eq.mp hspacer] at hlast
    exact hlast rfl
  obtain ⟨block, rest, rfl⟩ := List.exists_cons_of_ne_nil hne
  rw [finishBlocks, hself]

/-! ## Code on lines of its own -/

/-- Code that neither starts nor ends with a newline. -/
def Stripped (code : JsString) : Prop :=
  code.head? ≠ some newline ∧ code.getLast? ≠ some newline

theorem stripNewlines_append_newline {code : JsString} (h : Stripped code) :
    stripNewlines (code ++ [newline]) = code := by
  cases code with
  | nil => rfl
  | cons c rest =>
    have hc : c ≠ newline := by simpa using h.1
    rw [stripNewlines, List.cons_append, List.dropWhile_cons_of_neg (by simpa using hc),
      ← List.cons_append, List.rdropWhile_concat_pos _ _ _ (by simp), List.rdropWhile_eq_self_iff]
    intro hne hlast
    refine h.2 ?_
    rw [List.getLast?_eq_some_getLast hne, Option.some.injEq]
    simpa using hlast

theorem codePart_newline_cons (rest : JsString) : codePart (newline :: rest) = rest := rfl

theorem segmentBlock_lineOfCode {code : JsString} (h : Stripped code) :
    segmentBlock (lineOfCode code) = .code code [] := by
  rw [segmentBlock, lineOfCode, List.cons_append, codePart_newline_cons,
    stripNewlines_append_newline h]
  rfl

theorem appendGap_newlines (patterns : Patterns) (hne : blocks ≠ [])
    (hlast : blocks.getLast? ≠ some .spacer) :
    appendGap patterns blocks [newline, newline] = blocks ++ [.spacer] := by
  have hflush : (LineState.mk blocks [] none [] []).flushAll = LineState.mk blocks [] none [] [] :=
    rfl
  have hline : (LineState.mk blocks [] none [] []).appendLine patterns [] =
      LineState.mk (blocks ++ [.spacer]) [] none [] [] := by
    rw [LineState.appendLine, if_pos (trim_eq_nil_iff.mpr rfl), hflush, LineState.pushSpacer,
      if_neg (by simp [hne, hlast])]
  have hlines : lines (stripNewlines [newline, newline]) = [[]] := by decide
  rw [appendGap, if_neg (by simp), appendTextBlocks, hlines, List.foldl_cons, List.foldl_nil, hline]
  rfl

theorem segments_fenced_join (code : JsString) (codes : List JsString)
    (h : ∀ other ∈ code :: codes, ¬fence <:+: other) :
    segments ((ascii "\n\n").intercalate ((code :: codes).map fenced)) =
      [] :: lineOfCode code :: (codes.flatMap fun other =>
        [[newline, newline], lineOfCode other]) ++ [[]] := by
  induction codes generalizing code with
  | nil =>
    have hcode := segments_fenced_append (h code List.mem_cons_self) []
    rw [List.append_nil] at hcode
    simpa using hcode
  | cons next codes ih =>
    have hnext := ih next fun other hother => h other (List.mem_cons_of_mem _ hother)
    have hgap : ¬fence <:+: ascii "\n\n" := not_fence_of_backtick_notMem (by decide)
    rw [List.map_cons, List.map_cons, List.intercalate_cons_cons, List.append_assoc,
      ← List.map_cons, segments_fenced_append (h code List.mem_cons_self),
      segments_text_append hgap _ (.inl (by decide)), hnext]
    rfl

theorem segmentBlocks_fenced (blocks : List MessageBlock) (codes : List JsString)
    (hcodes : ∀ code ∈ codes, Stripped code) (hne : blocks ≠ [])
    (hlast : blocks.getLast? ≠ some .spacer) :
    segmentBlocks blocks
        ((codes.flatMap fun code => [[newline, newline], lineOfCode code]) ++ [[]]) =
      blocks ++ codes.flatMap fun code => [.spacer, .code code []] := by
  induction codes generalizing blocks with
  | nil => simp [segmentBlocks, appendGap]
  | cons code codes ih =>
    have hrest := ih (blocks ++ [.spacer] ++ [.code code []])
      (fun other hother => hcodes other (List.mem_cons_of_mem _ hother)) (by simp) (by simp)
    rw [List.flatMap_cons, List.append_assoc, List.cons_append, List.cons_append, segmentBlocks,
      appendGap_newlines _ hne hlast, segmentBlock_lineOfCode (hcodes code List.mem_cons_self)]
    rw [List.nil_append, hrest]
    simp

theorem fenced_join_solid (code : JsString) (codes : List JsString) :
    trim ((ascii "\n\n").intercalate ((code :: codes).map fenced)) =
      (ascii "\n\n").intercalate ((code :: codes).map fenced) := by
  have hends (other : JsString) : StartsSolid (fenced other) ∧ EndsSolid (fenced other) := by
    have htick : ¬isWhitespace backtick := by decide
    constructor
    · simpa [fenced, fence, StartsSolid] using htick
    · intro c hc
      rw [fenced, List.getLast?_append] at hc
      simpa [← Option.some.inj hc] using htick
  refine trim_eq_self ?_ ?_
  · cases codes with
    | nil => simpa using (hends code).1
    | cons next codes =>
      rw [List.map_cons, List.map_cons, List.intercalate_cons_cons, List.append_assoc]
      simpa [fenced, fence, StartsSolid] using (hends code).1
  · induction codes generalizing code with
    | nil => simpa using (hends code).2
    | cons next codes ih =>
      rw [List.map_cons, List.map_cons, List.intercalate_cons_cons, ← List.map_cons]
      have hlater := ih next
      intro c hc
      refine hlater c ?_
      have hne : (ascii "\n\n").intercalate ((next :: codes).map fenced) ≠ [] := by
        cases codes <;> simp [fenced, fence, List.intercalate_cons_cons]
      rw [List.getLast?_append, List.getLast?_eq_some_getLast hne] at hc
      rw [List.getLast?_eq_some_getLast hne]
      exact hc

/-! ## Documents of code -/

theorem contentMarkdown_eq (content : List JSONContent) :
    contentMarkdown content = content.map nodeMarkdown := by
  induction content with
  | nil => simp [contentMarkdown]
  | cons child rest ih => rw [contentMarkdown, ih, List.map_cons]

/-- A code block of the editor, whose content is texts without marks. -/
def codeBlockNode (texts : List JsString) : JSONContent :=
  .node .codeBlock (texts.map fun text => .text text [])

theorem nodeMarkdown_codeBlockNode (texts : List JsString) :
    nodeMarkdown (codeBlockNode texts) = fenced texts.flatten := by
  have hcontent : contentMarkdown (texts.map fun text => .text text []) = texts := by
    rw [contentMarkdown_eq, List.map_map]
    conv_rhs => rw [← List.map_id texts]
    refine List.map_congr_left fun text _ => ?_
    simp [nodeMarkdown, applyMarks]
  rw [codeBlockNode, nodeMarkdown, hcontent]
  · rfl
  · simp
  · simp

theorem nodeMarkdown_doc (content : List JSONContent) :
    nodeMarkdown (.node .doc content) =
      trim ((ascii "\n\n").intercalate (content.map nodeMarkdown)) := by
  rw [nodeMarkdown, contentMarkdown_eq]
  · rfl
  · simp
  · simp

theorem parse_codeBlockNodes {codes : List (List JsString)} (hne : codes ≠ [])
    (hcodes : ∀ texts ∈ codes, ¬fence <:+: texts.flatten ∧ Stripped texts.flatten) {fuel : ℕ}
    (hfuel : (editorJsonToMarkdown (some (.node .doc (codes.map codeBlockNode)))).length < fuel) :
    Web.parseMessageBlocks fuel
        (editorJsonToMarkdown (some (.node .doc (codes.map codeBlockNode)))) =
      some ((codes.map fun texts => MessageBlock.code texts.flatten []).intersperse .spacer) := by
  obtain ⟨first, others, rfl⟩ := List.exists_cons_of_ne_nil hne
  have hchildren : ((first :: others).map codeBlockNode).map nodeMarkdown =
      (first.flatten :: others.map List.flatten).map fenced := by
    simp [nodeMarkdown_codeBlockNode, Function.comp_def]
  have hbody : editorJsonToMarkdown (some (.node .doc ((first :: others).map codeBlockNode))) =
      (ascii "\n\n").intercalate ((first.flatten :: others.map List.flatten).map fenced) := by
    rw [editorJsonToMarkdown, nodeMarkdown_doc, hchildren, fenced_join_solid]
  have hfences : ∀ code ∈ first.flatten :: others.map List.flatten, ¬fence <:+: code := by
    intro code hcode
    rw [← List.map_cons] at hcode
    obtain ⟨texts, htexts, rfl⟩ := List.mem_map.mp hcode
    exact (hcodes texts htexts).1
  have hstripped : ∀ code ∈ others.map List.flatten, Stripped code := by
    intro code hcode
    obtain ⟨texts, htexts, rfl⟩ := List.mem_map.mp hcode
    exact (hcodes texts (List.mem_cons_of_mem _ htexts)).2
  have hblocks : segmentBlocks [] (segments ((ascii "\n\n").intercalate
      ((first.flatten :: others.map List.flatten).map fenced))) =
      ((first :: others).map fun texts => MessageBlock.code texts.flatten []).intersperse
        .spacer := by
    rw [segments_fenced_join _ _ hfences, List.cons_append, List.cons_append, segmentBlocks,
      segmentBlock_lineOfCode (hcodes first List.mem_cons_self).2,
      segmentBlocks_fenced _ _ hstripped (by simp) (by simp [appendGap])]
    rw [List.map_cons, intersperse_cons]
    simp [appendGap, List.flatMap_map]
  rw [parseMessageBlocks_eq hfuel, hbody, hblocks]
  rw [finishBlocks_of_getLast? _ (by simp [intersperse_cons]) ?_]
  rw [getLast?_intersperse, List.getLast?_map]
  cases (first :: others).getLast? <;> simp

/-- The parser ends for every body; its blocks are not empty and have spacers only between other
blocks. The copies agree, and a document of code blocks is read back. -/
theorem blocks_spaced_and_code_read_back :
    (∀ body : JsString, ∃ blocks : List MessageBlock,
      (∀ fuel, body.length < fuel → Web.parseMessageBlocks fuel body = some blocks) ∧
      blocks ≠ [] ∧ blocks.head? ≠ some .spacer ∧ blocks.getLast? ≠ some .spacer ∧
      ¬[.spacer, .spacer] <:+: blocks) ∧
    (∀ (fuel : ℕ) (body : JsString),
      Web.parseMessageBlocks fuel body = Mobile.parseMessageBlocks fuel body) ∧
    (∀ codes : List (List JsString), codes ≠ [] →
      (∀ texts ∈ codes, ¬fence <:+: texts.flatten ∧ Stripped texts.flatten) →
      let body := editorJsonToMarkdown (some (.node .doc (codes.map codeBlockNode)))
      ∀ fuel, body.length < fuel → Web.parseMessageBlocks fuel body =
        some ((codes.map fun texts => MessageBlock.code texts.flatten []).intersperse
          .spacer)) := by
  refine ⟨?_, fun _ _ => rfl, ?_⟩
  · intro body
    have hspaced := spaced_segmentBlocks [] (segments body) Spaced.nil
    obtain ⟨hne, hfinished, hlast⟩ := finishBlocks_spaced body hspaced
    exact ⟨_, fun fuel hfuel => parseMessageBlocks_eq hfuel, hne, hfinished.first, hlast,
      hfinished.apart⟩
  · intro codes hne hcodes _ fuel hfuel
    exact parse_codeBlockNodes hne hcodes hfuel

namespace BlocksExample

/-- Two code blocks, of which one has an empty line and backticks. -/
def codes : List (List JsString) :=
  [[ascii "a\n\n", [backtick, backtick]], [ascii "b"]]

theorem two_code_blocks_read_back :
    Mobile.parseMessageBlocks 100
        (editorJsonToMarkdown (some (.node .doc (codes.map codeBlockNode)))) =
      some [.code (ascii "a\n\n" ++ [backtick, backtick]) [], .spacer, .code (ascii "b") []] := by
  obtain ⟨-, hcopies, hcode⟩ := blocks_spaced_and_code_read_back
  rw [← hcopies, hcode codes (by decide) ?_ 100 (by decide +kernel)]
  · decide
  · simp only [Stripped]
    decide +kernel

end BlocksExample

end LearningPlatform.MessageFormat
