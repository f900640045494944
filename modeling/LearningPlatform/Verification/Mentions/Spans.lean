import LearningPlatform.Model.Mentions

/-! # Highlighted mentions

The scanner of the web page takes the longest label at each at-sign that it comes to, and leaves
none out. -/

namespace LearningPlatform.Mentions.Web

open Shared JsText

variable {rules : CaseRules}

/-! ## Patterns -/

/-- What a name is looked for as. -/
def labelOf (name : JsString) : JsString :=
  atSign :: trim name

theorem subset_foldl_addPattern (labels : List JsString) (patterns : List MentionPattern) :
    patterns ⊆ labels.foldl (addPattern rules) patterns := by
  induction labels generalizing patterns with
  | nil => exact List.Subset.refl _
  | cons label labels ih =>
    refine List.Subset.trans ?_ (ih _)
    simp only [addPattern]
    split_ifs
    · exact List.Subset.refl _
    · exact List.subset_append_left _ _

theorem exists_mem_addPattern (rules : CaseRules) (patterns : List MentionPattern)
    (label : JsString) :
    ∃ pattern ∈ addPattern rules patterns label, pattern.normalized = rules.toLowerCase label := by
  simp only [addPattern]
  split_ifs with h
  · obtain ⟨pattern, hpattern, heq⟩ := List.any_eq_true.mp h
    exact ⟨pattern, hpattern, by simpa using heq⟩
  · exact ⟨_, List.mem_append_right _ (List.mem_singleton_self _), rfl⟩

theorem exists_mem_foldl_addPattern {labels : List JsString} {label : JsString}
    (h : label ∈ labels) (patterns : List MentionPattern) :
    ∃ pattern ∈ labels.foldl (addPattern rules) patterns,
      pattern.normalized = rules.toLowerCase label := by
  induction labels generalizing patterns with
  | nil => cases h
  | cons first labels ih =>
    rcases List.mem_cons.mp h with rfl | h
    · obtain ⟨pattern, hpattern, heq⟩ := exists_mem_addPattern rules patterns label
      exact ⟨pattern, subset_foldl_addPattern labels _ hpattern, heq⟩
    · exact ih h _

/-- A pattern was there before, or it is that of a label. -/
theorem mem_foldl_addPattern {labels : List JsString} {patterns : List MentionPattern}
    {pattern : MentionPattern} (h : pattern ∈ labels.foldl (addPattern rules) patterns) :
    pattern ∈ patterns ∨
      ∃ label ∈ labels, pattern = ⟨label, rules.toLowerCase label, .user⟩ := by
  induction labels generalizing patterns with
  | nil => exact .inl h
  | cons first labels ih =>
    rcases ih h with hold | ⟨label, hlabel, heq⟩
    · simp only [addPattern] at hold
      split_ifs at hold
      · exact .inl hold
      · rcases List.mem_append.mp hold with hold | hnew
        · exact .inl hold
        · exact .inr ⟨first, by simp, List.mem_singleton.mp hnew⟩
    · exact .inr ⟨label, by simp [hlabel], heq⟩

section Patterns

variable {names : List JsString} {includeChannel : Bool} {pattern : MentionPattern}

theorem pairwise_buildMentionPatterns (names : List JsString) (includeChannel : Bool) :
    (buildMentionPatterns rules names includeChannel).Pairwise fun left right =>
      right.label.length ≤ left.label.length :=
  pairwise_orderByDesc (fun pattern : MentionPattern => pattern.label.length) _

theorem mem_buildMentionPatterns (h : pattern ∈ buildMentionPatterns rules names includeChannel) :
    pattern.normalized = rules.toLowerCase pattern.label ∧
      (includeChannel ∧ pattern.label = ascii "@everyone" ∨
        ∃ name ∈ names, trim name ≠ [] ∧ pattern.label = labelOf name) := by
  rw [buildMentionPatterns, List.mem_insertionSort] at h
  rcases mem_foldl_addPattern h with hchannel | ⟨label, hlabel, rfl⟩
  · cases includeChannel with
    | false => cases hchannel
    | true =>
      obtain rfl := List.mem_singleton.mp hchannel
      exact ⟨rfl, .inl ⟨rfl, rfl⟩⟩
  · simp only [List.mem_map, List.mem_filter, decide_eq_true_eq] at hlabel
    obtain ⟨-, ⟨⟨name, hname, rfl⟩, hblank⟩, rfl⟩ := hlabel
    exact ⟨rfl, .inr ⟨name, hname, hblank, rfl⟩⟩

theorem exists_mem_buildMentionPatterns {name : JsString} (hname : name ∈ names)
    (hblank : trim name ≠ []) :
    ∃ pattern ∈ buildMentionPatterns rules names includeChannel,
      pattern.normalized = rules.toLowerCase (labelOf name) := by
  simp only [buildMentionPatterns, List.mem_insertionSort]
  refine exists_mem_foldl_addPattern (List.mem_map.mpr ⟨trim name, ?_, rfl⟩) _
  simp only [List.mem_filter, List.mem_map, decide_eq_true_eq]
  exact ⟨⟨name, hname, rfl⟩, hblank⟩

theorem exists_mem_everyone (h : includeChannel = true) :
    ∃ pattern ∈ buildMentionPatterns rules names includeChannel,
      pattern.label = ascii "@everyone" := by
  simp only [buildMentionPatterns, List.mem_insertionSort, h, if_true]
  exact ⟨_, subset_foldl_addPattern _ _ (List.mem_singleton_self _), rfl⟩

theorem label_pos (h : pattern ∈ buildMentionPatterns rules names includeChannel) :
    0 < pattern.label.length := by
  rcases (mem_buildMentionPatterns h).2 with ⟨-, heq⟩ | ⟨name, -, -, heq⟩
  · rw [heq]
    decide
  · rw [heq]
    exact Nat.succ_pos _

end Patterns

/-! ## The scanner -/

section Scanner

variable {patterns : List MentionPattern} {text : JsString} {index stop : ℕ} {mention : Mention}

theorem readMention_eq_some_iff :
    readMention rules patterns text index = some (stop, mention) ↔
      text[index]? = some atSign ∧ isMentionStartBoundary text index ∧
        ∃ pattern, patterns.find? (fits rules text index) = some pattern ∧
          stop = index + pattern.label.length ∧
          mention = ⟨pattern.kind, between text index stop⟩ := by
  unfold readMention
  split_ifs with h
  · simp only [false_iff]
    rintro ⟨hat, hboundary, -⟩
    simp [hat, hboundary] at h
  · simp only [not_or, not_not, Bool.not_eq_true, Bool.not_eq_false'] at h
    simp only [h, true_and, Option.map_eq_some_iff, Prod.mk.injEq]
    refine exists_congr fun pattern => and_congr_right fun _ => ?_
    constructor
    · rintro ⟨rfl, rfl⟩
      exact ⟨rfl, rfl⟩
    · rintro ⟨rfl, rfl⟩
      exact ⟨rfl, rfl⟩

theorem advances_readMention (hpatterns : ∀ pattern ∈ patterns, 0 < pattern.label.length) :
    Advances (readMention rules patterns text) := by
  intro index stop mention h
  obtain ⟨-, -, pattern, hfind, rfl, -⟩ := readMention_eq_some_iff.mp h
  have hlabel := hpatterns pattern (List.mem_of_find?_eq_some hfind)
  omega

theorem text_of_readMention {patterns : List MentionPattern} {text : JsString} {index stop : ℕ}
    {mention : Mention} (h : readMention rules patterns text index = some (stop, mention)) :
    mention.text = between text index stop := by
  obtain ⟨-, -, pattern, -, -, rfl⟩ := readMention_eq_some_iff.mp h
  rfl

end Scanner

/-- A span of a text that is the longest label at an at-sign between boundaries. -/
structure LongestMention (rules : CaseRules) (patterns : List MentionPattern) (text : JsString)
    (found : Span Mention) : Prop where
  text_eq : found.value.text = between text found.start found.stop
  nonempty : found.start < found.stop
  start_lt : found.start < text.length
  atSign_start : text[found.start]? = some atSign
  startBoundary : isMentionStartBoundary text found.start
  endBoundary : isMentionEndBoundary text[found.stop]?
  label : ∃ pattern ∈ patterns, pattern.kind = found.value.kind ∧
    found.stop = found.start + pattern.label.length ∧
    rules.toLowerCase found.value.text = rules.toLowerCase pattern.label
  longest : ∀ pattern ∈ patterns, fits rules text found.start pattern →
    found.start + pattern.label.length ≤ found.stop

theorem longestMention_of_readMention {names : List JsString} {includeChannel : Bool}
    {text : JsString} {found : Span Mention} (hstart : found.start < text.length)
    (h : readMention rules (buildMentionPatterns rules names includeChannel) text found.start =
      some (found.stop, found.value)) :
    LongestMention rules (buildMentionPatterns rules names includeChannel) text found := by
  obtain ⟨hat, hboundary, pattern, hfind, hstop, hmention⟩ := readMention_eq_some_iff.mp h
  have hpattern := List.mem_of_find?_eq_some hfind
  have hfits : rules.toLowerCase (between text found.start found.stop) = pattern.normalized ∧
      isMentionEndBoundary text[found.stop]? := by
    simpa [fits, ← hstop] using List.find?_some hfind
  have hlabel := label_pos hpattern
  refine ⟨text_of_readMention h, by omega, hstart, hat, hboundary, hfits.2,
    ⟨pattern, hpattern, by rw [hmention], hstop, ?_⟩, fun other hother hother' => ?_⟩
  · rw [hmention, hfits.1, (mem_buildMentionPatterns hpattern).1]
  · have hlength := rel_of_find?_eq_some (pairwise_buildMentionPatterns names includeChannel) hfind
      hother hother'
    rcases hlength with rfl | hlength
    · exact hstop.ge
    · omega

theorem exists_renderTextWithMentions (rules : CaseRules) {patterns : List MentionPattern}
    (text : JsString) (hpatterns : ∀ pattern ∈ patterns, 0 < pattern.label.length) :
    ∃ rendered, renderTextWithMentions rules patterns text = some rendered ∧
      (rendered.map (·.2)).flatten = text := by
  have hadvances : Advances (readMention rules patterns text) := advances_readMention hpatterns
  obtain ⟨found, hfound, hscanned⟩ := scanAll_scanned hadvances text.length
  refine ⟨_, by rw [renderTextWithMentions, findMentionMatches, hfound, Option.map_some], ?_⟩
  split_ifs with hempty
  · simp
  · have hpieces := hscanned.flatten_pieces hadvances le_rfl
    rw [List.drop_zero] at hpieces
    rw [List.map_map]
    refine Eq.trans (congrArg List.flatten (List.map_congr_left fun piece hpiece => ?_)) hpieces
    rcases eq_none_or_span_of_mem_pieces hpiece with hgap | ⟨span, hspan, rfl⟩
    · simp [hgap]
    · simpa [Span.text] using text_of_readMention (hscanned.reads_eq span hspan).2

/-- The labels are those of the names, each name has one up to case, and the alias of the channel
is there if asked for. The matches of a text are disjoint and in order; each is the longest label
at its at-sign, no label stands at another at-sign with a boundary, and what is rendered is the
text. -/
theorem mentions_longest_and_complete (rules : CaseRules) (names : List JsString)
    (includeChannel : Bool) (text : JsString) :
    let patterns := buildMentionPatterns rules names includeChannel
    (∀ pattern ∈ patterns, pattern.normalized = rules.toLowerCase pattern.label ∧
      (includeChannel ∧ pattern.label = ascii "@everyone" ∨
        ∃ name ∈ names, trim name ≠ [] ∧ pattern.label = labelOf name)) ∧
    (includeChannel → ∃ pattern ∈ patterns, pattern.label = ascii "@everyone") ∧
    (∀ name ∈ names, trim name ≠ [] →
      ∃ pattern ∈ patterns, pattern.normalized = rules.toLowerCase (labelOf name)) ∧
    ∃ found rendered, findMentionMatches rules patterns text = some found ∧
      renderTextWithMentions rules patterns text = some rendered ∧
      found.Pairwise (fun first second => first.stop ≤ second.start) ∧
      (∀ span ∈ found, LongestMention rules patterns text span) ∧
      (∀ index, text[index]? = some atSign → isMentionStartBoundary text index →
        (∀ span ∈ found, ¬ (span.start ≤ index ∧ index < span.stop)) →
        ∀ pattern ∈ patterns, ¬ fits rules text index pattern) ∧
      (rendered.map (·.2)).flatten = text := by
  intro patterns
  refine ⟨fun pattern hpattern => mem_buildMentionPatterns hpattern, exists_mem_everyone,
    fun name hname hblank => exists_mem_buildMentionPatterns hname hblank, ?_⟩
  have hadvances : Advances (readMention rules patterns text) :=
    advances_readMention fun pattern hpattern => label_pos hpattern
  obtain ⟨found, hfound, hscanned⟩ := scanAll_scanned hadvances text.length
  have hlongest : ∀ span ∈ found, LongestMention rules patterns text span := fun span hspan =>
    longestMention_of_readMention (hscanned.reads_eq span hspan).1 (hscanned.reads_eq span hspan).2
  obtain ⟨rendered, hrendered, htext⟩ :=
    exists_renderTextWithMentions rules text fun pattern hpattern => label_pos hpattern
  refine ⟨found, rendered, hfound, hrendered, hscanned.pairwise hadvances, hlongest, ?_, htext⟩
  intro index hat hboundary houtside pattern hpattern hfits
  have hindex : index < text.length := (List.getElem?_eq_some_iff.mp hat).1
  have hnone := hscanned.reads_eq_none (Nat.zero_le index) hindex houtside
  simp only [readMention, hat, hboundary, ne_eq, not_true_eq_false, Bool.not_true,
    Bool.false_eq_true, or_self, if_false, Option.map_eq_none_iff, List.find?_eq_none] at hnone
  exact hnone pattern hpattern hfits

end LearningPlatform.Mentions.Web
