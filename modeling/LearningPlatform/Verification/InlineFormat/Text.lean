import LearningPlatform.Shared.TextLines
import LearningPlatform.Verification.InlineFormat.Formats
import LearningPlatform.Verification.Mentions.Segments
import LearningPlatform.Verification.Mentions.Spans

/-! # The text of a message

The renderers of the web page and of the mobile app lose no text but the delimiters of what they
match, unless they misread a piece. -/

namespace LearningPlatform.InlineFormat

open Shared JsText Mentions

/-! ## Links -/

section Links

variable {text label : JsString} {index stop start : ℕ} {link : InlineLink}

theorem openerAt_eq_some (h : openerAt text index = some (start, label)) :
    start = index + label.length + 3 := by
  simp only [openerAt] at h
  split_ifs at h
  cases h
  omega

theorem linkIn_markdown {target : JsString} (hopener : openerAt text index = some (start, label))
    (hstop : stop = start + target.length + 1) (hlength : stop ≤ text.length) :
    LinkIn text ⟨index, stop, .markdown label target⟩ := by
  have hstart := openerAt_eq_some hopener
  simp only [LinkIn, Span.text, length_between hlength]
  omega

theorem plainLinkAt_eq_some (h : plainLinkAt text index = some (stop, link)) :
    index < stop ∧ LinkIn text ⟨index, stop, link⟩ := by
  obtain ⟨⟨start, label⟩, hopener, hlink⟩ := Option.bind_eq_some_iff.mp h
  simp only at hlink
  split_ifs at hlink with hclosed
  obtain ⟨hstop, rfl⟩ := Prod.mk.inj (Option.some.inj hlink)
  have hlength := (List.getElem?_eq_some_iff.mp hclosed.2).1
  have hstart := openerAt_eq_some hopener
  exact ⟨by omega, linkIn_markdown hopener hstop.symm (by omega)⟩

theorem addressAt_eq_some (h : addressAt text index = some (stop, link)) :
    index < stop ∧ LinkIn text ⟨index, stop, link⟩ := by
  obtain ⟨length, -, hlink⟩ := Option.bind_eq_some_iff.mp h
  simp only at hlink
  split_ifs at hlink with hempty
  cases hlink
  have hpos := List.length_pos_iff.mpr hempty
  exact ⟨by omega, rfl⟩

end Links

theorem visibleAll_map_parts {β : Type} (node : β → InlineNode) (part : β → JsString)
    (hnode : ∀ value, (node value).visible = part value) (values : List β) :
    visibleAll (values.map node) = (values.map part).flatten := by
  induction values with
  | nil => rfl
  | cons value values ih => simp [visibleAll, hnode, ih]

namespace Web

theorem linkAt_eq_some {text : JsString} {index stop : ℕ} {link : InlineLink}
    (h : linkAt text index = some (stop, link)) :
    index < stop ∧ LinkIn text ⟨index, stop, link⟩ := by
  rcases (Option.orElse_eq_some _ _ _).mp h with hmarkdown | ⟨-, haddress⟩
  · exact plainLinkAt_eq_some hmarkdown
  · exact addressAt_eq_some haddress

theorem visible_textNode (part : Option Mentions.Web.MentionKind × JsString) :
    (textNode part).visible = part.2 := by
  obtain ⟨kind, text⟩ := part
  cases kind <;> rfl

theorem lawful (case : CaseRules) (names : List JsString) (includeChannel : Bool) :
    Lawful (rules case (Mentions.Web.buildMentionPatterns case names includeChannel)) := by
  have hlabels : ∀ pattern ∈ Mentions.Web.buildMentionPatterns case names includeChannel,
      0 < pattern.label.length := fun pattern hpattern => Mentions.Web.label_pos hpattern
  refine ⟨fun chunk => ?_, fun target => ⟨_, rfl⟩, fun text => ?_, fun value => ?_, fun text => ?_⟩
  · have hadvances : Advances (linkAt chunk) := fun _ _ _ h => (linkAt_eq_some h).1
    obtain ⟨spans, hspans, hscanned⟩ := scanAll_scanned hadvances chunk.length
    exact ⟨spans, _, hspans, hadvances, hscanned,
      fun span hspan => (linkAt_eq_some (hscanned.reads_eq span hspan).2).2⟩
  · obtain ⟨rendered, hrendered, htext⟩ :=
      Mentions.Web.exists_renderTextWithMentions case text hlabels
    exact ⟨rendered.map textNode, by simp only [rules, textNodes, hrendered, Option.map_some],
      by rw [visibleAll_map_parts textNode (·.2) visible_textNode, htext]⟩
  · have hadvances : Advances (Mentions.Web.readMention case _ value) :=
      Mentions.Web.advances_readMention hlabels
    obtain ⟨spans, hspans, -⟩ := scanAll_scanned hadvances value.length
    exact ⟨testNestedFormat value || !spans.isEmpty,
      by simp only [rules, Mentions.Web.findMentionMatches, hspans, Option.map_some]⟩
  · exact ⟨[.text text], rfl, by simp [visibleAll, InlineNode.visible]⟩

end Web

namespace Mobile

section Links

variable {text : JsString} {index stop start : ℕ} {link : InlineLink}

theorem targetFrom_eq_some {depth : ℕ} {target rest result : JsString}
    (h : targetFrom depth target rest = some result) :
    result.length < target.length + rest.length := by
  induction rest generalizing depth target with
  | nil => cases h
  | cons c rest ih =>
    rw [targetFrom] at h
    have hlater : ∀ {depth}, targetFrom depth (target ++ [c]) rest = some result →
        result.length < target.length + (c :: rest).length := by
      intro depth hrest
      have hlength := ih hrest
      simp only [List.length_append, List.length_cons, List.length_nil] at hlength ⊢
      omega
    split_ifs at h
    · exact hlater h
    · cases h
      simp
    · exact hlater h
    · exact hlater h

theorem markdownLinkAt_eq_some (h : markdownLinkAt text index = some (stop, link)) :
    index < stop ∧ LinkIn text ⟨index, stop, link⟩ := by
  obtain ⟨⟨start, label⟩, hopener, hlink⟩ := Option.bind_eq_some_iff.mp h
  obtain ⟨target, htarget, heq⟩ := Option.map_eq_some_iff.mp hlink
  obtain ⟨hstop, rfl⟩ := Prod.mk.inj heq
  have hlength := targetFrom_eq_some htarget
  have hstart := openerAt_eq_some hopener
  simp only [List.length_nil, List.length_drop] at hlength
  exact ⟨by omega, linkIn_markdown hopener hstop.symm (by omega)⟩

def linkAt (text : JsString) (index : ℕ) : Option (ℕ × InlineLink) :=
  markdownLinkAt text index <|> addressAt text index

theorem linkAt_eq_some (h : linkAt text index = some (stop, link)) :
    index < stop ∧ LinkIn text ⟨index, stop, link⟩ := by
  rcases (Option.orElse_eq_some _ _ _).mp h with hmarkdown | ⟨-, haddress⟩
  · exact markdownLinkAt_eq_some hmarkdown
  · exact addressAt_eq_some haddress

theorem advances_linkAt (text : JsString) : Advances (linkAt text) :=
  fun _ _ _ h => (linkAt_eq_some h).1

end Links

/-- The first position from a start on, where something is found. -/
structure FirstFrom (reads : ℕ → Option (ℕ × InlineLink)) (size start : ℕ)
    (span : Span InlineLink) : Prop where
  start_le : start ≤ span.start
  start_lt : span.start < size
  reads_eq : reads span.start = some (span.stop, span.value)
  before : ∀ j, start ≤ j → j < span.start → reads j = none

section Search

variable {reads : ℕ → Option (ℕ × InlineLink)} {size start : ℕ} {span : Span InlineLink}

theorem firstFrom_of_nextFrom (h : nextFrom reads size start = some span) :
    FirstFrom reads size start span := by
  obtain ⟨index, hfind, hspan⟩ := Option.bind_eq_some_iff.mp h
  obtain ⟨⟨stop, link⟩, hread, rfl⟩ := Option.map_eq_some_iff.mp hspan
  obtain ⟨-, hmem, hbefore⟩ := List.find?_range'_eq_some.mp hfind
  rw [List.mem_range'_1] at hmem
  exact ⟨hmem.1, by simp only; omega, hread, fun j hj hlt => by simpa using hbefore j hj hlt⟩

theorem reads_eq_none_of_nextFrom (h : nextFrom reads size start = none) {j : ℕ} (hj : start ≤ j)
    (hsize : j < size) : reads j = none := by
  by_contra hread
  obtain ⟨⟨stop, link⟩, hlink⟩ := Option.ne_none_iff_exists'.mp hread
  cases hfind : (List.range' start (size - start)).find? fun index => (reads index).isSome with
  | none =>
    rw [List.find?_range'_eq_none] at hfind
    simpa [hlink] using hfind j hj (by omega)
  | some index =>
    obtain ⟨hisSome, -, -⟩ := List.find?_range'_eq_some.mp hfind
    obtain ⟨found, hfound⟩ := Option.isSome_iff_exists.mp hisSome
    simp [nextFrom, hfind, hfound] at h

end Search

/-- The nearer one of the two links is the first. -/
theorem nextInlineLink_cases (chunk : JsString) (cursor : ℕ) :
    (∃ span, nextInlineLink chunk cursor = some span ∧
        FirstFrom (linkAt chunk) chunk.length cursor span) ∨
      nextInlineLink chunk cursor = none ∧
        ∀ j, cursor ≤ j → j < chunk.length → linkAt chunk j = none := by
  unfold nextInlineLink nextMarkdownLink
  cases hmarkdown : nextFrom (markdownLinkAt chunk) chunk.length cursor with
  | some markdown =>
    have hfirst := firstFrom_of_nextFrom hmarkdown
    cases hbare : nextFrom (addressAt chunk) chunk.length cursor with
    | some bare =>
      have hfirst' := firstFrom_of_nextFrom hbare
      refine .inl ?_
      by_cases hle : markdown.start ≤ bare.start
      · refine ⟨markdown, by simp [hle], hfirst.start_le, hfirst.start_lt, ?_, fun j hj hlt => ?_⟩
        · simp [linkAt, hfirst.reads_eq]
        · simp [linkAt, hfirst.before j hj hlt, hfirst'.before j hj (by omega)]
      · refine ⟨bare, by simp [hle], hfirst'.start_le, hfirst'.start_lt, ?_, fun j hj hlt => ?_⟩
        · simp [linkAt, hfirst.before _ hfirst'.start_le (by omega), hfirst'.reads_eq]
        · simp [linkAt, hfirst.before j hj (by omega), hfirst'.before j hj hlt]
    | none =>
      refine .inl ⟨markdown, rfl, hfirst.start_le, hfirst.start_lt, ?_, fun j hj hlt => ?_⟩
      · simp [linkAt, hfirst.reads_eq]
      · have haddress := reads_eq_none_of_nextFrom hbare hj (hlt.trans hfirst.start_lt)
        simp [linkAt, hfirst.before j hj hlt, haddress]
  | none =>
    cases hbare : nextFrom (addressAt chunk) chunk.length cursor with
    | some bare =>
      have hfirst' := firstFrom_of_nextFrom hbare
      refine .inl ⟨bare, rfl, hfirst'.start_le, hfirst'.start_lt, ?_, fun j hj hlt => ?_⟩
      · have hnone := reads_eq_none_of_nextFrom hmarkdown hfirst'.start_le hfirst'.start_lt
        simp [linkAt, hnone, hfirst'.reads_eq]
      · have hnone := reads_eq_none_of_nextFrom hmarkdown hj (hlt.trans hfirst'.start_lt)
        simp [linkAt, hnone, hfirst'.before j hj hlt]
    | none =>
      refine .inr ⟨rfl, fun j hj hlt => ?_⟩
      simp [linkAt, reads_eq_none_of_nextFrom hmarkdown hj hlt,
        reads_eq_none_of_nextFrom hbare hj hlt]

/-- The loop reads the links of a chunk from left to right. -/
theorem linkLoop_scanned {chunk : JsString} {cursor fuel : ℕ}
    (hfuel : chunk.length - cursor < fuel) :
    ∃ spans, linkLoop chunk fuel cursor = some spans ∧
      Scanned (linkAt chunk) chunk.length cursor spans := by
  induction fuel generalizing cursor with
  | zero => omega
  | succ fuel ih =>
    rcases nextInlineLink_cases chunk cursor with
      ⟨span, hnext, hfirst⟩ | ⟨hnext, hnone⟩
    · have hstop := advances_linkAt chunk _ _ _ hfirst.reads_eq
      have hstart := hfirst.start_le
      have hsize := hfirst.start_lt
      obtain ⟨spans, hloop, hscanned⟩ := @ih span.stop (by omega)
      refine ⟨span :: spans, by simp [linkLoop, hnext, hloop], ?_⟩
      exact Scanned.skip_to (.take hsize hfirst.reads_eq hscanned) hstart hsize.le hfirst.before
    · refine ⟨[], by simp [linkLoop, hnext], ?_⟩
      by_cases hcursor : cursor ≤ chunk.length
      · exact Scanned.skip_to (.done le_rfl) hcursor le_rfl hnone
      · exact .done (by omega)

/-! ## Mentions -/

theorem everyoneAt_eq_some {case : CaseRules} {text : List JsString} {index stop : ℕ} {value : Unit}
    (h : everyoneAt case text index = some (stop, value)) : index < stop := by
  unfold everyoneAt at h
  split_ifs at h
  obtain ⟨rfl, -⟩ := Prod.mk.inj (Option.some.inj h)
  omega

theorem visible_partNode (case : CaseRules) (part : JsString) :
    (partNode case part).visible = part := by
  unfold partNode
  split <;> rfl

theorem exists_segmentNodes (case : CaseRules) (segment : JsString) :
    ∃ nodes, segmentNodes case segment = some nodes ∧ visibleAll nodes = segment := by
  have hadvances : Advances (everyoneAt case (Mentions.Mobile.characters segment)) :=
    fun _ _ _ h => everyoneAt_eq_some h
  obtain ⟨spans, hspans, hscanned⟩ :=
    scanAll_scanned hadvances (Mentions.Mobile.characters segment).length
  have hpieces := hscanned.flatten_pieces hadvances le_rfl
  refine ⟨_, by simp only [segmentNodes, hspans, Option.map_some]; rfl, ?_⟩
  rw [visibleAll_map_parts _ _ fun piece => visible_partNode case _]
  have hflatten := congrArg List.flatten hpieces
  rwa [List.flatten_flatten, List.map_map, List.drop_zero,
    Mentions.Mobile.flatten_characters] at hflatten

theorem exists_renderMentions (case : CaseRules) (users : List Mentions.User) (text : JsString) :
    ∃ nodes, renderMentions case users text = some nodes ∧ visibleAll nodes = text := by
  obtain ⟨segments, hsegments, htext⟩ := Mentions.Mobile.exists_messageSegments case text users
  have hrenders : ∀ segment ∈ segments,
      Renders segment.text (renderSegment case segment) segment.text False := by
    intro segment _
    refine renders_self ?_
    unfold renderSegment
    split_ifs
    · exact ⟨_, rfl, by simp [visibleAll, InlineNode.visible]⟩
    · exact exists_segmentNodes case segment.text
  obtain ⟨-, nodes, hnodes, -, -, hvisible⟩ := renders_collect hrenders
  rw [List.flatMap_def, htext] at hvisible
  exact ⟨nodes, by rw [renderMentions, hsegments, Option.bind_some, hnodes],
    by simpa using hvisible⟩

/-! ## Targets -/

theorem trim_https (rest : JsString) :
    ∃ tail, trim (ascii "https://" ++ rest) = ascii "https://" ++ tail := by
  have hstart : trimStart (ascii "https://" ++ rest) = ascii "https://" ++ rest :=
    List.dropWhile_cons_of_neg (by decide)
  have hreverse : (ascii "https://").reverse.dropWhile isWhitespace =
      (ascii "https://").reverse := by
    decide
  refine ⟨trimEnd rest, ?_⟩
  rw [trim, hstart, trimEnd_eq_reverse, trimEnd_eq_reverse, trimStart, trimStart,
    List.reverse_append, List.dropWhile_append]
  split_ifs with hblank
  · rw [hreverse, List.isEmpty_iff.mp hblank]
    simp
  · simp

theorem startsWith_https (rest : JsString) :
    startsWithIgnoringCase "https://" (ascii "https://" ++ rest) := by
  have hscheme : (ascii "https://").map asciiLower = ascii "https://" := by decide
  rw [startsWithIgnoringCase, List.isPrefixOf_iff_prefix, List.map_append, hscheme]
  exact List.prefix_append _ _

theorem exists_normalizeMessageLink_https (newURL : JsString → Option Url) (fuel : ℕ)
    (rest : JsString) :
    ∃ href, normalizeMessageLink newURL (fuel + 1) (ascii "https://" ++ rest) = some href := by
  obtain ⟨tail, htail⟩ := trim_https rest
  have hscheme := startsWith_https tail
  simp only [normalizeMessageLink, htail, hscheme, Bool.or_true, if_true]
  split_ifs <;> exact ⟨_, rfl⟩

theorem exists_normalizeMessageLink (newURL : JsString → Option Url) (value : JsString) :
    ∃ href, normalizeMessageLink newURL 2 value = some href := by
  have hagain := exists_normalizeMessageLink_https newURL 0 (trim value)
  rw [normalizeMessageLink]
  split_ifs
  · exact ⟨_, rfl⟩
  · exact ⟨_, rfl⟩
  · exact ⟨_, rfl⟩
  · exact hagain
  · cases bareDomain (trim value) with
    | none => exact ⟨_, rfl⟩
    | some domain =>
      simp only
      split_ifs
      · exact hagain
      · exact ⟨_, rfl⟩

theorem lawful (case : CaseRules) (newURL : JsString → Option Url) (users : List Mentions.User) :
    Lawful (rules case newURL users) := by
  refine ⟨fun chunk => ?_, exists_normalizeMessageLink newURL, exists_renderMentions case users,
    fun value => ⟨_, rfl⟩, exists_renderMentions case users⟩
  obtain ⟨spans, hspans, hscanned⟩ :=
    linkLoop_scanned (Nat.lt_succ_of_le (Nat.sub_le chunk.length 0))
  exact ⟨spans, _, hspans, advances_linkAt chunk, hscanned,
    fun span hspan => (linkAt_eq_some (hscanned.reads_eq span hspan).2).2⟩

end Mobile

/-! ## Both renderers -/

/-- Both renderers return nodes for every text; these show what is kept of it if and only if no
piece that is not matched looks like a format, at any depth. -/
theorem inline_text_kept_iff (case : CaseRules) (names : List JsString) (includeChannel : Bool)
    (newURL : JsString → Option Mobile.Url) (users : List Mentions.User) (text : JsString)
    (fuel : ℕ) (hfuel : text.length < fuel) :
    let web := Web.rules case (Mentions.Web.buildMentionPatterns case names includeChannel)
    let mobile := Mobile.rules case newURL users
    (∃ nodes, formatInline web fuel text = some nodes ∧
      (visibleAll nodes = keptText web fuel text ↔ ¬ Misread web fuel text)) ∧
    ∃ nodes, formatInline mobile fuel text = some nodes ∧
      (visibleAll nodes = keptText mobile fuel text ↔ ¬ Misread mobile fuel text) := by
  intro web mobile
  obtain ⟨-, nodes, hnodes, -, -, hvisible⟩ :=
    renders_formatInline (Web.lawful case names includeChannel) hfuel
  obtain ⟨-, nodes', hnodes', -, -, hvisible'⟩ :=
    renders_formatInline (Mobile.lawful case newURL users) hfuel
  exact ⟨⟨nodes, hnodes, hvisible⟩, nodes', hnodes', hvisible'⟩

namespace TextExample

def web : InlineRules :=
  Web.rules asciiRules (Mentions.Web.buildMentionPatterns asciiRules [] false)

def mobile : InlineRules :=
  Mobile.rules asciiRules (fun _ => none) []

/-- The underscores around the matched text are taken for empty formats. -/
theorem underscores_lost :
    (formatInline web 9 (ascii "__init__")).map visibleAll = some (ascii "init") ∧
      keptText web 9 (ascii "__init__") = ascii "_init_" ∧
      (formatInline mobile 9 (ascii "__init__")).map visibleAll = some (ascii "init") ∧
      keptText mobile 9 (ascii "__init__") = ascii "_init_" := by
  decide +kernel

/-- A bold word and a link. -/
theorem bold_word_and_link_shown :
    (formatInline web 33 (ascii "**Read** [this](www.example.org)")).map visibleAll =
        some (ascii "Read this") ∧
      keptText web 33 (ascii "**Read** [this](www.example.org)") = ascii "Read this" ∧
      ¬ Misread web 33 (ascii "**Read** [this](www.example.org)") := by
  have hshown : (formatInline web 33 (ascii "**Read** [this](www.example.org)")).map visibleAll =
      some (ascii "Read this") := by decide +kernel
  have hkept : keptText web 33 (ascii "**Read** [this](www.example.org)") = ascii "Read this" := by
    decide +kernel
  obtain ⟨⟨nodes, hnodes, hvisible⟩, -⟩ := inline_text_kept_iff asciiRules [] false (fun _ => none)
    [] (ascii "**Read** [this](www.example.org)") 33 (by decide)
  refine ⟨hshown, hkept, hvisible.mp ?_⟩
  have hnodes' := hshown
  rw [web, hnodes, Option.map_some, Option.some.injEq] at hnodes'
  exact hnodes'.trans hkept.symm

end TextExample

end LearningPlatform.InlineFormat
