import LearningPlatform.Verification.InlineFormat.Rendering
import Mathlib.Algebra.Order.BigOperators.Group.List
import Mathlib.Algebra.Order.Group.Nat

/-! # Formats of a text

What the tokens of a text are, and what a renderer shows of a text with them. -/

namespace LearningPlatform.InlineFormat

open Shared JsText

/-! ## Tokens -/

variable {text inner : JsString}

theorem between_eq_of_drop_eq {front : JsString} {index stop : ℕ} (rest : JsString)
    (h : text.drop index = front ++ rest) (hstop : stop = index + front.length) :
    between text index stop = front := by
  rw [between, h, hstop, Nat.add_sub_cancel_left, List.take_left]

theorem delimitedAt_eq_some {delimiter : JsString} {mark : UInt16} {index stop : ℕ}
    (h : delimitedAt delimiter mark text index = some (stop, inner)) :
    inner ≠ [] ∧ index < stop ∧ between text index stop = delimiter ++ inner ++ delimiter := by
  simp only [delimitedAt] at h
  split_ifs at h with hdelimited
  obtain ⟨hstop, hinner⟩ := Prod.mk.inj (Option.some.inj h)
  obtain ⟨hfront, hnonempty, hback⟩ := hdelimited
  rw [hinner] at hstop hnonempty hback
  obtain ⟨rest, hrest⟩ := List.isPrefixOf_iff_prefix.mp hfront
  obtain ⟨after, hafter⟩ : inner <+: rest := by
    rw [← hinner, ← hrest, List.drop_left]
    exact List.takeWhile_prefix _
  rw [← hrest, ← hafter, ← List.append_assoc, ← List.length_append, List.drop_left] at hback
  obtain ⟨tail, htail⟩ := List.isPrefixOf_iff_prefix.mp hback
  have hpos := List.length_pos_iff.mpr hnonempty
  refine ⟨hnonempty, by omega, between_eq_of_drop_eq tail ?_ ?_⟩
  · rw [← hrest, ← hafter, ← htail]
    simp only [List.append_assoc]
  · simp only [List.length_append]
    omega

theorem formatAt_eq_some {index stop : ℕ} {style : Style}
    (h : formatAt text index = some (stop, style, inner)) :
    inner ≠ [] ∧ index < stop ∧
      between text index stop = style.delimiter ++ inner ++ style.delimiter := by
  obtain ⟨other, -, hstyled⟩ := List.exists_of_findSome?_eq_some h
  obtain ⟨⟨end', inner'⟩, hdelimited, heq⟩ := Option.map_eq_some_iff.mp hstyled
  cases heq
  exact delimitedAt_eq_some hdelimited

theorem advances_formatAt (text : JsString) : Advances (formatAt text) :=
  fun _ _ _ h => (formatAt_eq_some h).2.1

theorem advances_codeAt (text : JsString) : Advances (codeAt text) :=
  fun _ _ _ h => (delimitedAt_eq_some h).2.1

theorem eq_of_delimiter_isPrefixOf {style other : Style} {rest : JsString}
    (h : other.delimiter.isPrefixOf (style.delimiter ++ rest)) : other = style := by
  cases style <;> cases other <;>
    first
    | rfl
    | exact absurd h (by simp [Style.delimiter, ascii])

/-- A piece that is matched is taken for what it is. -/
theorem classify_delimited (style : Style) (inner : JsString) :
    classify (style.delimiter ++ inner ++ style.delimiter) = some (style, inner) := by
  have hbetween : between (style.delimiter ++ inner ++ style.delimiter) style.delimiter.length
      ((style.delimiter ++ inner ++ style.delimiter).length - style.delimiter.length) = inner := by
    refine between_eq_of_drop_eq style.delimiter ?_ ?_
    · rw [List.append_assoc, List.drop_left]
    · simp only [List.length_append]
      omega
  have hends : ∀ other : Style,
      (other.delimiter.isPrefixOf (style.delimiter ++ inner ++ style.delimiter) &&
        other.delimiter.isSuffixOf (style.delimiter ++ inner ++ style.delimiter)) =
          decide (other = style) := by
    intro other
    by_cases hother : other = style
    · subst hother
      rw [decide_eq_true rfl, Bool.and_eq_true, List.isPrefixOf_iff_prefix,
        List.isSuffixOf_iff_suffix]
      exact ⟨⟨inner ++ other.delimiter, by rw [List.append_assoc]⟩, List.suffix_append _ _⟩
    · rw [decide_eq_false hother, Bool.and_eq_false_iff]
      refine .inl (Bool.eq_false_iff.mpr fun hstarts => hother ?_)
      rw [List.append_assoc] at hstarts
      exact eq_of_delimiter_isPrefixOf hstarts
  simp only [classify, hends]
  cases style <;> simpa [List.findSome?] using hbetween

theorem length_lt_of_classify_eq_some {piece : JsString} {style : Style}
    (h : classify piece = some (style, inner)) : inner.length < piece.length := by
  obtain ⟨other, -, hother⟩ := List.exists_of_findSome?_eq_some h
  split_ifs at hother with hends
  obtain ⟨rfl, rfl⟩ := Prod.mk.inj (Option.some.inj hother)
  rw [Bool.and_eq_true, List.isPrefixOf_iff_prefix] at hends
  have hlength := hends.1.length_le
  have hpos : 0 < other.delimiter.length := by cases other <;> decide
  simp only [between, List.length_take, List.length_drop]
  omega

/-! ## Renderers -/

/-- What a link shows is in the text that it stands for. -/
def LinkIn (text : JsString) (span : Span InlineLink) : Prop :=
  match span.value with
  | .markdown label _ => label.length < (span.text text).length
  | .bare href => href = span.text text

/-- The parts of a renderer return, cover a chunk and show the text that they are given. -/
structure Lawful (rules : InlineRules) : Prop where
  links : ∀ chunk, ∃ spans reads, rules.links chunk = some spans ∧ Advances reads ∧
    Scanned reads chunk.length 0 spans ∧ ∀ span ∈ spans, LinkIn chunk span
  normalize : ∀ target, ∃ href, rules.normalize target = some href
  plain : ∀ text, ∃ nodes, rules.plain text = some nodes ∧ visibleAll nodes = text
  isNested : ∀ value, ∃ nested, rules.isNested value = some nested
  leaf : ∀ text, ∃ nodes, rules.leaf text = some nodes ∧ visibleAll nodes = text

theorem renders_self {result : Option (List InlineNode)}
    (h : ∃ nodes, result = some nodes ∧ visibleAll nodes = text) :
    Renders text result text False := by
  obtain ⟨nodes, hnodes, hvisible⟩ := h
  refine ⟨le_rfl, nodes, hnodes, fun htext hempty => ?_, hvisible.symm ▸ le_rfl, by simp [hvisible]⟩
  rw [hempty] at hvisible
  exact htext hvisible.symm

theorem Renders.map_singleton {value kept : JsString} {result : Option (List InlineNode)}
    {misread : Prop} (h : Renders value result kept misread) (hvalue : value.length ≤ text.length)
    {node : List InlineNode → InlineNode}
    (hnode : ∀ nodes, (node nodes).visible = visibleAll nodes) :
    Renders text (result.map fun children => [node children]) kept misread := by
  obtain ⟨hkept, nodes, hnodes, -, hlength, hvisible⟩ := h
  refine ⟨hkept.trans hvalue, [node nodes], by rw [hnodes]; rfl, fun _ => by simp, ?_, ?_⟩
  · simpa [visibleAll, hnode] using hlength
  · simpa [visibleAll, hnode] using hvisible

/-- The targets of a link do not change what is shown. -/
theorem exists_linkNode {rules : InlineRules} (hrules : Lawful rules) (target : JsString)
    (children : List InlineNode) :
    ∃ node, linkNode rules target children = some node ∧ node.visible = visibleAll children := by
  obtain ⟨href, hhref⟩ := hrules.normalize target
  cases href with
  | none => exact ⟨.unlinked children, by simp [linkNode, hhref], rfl⟩
  | some href => exact ⟨.link href children, by simp [linkNode, hhref], rfl⟩

theorem stripPunctuation_append (value trailing : JsString) :
    (stripPunctuation value trailing).1 ++ (stripPunctuation value trailing).2 =
      value.reverse ++ trailing := by
  induction value generalizing trailing with
  | nil => rfl
  | cons c rest ih =>
    rw [stripPunctuation]
    split_ifs
    · rw [ih, List.reverse_cons, List.append_assoc]
      rfl
    · rfl

theorem splitTrailingUrlPunctuation_append (value : JsString) :
    (splitTrailingUrlPunctuation value).1 ++ (splitTrailingUrlPunctuation value).2 = value := by
  have hstrip := stripPunctuation_append value.reverse []
  rw [List.reverse_reverse, List.append_nil] at hstrip
  simp only [splitTrailingUrlPunctuation]
  split_ifs with hparenthesis
  · have hlast := List.dropLast_append_getLast? 41 hparenthesis.1
    rw [← List.singleton_append, ← List.append_assoc, hlast, hstrip]
  · exact hstrip

section Levels

variable {rules : InlineRules} (hrules : Lawful rules)
  {nested : JsString → Option (List InlineNode)} {inside : JsString → JsString}
  {misread : JsString → Prop} {limit : ℕ}
  (hnested : ∀ value, value.length < limit →
    Renders value (nested value) (inside value) (misread value))
  {chunk : JsString} (hchunk : chunk.length ≤ limit)

include hrules hnested hchunk

/-- A gap is shown as it is unless it looks like a format. -/
theorem renders_formatPiece_gap :
    Renders chunk (formatPiece rules nested chunk) chunk (classify chunk).isSome := by
  unfold formatPiece
  cases hclassify : classify chunk with
  | none => simpa using renders_self (hrules.plain chunk)
  | some found =>
    obtain ⟨style, inner⟩ := found
    have hlt := length_lt_of_classify_eq_some hclassify
    obtain ⟨hkept, nodes, hnodes, -, hlength, -⟩ := hnested inner (by omega)
    have hshort : (visibleAll nodes).length < chunk.length := (hlength.trans hkept).trans_lt hlt
    refine ⟨le_rfl, [.styled style nodes], by simp [hnodes], fun _ => by simp, ?_, ?_⟩
    · simpa [visibleAll, InlineNode.visible] using hshort.le
    · simp only [visibleAll, InlineNode.visible, List.append_nil, Option.isSome_some,
        not_true_eq_false, iff_false]
      intro heq
      rw [heq] at hshort
      exact lt_irrefl _ hshort

theorem renders_appendFormattedText :
    Renders chunk (appendFormattedText rules nested chunk) (keptFormat inside chunk)
      (MisreadFormat misread chunk) := by
  have hadvances := advances_formatAt chunk
  obtain ⟨spans, hspans, hscanned⟩ := scanAll_scanned hadvances chunk.length
  simp only [appendFormattedText, keptFormat, MisreadFormat, hspans, Option.bind_some,
    Option.getD_some]
  refine renders_pieces hadvances hscanned fun piece hpiece => ?_
  have hlength : (piece.text chunk).length ≤ chunk.length := length_between_le _ _ _
  rcases eq_none_or_span_of_mem_pieces hpiece with hgap | ⟨⟨start, stop, style, inner⟩, hspan, rfl⟩
  · simp only [hgap]
    exact renders_formatPiece_gap hrules hnested (hlength.trans hchunk)
  · obtain ⟨-, -, htext⟩ := formatAt_eq_some (hscanned.reads_eq _ hspan).2
    have hinner := length_lt_of_classify_eq_some (classify_delimited style inner)
    simp only [Span.text, htext] at hlength
    simp only [formatPiece, Span.text, htext, classify_delimited]
    exact (hnested inner (by omega)).map_singleton hinner.le fun _ => rfl

theorem renders_linkNodes {span : Span InlineLink} (hspan : LinkIn chunk span) :
    Renders (span.text chunk) (linkNodes rules nested span.value)
      (match span.value with
        | .markdown label _ => inside label
        | .bare href => href)
      (match span.value with
        | .markdown label _ => misread label
        | .bare _ => False) := by
  have hlength : (span.text chunk).length ≤ chunk.length := length_between_le _ _ _
  unfold LinkIn at hspan
  cases hvalue : span.value with
  | markdown label target =>
    simp only [hvalue] at hspan
    obtain ⟨hkept, nodes, hnodes, -, hshort, hvisible⟩ := hnested label (by omega)
    obtain ⟨node, hnode, hshown⟩ := exists_linkNode hrules target nodes
    refine ⟨hkept.trans hspan.le, [node], by simp [linkNodes, hnodes, hnode], fun _ => by simp,
      ?_, ?_⟩
    · simpa [visibleAll, hshown] using hshort
    · simpa [visibleAll, hshown] using hvisible
  | bare address =>
    simp only [hvalue] at hspan
    rw [← hspan]
    refine renders_self ?_
    obtain ⟨node, hnode, hshown⟩ := exists_linkNode hrules (splitTrailingUrlPunctuation address).1
      [.text (splitTrailingUrlPunctuation address).1]
    have haddress := splitTrailingUrlPunctuation_append address
    simp only [linkNodes, hnode]
    by_cases htrailing : (splitTrailingUrlPunctuation address).2 = []
    · refine ⟨[node], by simp [htrailing], ?_⟩
      simpa [visibleAll, hshown, InlineNode.visible, htrailing] using haddress
    · refine ⟨[node, .text (splitTrailingUrlPunctuation address).2], by simp [htrailing], ?_⟩
      simpa [visibleAll, hshown, InlineNode.visible] using haddress

theorem renders_appendTextWithLinks :
    Renders chunk (appendTextWithLinks rules nested chunk) (keptLinks rules inside chunk)
      (MisreadLinks rules misread chunk) := by
  obtain ⟨spans, reads, hspans, hadvances, hscanned, hlinks⟩ := hrules.links chunk
  simp only [appendTextWithLinks, keptLinks, MisreadLinks, hspans, Option.bind_some,
    Option.getD_some]
  refine renders_pieces hadvances hscanned fun piece hpiece => ?_
  have hlength : (piece.text chunk).length ≤ chunk.length := length_between_le _ _ _
  rcases eq_none_or_span_of_mem_pieces hpiece with hgap | ⟨span, hspan, rfl⟩
  · simp only [hgap]
    exact renders_appendFormattedText hrules hnested (hlength.trans hchunk)
  · have hlink := renders_linkNodes hrules hnested hchunk (hlinks span hspan)
    cases hvalue : span.value <;> simpa only [hvalue, Span.text] using hlink

theorem renders_appendTextWithCode :
    Renders chunk (appendTextWithCode rules nested chunk) (keptCode rules inside chunk)
      (MisreadCode rules misread chunk) := by
  have hadvances := advances_codeAt chunk
  obtain ⟨spans, hspans, hscanned⟩ := scanAll_scanned hadvances chunk.length
  simp only [appendTextWithCode, keptCode, MisreadCode, hspans, Option.bind_some, Option.getD_some]
  refine renders_pieces hadvances hscanned fun piece hpiece => ?_
  have hlength : (piece.text chunk).length ≤ chunk.length := length_between_le _ _ _
  rcases eq_none_or_span_of_mem_pieces hpiece with hgap | ⟨⟨start, stop, code⟩, hspan, rfl⟩
  · simp only [hgap]
    exact renders_appendTextWithLinks hrules hnested (hlength.trans hchunk)
  · obtain ⟨-, -, htext⟩ := delimitedAt_eq_some (hscanned.reads_eq _ hspan).2
    refine ⟨?_, [.code code], rfl, fun _ => by simp, by simp [visibleAll, InlineNode.visible],
      by simp [visibleAll, InlineNode.visible]⟩
    simp only [Span.text, htext, List.length_append]
    omega

theorem renders_formatText :
    Renders chunk (formatText rules nested chunk) (keptCode rules inside chunk)
      (MisreadCode rules misread chunk) := by
  obtain ⟨hkept, nodes, hnodes, hnonempty, hlength, hvisible⟩ :=
    renders_appendTextWithCode hrules hnested hchunk
  rw [formatText, hnodes, Option.bind_some]
  refine ⟨hkept, ?_⟩
  cases nodes with
  | nil =>
    -- Only the empty text has no nodes.
    obtain rfl : chunk = [] := not_not.mp fun hchunk => hnonempty hchunk rfl
    obtain ⟨plain, hplain, hshown⟩ := hrules.plain []
    refine ⟨plain, hplain, fun hempty => absurd rfl hempty, ?_, ?_⟩
    · rw [hshown]
      exact hlength
    · rw [hshown]
      exact hvisible
  | cons node nodes => exact ⟨node :: nodes, rfl, hnonempty, hlength, hvisible⟩

end Levels

/-! ## All calls -/

theorem renders_formatInline {rules : InlineRules} (hrules : Lawful rules) {fuel : ℕ}
    {text : JsString} (htext : text.length < fuel) :
    Renders text (formatInline rules fuel text) (keptText rules fuel text)
      (Misread rules fuel text) := by
  induction fuel generalizing text with
  | zero => omega
  | succ fuel ih =>
    refine renders_formatText hrules (fun value hvalue => ?_) (Nat.le_of_lt_succ htext)
    obtain ⟨nested, hnested⟩ := hrules.isNested value
    simp only [renderNestedInline, hnested, Option.bind_some, Option.some.injEq]
    cases nested with
    | true => simpa using ih hvalue
    | false => simpa using renders_self (hrules.leaf value)

end LearningPlatform.InlineFormat
