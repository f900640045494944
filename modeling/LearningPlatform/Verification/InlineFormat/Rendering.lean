import LearningPlatform.Model.InlineFormat

/-! # The text that a renderer shows

The nodes of a text show what is left of it without the delimiters of the formats that are matched,
unless a piece that is not matched looks like a format. -/

namespace LearningPlatform.InlineFormat

open Shared JsText

/-! ## Visible text -/

mutual

def InlineNode.visible : InlineNode → JsString
  | .text text | .mention text | .code text => text
  | .styled _ children | .link _ children | .unlinked children => visibleAll children

def visibleAll : List InlineNode → JsString
  | [] => []
  | node :: nodes => node.visible ++ visibleAll nodes

end

@[simp] theorem visibleAll_append (nodes others : List InlineNode) :
    visibleAll (nodes ++ others) = visibleAll nodes ++ visibleAll others := by
  induction nodes with
  | nil => rfl
  | cons node nodes ih => simp [visibleAll, ih]

/-! ## Kept text -/

section Kept

variable (rules : InlineRules) (inside : JsString → JsString)

/-- A chunk without the delimiters of the styles that are matched in it. -/
def keptFormat (chunk : JsString) : JsString :=
  (pieces chunk.length 0 ((scanAll (formatAt chunk) chunk.length).getD [])).flatMap fun piece =>
    match piece.value with
    | some (_, inner) => inside inner
    | none => piece.text chunk

/-- A chunk with the labels of its Markdown links. -/
def keptLinks (chunk : JsString) : JsString :=
  (pieces chunk.length 0 ((rules.links chunk).getD [])).flatMap fun piece =>
    match piece.value with
    | some (.markdown label _) => inside label
    | some (.bare href) => href
    | none => keptFormat inside (piece.text chunk)

/-- A text without the backticks of its code. -/
def keptCode (text : JsString) : JsString :=
  (pieces text.length 0 ((scanAll (codeAt text) text.length).getD [])).flatMap fun piece =>
    match piece.value with
    | some code => code
    | none => keptLinks rules inside (piece.text text)

end Kept

/-- A text without the delimiters of what is matched in it, also inside formats and labels. -/
def keptText (rules : InlineRules) : ℕ → JsString → JsString
  | 0, text => text
  | fuel + 1, text =>
    keptCode rules (fun value =>
      if rules.isNested value = some true then keptText rules fuel value else value) text

/-! ## Pieces that are taken for formats -/

section Misread

variable (rules : InlineRules) (inside : JsString → Prop)

/-- A piece that is not matched starts and ends with the delimiters of a style. -/
def MisreadFormat (chunk : JsString) : Prop :=
  ∃ piece ∈ pieces chunk.length 0 ((scanAll (formatAt chunk) chunk.length).getD []),
    match piece.value with
    | some (_, inner) => inside inner
    | none => (classify (piece.text chunk)).isSome

def MisreadLinks (chunk : JsString) : Prop :=
  ∃ piece ∈ pieces chunk.length 0 ((rules.links chunk).getD []),
    match piece.value with
    | some (.markdown label _) => inside label
    | some (.bare _) => False
    | none => MisreadFormat inside (piece.text chunk)

def MisreadCode (text : JsString) : Prop :=
  ∃ piece ∈ pieces text.length 0 ((scanAll (codeAt text) text.length).getD []),
    match piece.value with
    | some _ => False
    | none => MisreadLinks rules inside (piece.text text)

end Misread

/-- At some depth, a piece that is not matched is taken for a format. -/
def Misread (rules : InlineRules) : ℕ → JsString → Prop
  | 0, _ => False
  | fuel + 1, text =>
    MisreadCode rules (fun value => rules.isNested value = some true ∧ Misread rules fuel value)
      text

/-! ## Parts and the whole -/

/-- A text has nodes that show no more than what is kept of it, and just that unless something is
misread. -/
def Renders (text : JsString) (result : Option (List InlineNode)) (kept : JsString)
    (misread : Prop) : Prop :=
  kept.length ≤ text.length ∧ ∃ nodes, result = some nodes ∧ (text ≠ [] → nodes ≠ []) ∧
    (visibleAll nodes).length ≤ kept.length ∧ (visibleAll nodes = kept ↔ ¬ misread)

theorem append_eq_append_iff_of_length_le {a b c d : JsString} (hac : a.length ≤ c.length)
    (hbd : b.length ≤ d.length) : a ++ b = c ++ d ↔ a = c ∧ b = d := by
  constructor
  · intro h
    have hlength := congrArg List.length h
    rw [List.length_append, List.length_append] at hlength
    exact List.append_inj h (by omega)
  · rintro ⟨rfl, rfl⟩
    rfl

theorem collect_cons {α : Type} {nodes : α → Option (List InlineNode)} {part : α} {parts : List α}
    {first rest : List InlineNode} (hfirst : nodes part = some first)
    (hrest : collect nodes parts = some rest) :
    collect nodes (part :: parts) = some (first ++ rest) := by
  obtain ⟨lists, hlists, rfl⟩ := Option.map_eq_some_iff.mp hrest
  simp [collect, List.mapM_cons, hfirst, hlists]

theorem renders_collect {α : Type} {nodes : α → Option (List InlineNode)}
    {text kept : α → JsString} {misread : α → Prop} {parts : List α}
    (h : ∀ part ∈ parts, Renders (text part) (nodes part) (kept part) (misread part)) :
    Renders (parts.flatMap text) (collect nodes parts) (parts.flatMap kept)
      (∃ part ∈ parts, misread part) := by
  induction parts with
  | nil => exact ⟨le_rfl, [], rfl, by simp, by simp [visibleAll], by simp [visibleAll]⟩
  | cons part parts ih =>
    obtain ⟨hkept, first, hfirst, hnonempty, hlength, hvisible⟩ := h part List.mem_cons_self
    obtain ⟨hkept', rest, hrest, hnonempty', hlength', hvisible'⟩ :=
      ih fun other hother => h other (List.mem_cons_of_mem _ hother)
    refine ⟨?_, first ++ rest, collect_cons hfirst hrest, fun htext => ?_, ?_, ?_⟩
    · rw [List.flatMap_cons, List.flatMap_cons, List.length_append, List.length_append]
      exact Nat.add_le_add hkept hkept'
    · rw [List.flatMap_cons, ne_eq, List.append_eq_nil_iff, not_and_or] at htext
      rw [ne_eq, List.append_eq_nil_iff, not_and_or]
      exact htext.imp hnonempty hnonempty'
    · rw [visibleAll_append, List.flatMap_cons, List.length_append, List.length_append]
      exact Nat.add_le_add hlength hlength'
    · rw [visibleAll_append, List.flatMap_cons,
        append_eq_append_iff_of_length_le hlength hlength', hvisible, hvisible',
        List.exists_mem_cons_iff, not_or]

theorem renders_pieces {β : Type} {reads : ℕ → Option (ℕ × β)} {text : JsString}
    {spans : List (Span β)} (hreads : Advances reads) (hspans : Scanned reads text.length 0 spans)
    {nodes : Span (Option β) → Option (List InlineNode)} {kept : Span (Option β) → JsString}
    {misread : Span (Option β) → Prop} (h : ∀ piece ∈ pieces text.length 0 spans,
      Renders (piece.text text) (nodes piece) (kept piece) (misread piece)) :
    Renders text (collect nodes (pieces text.length 0 spans))
      ((pieces text.length 0 spans).flatMap kept)
      (∃ piece ∈ pieces text.length 0 spans, misread piece) := by
  have htext := hspans.flatten_pieces hreads le_rfl
  rw [List.drop_zero, ← List.flatMap_def] at htext
  have hpieces :
      Renders ((pieces text.length 0 spans).flatMap fun piece => piece.text text) _ _ _ :=
    renders_collect h
  rwa [htext] at hpieces

end LearningPlatform.InlineFormat
