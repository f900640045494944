import LearningPlatform.Verification.InlineFormat.Punctuation
import LearningPlatform.Verification.InlineFormat.Text

/-! # Markdown links of the mobile app

What `nextMarkdownLink` takes for a link, and that it finds the first one. Its target may hold
parentheses, as long as they are balanced. -/

namespace LearningPlatform.InlineFormat

open Shared JsText

/-- `[label](target)`. -/
def markdownSource (label target : JsString) : JsString :=
  91 :: label ++ 93 :: 40 :: target ++ [41]

theorem length_markdownSource (label target : JsString) :
    (markdownSource label target).length = label.length + target.length + 4 := by
  simp only [markdownSource, List.length_append, List.length_cons, List.length_nil]
  omega

/-- The target of a link ends at the parenthesis that has no partner in it. -/
structure LinkTarget (target : JsString) : Prop where
  solid : ∀ c ∈ target, ¬ isWhitespace c
  balanced : parentheses.Balanced target

/-- A link begins at a position. -/
structure MarkdownLinkAt (text : JsString) (index : ℕ) (label target : JsString) : Prop where
  source : markdownSource label target <+: text.drop index
  label_ne : label ≠ []
  label_open : 93 ∉ label
  target : LinkTarget target

namespace Mobile

section Shapes

variable {text label : JsString} {index start stop : ℕ} {link : InlineLink}

theorem opener_of_openerAt (h : openerAt text index = some (start, label)) :
    (91 :: label ++ [93, 40]) <+: text.drop index ∧ label ≠ [] ∧ 93 ∉ label := by
  simp only [openerAt] at h
  split_ifs at h with hopener
  obtain ⟨hbracket, hne, hclosed⟩ := hopener
  obtain ⟨-, hlabel⟩ := Prod.mk.inj (Option.some.inj h)
  rw [hlabel] at hne hclosed
  refine ⟨?_, hne, fun hmem => ?_⟩
  · obtain ⟨after, hafter⟩ := List.isPrefixOf_iff_prefix.mp hclosed
    obtain ⟨hindex, hc⟩ := List.getElem?_eq_some_iff.mp hbracket
    obtain ⟨rest, hrest⟩ : label <+: text.drop (index + 1) := hlabel ▸ List.takeWhile_prefix _
    have hdrop : text.drop (index + 1 + label.length) = rest := by
      rw [← List.drop_drop, ← hrest, List.drop_left]
    refine ⟨after, ?_⟩
    rw [List.drop_eq_getElem_cons hindex, hc, ← hrest, ← hdrop, ← hafter]
    simp [ascii]
  · exact absurd (List.mem_takeWhile_imp (hlabel ▸ hmem)) (by decide)

/-- The group of the pattern takes the label up to its first bracket. -/
theorem openerAt_of_opener (hopener : (91 :: label ++ [93, 40]) <+: text.drop index)
    (hne : label ≠ []) (hclosed : 93 ∉ label) :
    openerAt text index = some (index + label.length + 3, label) := by
  obtain ⟨after, hafter⟩ := hopener
  have hbracket : text[index]? = some 91 := by
    rw [← List.head?_drop, ← hafter]
    rfl
  have hrest : text.drop (index + 1) = label ++ 93 :: 40 :: after := by
    rw [← List.tail_drop, ← hafter]
    simp
  have hlabel : (text.drop (index + 1)).takeWhile (· != 93) = label := by
    rw [hrest, List.takeWhile_append_of_pos]
    · simp
    · intro c hc
      exact bne_iff_ne.mpr fun heq => hclosed (heq ▸ hc)
  have hstop : text.drop (index + 1 + label.length) = 93 :: 40 :: after := by
    rw [← List.drop_drop, hrest, List.drop_left]
  simp only [openerAt, hlabel, hstop]
  rw [if_pos ⟨hbracket, hne, rfl⟩]
  congr 2
  omega

/-- The parenthesis at the end of a target is the first character or comes later. -/
theorem exists_target_cons_iff {P : JsString → Prop} {c : UInt16} {rest : JsString} :
    (∃ target, (target ++ [41]) <+: c :: rest ∧ P target) ↔
      (c = 41 ∧ P []) ∨ ∃ target, (target ++ [41]) <+: rest ∧ P (c :: target) := by
  constructor
  · rintro ⟨target, hstarts, htarget⟩
    cases target with
    | nil => exact .inl ⟨(List.cons_prefix_cons.mp hstarts).1.symm, htarget⟩
    | cons d target =>
      obtain ⟨rfl, hrest⟩ := List.cons_prefix_cons.mp hstarts
      exact .inr ⟨target, hrest, htarget⟩
  · rintro (⟨rfl, htarget⟩ | ⟨target, hrest, htarget⟩)
    · exact ⟨[], by simp, htarget⟩
    · exact ⟨c :: target, List.cons_prefix_cons.mpr ⟨rfl, hrest⟩, htarget⟩

/-- The loop reads a target up to the parenthesis that closes the first of those that are open. -/
theorem targetFrom_eq_some_iff {depth : ℕ} {read rest result : JsString} :
    targetFrom (depth + 1) read rest = some result ↔
      ∃ target, (target ++ [41]) <+: rest ∧ (∀ c ∈ target, ¬ isWhitespace c) ∧
        parentheses.Closes depth target ∧ result = read ++ target := by
  induction rest generalizing depth read with
  | nil => simp [targetFrom]
  | cons c rest ih =>
    rw [exists_target_cons_iff, targetFrom]
    by_cases hspace : isWhitespace c
    · have hc : c ≠ 41 := by
        rintro rfl
        exact absurd hspace (by decide)
      simp [hspace, hc]
    by_cases hopening : c = 40
    · subst hopening
      have hopens : ∀ target, parentheses.Closes depth (40 :: target) ↔
          parentheses.Closes (depth + 1) target := fun _ => Brackets.closes_opening_cons
      rw [if_neg hspace, if_pos rfl, ih]
      simp [hspace, hopens]
    by_cases hclosing : c = 41
    · subst hclosing
      rw [if_neg hspace, if_neg hopening, if_pos rfl]
      cases depth with
      | zero =>
        have hnever : ∀ target, ¬ parentheses.Closes 0 (41 :: target) :=
          fun _ => Brackets.not_balanced_closing_cons
        simp [Brackets.closes_nil, hnever, eq_comm (a := read)]
      | succ depth =>
        have hcloses : ∀ target, parentheses.Closes (depth + 1) (41 :: target) ↔
            parentheses.Closes depth target := fun _ => Brackets.closes_closing_cons
        rw [if_neg (by omega), Nat.add_sub_cancel, ih]
        simp [hspace, Brackets.closes_nil, hcloses]
    · have hother : ∀ target, parentheses.Closes depth (c :: target) ↔
          parentheses.Closes depth target := fun _ =>
        Brackets.closes_cons_of_ne hopening hclosing
      rw [if_neg hspace, if_neg hopening, if_neg hclosing, ih]
      simp [hspace, hclosing, hother]

theorem markdownSource_isPrefix_iff {rest label target : JsString} :
    markdownSource label target <+: rest ↔
      ∃ after, rest = 91 :: label ++ [93, 40] ++ after ∧ (target ++ [41]) <+: after := by
  constructor
  · rintro ⟨after, rfl⟩
    exact ⟨target ++ 41 :: after, by simp [markdownSource], after, by simp⟩
  · rintro ⟨_, rfl, after, rfl⟩
    exact ⟨after, by simp [markdownSource]⟩

theorem drop_of_opener {after : JsString} (h : text.drop index = 91 :: label ++ [93, 40] ++ after) :
    text.drop (index + label.length + 3) = after := by
  rw [Nat.add_assoc, ← List.drop_drop, h]
  exact List.drop_left' (by simp)

theorem markdownLinkAt_eq_some_iff :
    markdownLinkAt text index = some (stop, link) ↔
      ∃ label target, MarkdownLinkAt text index label target ∧ link = .markdown label target ∧
        stop = index + (markdownSource label target).length := by
  constructor
  · intro h
    obtain ⟨⟨start, label⟩, hopener, hlink⟩ := Option.bind_eq_some_iff.mp h
    obtain ⟨target, htarget, heq⟩ := Option.map_eq_some_iff.mp hlink
    obtain ⟨rfl, rfl⟩ := Prod.mk.inj heq
    obtain rfl := openerAt_eq_some hopener
    obtain ⟨⟨after, hafter⟩, hne, hclosed⟩ := opener_of_openerAt hopener
    obtain ⟨_, hstarts, hsolid, hbalanced, rfl⟩ := targetFrom_eq_some_iff.mp htarget
    rw [drop_of_opener hafter.symm] at hstarts
    refine ⟨label, _, ⟨markdownSource_isPrefix_iff.mpr ⟨after, hafter.symm, hstarts⟩, hne, hclosed,
      hsolid, hbalanced⟩, rfl, ?_⟩
    rw [length_markdownSource]
    omega
  · rintro ⟨label, target, hlink, rfl, rfl⟩
    obtain ⟨after, hafter, hstarts⟩ := markdownSource_isPrefix_iff.mp hlink.source
    have hopener := openerAt_of_opener ⟨after, hafter.symm⟩ hlink.label_ne hlink.label_open
    have htarget : targetFrom 1 [] after = some target :=
      targetFrom_eq_some_iff.mpr ⟨target, hstarts, hlink.target.solid, hlink.target.balanced, rfl⟩
    simp only [markdownLinkAt, hopener, Option.bind_some, drop_of_opener hafter, htarget,
      Option.map_some, length_markdownSource]
    congr 2
    omega

theorem markdownLinkAt_eq_none_iff :
    markdownLinkAt text index = none ↔
      ∀ label target, ¬ MarkdownLinkAt text index label target := by
  rw [Option.eq_none_iff_forall_ne_some, Prod.forall]
  constructor
  · intro h label target hlink
    exact h _ _ (markdownLinkAt_eq_some_iff.mpr ⟨label, target, hlink, rfl, rfl⟩)
  · intro h stop link hsome
    obtain ⟨label, target, hlink, -, -⟩ := markdownLinkAt_eq_some_iff.mp hsome
    exact h label target hlink

end Shapes

/-! ## The search -/

section Search

variable {reads : ℕ → Option (ℕ × InlineLink)} {size start middle stop : ℕ} {link : InlineLink}

theorem nextFrom_of_size_le (h : size ≤ start) : nextFrom reads size start = none := by
  simp [nextFrom, Nat.sub_eq_zero_of_le h]

theorem nextFrom_of_none (hstart : start < size) (h : reads start = none) :
    nextFrom reads size start = nextFrom reads size (start + 1) := by
  have hsize : size - start = size - (start + 1) + 1 := by omega
  simp [nextFrom, hsize, List.range'_succ, h]

theorem nextFrom_of_some (hstart : start < size) (h : reads start = some (stop, link)) :
    nextFrom reads size start = some ⟨start, stop, link⟩ := by
  have hsize : size - start = size - (start + 1) + 1 := by omega
  simp [nextFrom, hsize, List.range'_succ, h]

theorem nextFrom_eq_of_none (hle : start ≤ middle) (hmiddle : middle ≤ size)
    (h : ∀ j, start ≤ j → j < middle → reads j = none) :
    nextFrom reads size start = nextFrom reads size middle := by
  induction middle, hle using Nat.le_induction with
  | base => rfl
  | succ middle hle ih =>
    rw [ih (by omega) fun j hj hlt => h j hj (by omega)]
    exact nextFrom_of_none (by omega) (h middle hle (by omega))

end Search

section Loop

variable {text label : JsString} {start stop index lastIndex : ℕ}

theorem openerAt_eq_none_of_execOpener (h : execOpener text lastIndex = none) :
    ∀ j, lastIndex ≤ j → j < text.length → openerAt text j = none := by
  intro j hj hlt
  have hnone := List.findSome?_eq_none_iff.mp h j (List.mem_range'_1.mpr ⟨hj, by omega⟩)
  simpa using hnone

theorem execOpener_eq_some (h : execOpener text lastIndex = some (index, stop, label)) :
    lastIndex ≤ index ∧ index < text.length ∧ openerAt text index = some (stop, label) ∧
      ∀ j, lastIndex ≤ j → j < index → openerAt text j = none := by
  obtain ⟨before, found, after, hrange, hfound, hbefore⟩ := List.findSome?_eq_some_iff.mp h
  obtain ⟨⟨stop, label⟩, hopener, heq⟩ := Option.map_eq_some_iff.mp hfound
  cases heq
  obtain ⟨passed, hpassed, rfl, htail⟩ := List.range'_eq_append_iff.mp hrange
  obtain ⟨rfl, hpos, -⟩ := List.range'_eq_cons_iff.mp htail.symm
  refine ⟨by omega, by omega, hopener, fun j hj hlt => ?_⟩
  simpa using hbefore j (List.mem_range'_1.mpr ⟨hj, by omega⟩)

theorem markdownLinkAt_eq_none_of_openerAt (h : openerAt text index = none) :
    markdownLinkAt text index = none := by
  simp [markdownLinkAt, h]

/-- Every turn of the loop starts behind the last opener, and the loop ends at the link that the
search over all positions finds. -/
theorem markdownLinkLoop_eq {fuel : ℕ} (h : text.length - lastIndex < fuel) :
    markdownLinkLoop text fuel lastIndex = some (nextMarkdownLink text lastIndex) := by
  induction fuel generalizing lastIndex with
  | zero => omega
  | succ fuel ih =>
    rw [markdownLinkLoop, nextMarkdownLink]
    cases hexec : execOpener text lastIndex with
    | none =>
      rcases Nat.le_total lastIndex text.length with hle | hle
      · rw [nextFrom_eq_of_none hle le_rfl fun j hj hlt =>
          markdownLinkAt_eq_none_of_openerAt (openerAt_eq_none_of_execOpener hexec j hj hlt),
          nextFrom_of_size_le le_rfl]
      · rw [nextFrom_of_size_le hle]
    | some opener =>
      obtain ⟨index, start, label⟩ := opener
      obtain ⟨hle, hlt, hopener, hbefore⟩ := execOpener_eq_some hexec
      rw [nextFrom_eq_of_none hle hlt.le fun j hj hj' =>
        markdownLinkAt_eq_none_of_openerAt (hbefore j hj hj')]
      simp only
      cases htarget : targetFrom 1 [] (text.drop start) with
      | none =>
        have hnone : markdownLinkAt text index = none := by
          simp [markdownLinkAt, hopener, htarget]
        rw [nextFrom_of_none hlt hnone]
        exact ih (by omega)
      | some target =>
        have hsome : markdownLinkAt text index =
            some (start + target.length + 1, .markdown label target) := by
          simp [markdownLinkAt, hopener, htarget]
        rw [nextFrom_of_some hlt hsome]

end Loop

/-- The loop ends, and a link that it finds is the first one from the start on. -/
theorem nextMarkdownLink_first (text : JsString) (start : ℕ) :
    (∀ extra, markdownLinkLoop text (text.length + 1 + extra) start =
      some (nextMarkdownLink text start)) ∧
    ∀ span, nextMarkdownLink text start = some span →
      ∃ label target, span.value = .markdown label target ∧
        span.text text = markdownSource label target ∧ label ≠ [] ∧ 93 ∉ label ∧
        LinkTarget target ∧ start ≤ span.start ∧
        ∀ index, start ≤ index → index < span.start →
          ∀ label target, ¬ MarkdownLinkAt text index label target := by
  refine ⟨fun extra => markdownLinkLoop_eq (by omega), fun span h => ?_⟩
  have hfirst := firstFrom_of_nextFrom h
  obtain ⟨label, target, hlink, hvalue, hstop⟩ := markdownLinkAt_eq_some_iff.mp hfirst.reads_eq
  obtain ⟨after, hafter⟩ := hlink.source
  have htext : span.text text = markdownSource label target := by
    rw [Span.text, between, hstop, Nat.add_sub_cancel_left, ← hafter, List.take_left]
  refine ⟨label, target, hvalue, htext, hlink.label_ne, hlink.label_open, hlink.target,
    hfirst.start_le, fun index hle hlt => ?_⟩
  exact markdownLinkAt_eq_none_iff.mp (hfirst.before index hle hlt)

/-- The first opener has no target, and the target of the second one has parentheses. -/
theorem nextMarkdownLink_first_behind_opener :
    nextMarkdownLink (ascii "[x](y [a](b(c))") 0 =
        some ⟨6, 15, .markdown (ascii "a") (ascii "b(c)")⟩ ∧
      between (ascii "[x](y [a](b(c))") 6 15 = ascii "[a](b(c))" ∧
      ∀ label target, ¬ MarkdownLinkAt (ascii "[x](y [a](b(c))") 0 label target := by
  have hspan : nextMarkdownLink (ascii "[x](y [a](b(c))") 0 =
      some ⟨6, 15, .markdown (ascii "a") (ascii "b(c)")⟩ := by decide +kernel
  obtain ⟨label, target, hvalue, htext, -, -, -, -, hbefore⟩ :=
    (nextMarkdownLink_first (ascii "[x](y [a](b(c))") 0).2 _ hspan
  cases hvalue
  exact ⟨hspan, htext, hbefore 0 le_rfl (by decide)⟩

/-- The search finds exactly the first link of the text from the start on. -/
theorem nextMarkdownLink_eq_some_iff (text : JsString) (start : ℕ) (span : Span InlineLink) :
    nextMarkdownLink text start = some span ↔
      (∃ label target, MarkdownLinkAt text span.start label target ∧
        span.value = .markdown label target ∧
        span.stop = span.start + (markdownSource label target).length) ∧
      start ≤ span.start ∧
      ∀ index, start ≤ index → index < span.start →
        ∀ label target, ¬ MarkdownLinkAt text index label target := by
  constructor
  · intro h
    have hfirst := firstFrom_of_nextFrom h
    exact ⟨markdownLinkAt_eq_some_iff.mp hfirst.reads_eq, hfirst.start_le,
      fun index hle hlt => markdownLinkAt_eq_none_iff.mp (hfirst.before index hle hlt)⟩
  · rintro ⟨hlink, hle, hbefore⟩
    have hread := markdownLinkAt_eq_some_iff.mpr hlink
    obtain ⟨label, target, hat, -, -⟩ := hlink
    have hlt : span.start < text.length := by
      by_contra hge
      have hsource := hat.source
      simp [List.drop_eq_nil_of_le (not_lt.mp hge), markdownSource] at hsource
    rw [nextMarkdownLink, nextFrom_eq_of_none hle hlt.le
      fun j hj hbound => markdownLinkAt_eq_none_iff.mpr (hbefore j hj hbound),
      nextFrom_of_some hlt hread]

end Mobile

end LearningPlatform.InlineFormat
