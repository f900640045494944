import LearningPlatform.Verification.Mentions.Characters

/-! # Segments of a message

The mobile app splits a body at the names of users and flags the segments that start with an
at-sign. -/

namespace LearningPlatform.Mentions.Mobile

open Shared JsText

variable {rules : CaseRules} {users : List User} {names : List JsString} {text : List JsString}
  {index stop : ℕ} {name : JsString}

theorem mem_sortedNames_iff :
    name ∈ sortedNames users ↔ name ≠ [] ∧ ∃ user ∈ users, user.fullName = name := by
  simp [sortedNames, and_comm]

theorem pairwise_sortedNames (users : List User) :
    (sortedNames users).Pairwise fun left right => right.length ≤ left.length :=
  pairwise_orderByDesc List.length _

/-- Texts that are the same up to case, and not continued by what follows. -/
def Spells (rules : CaseRules) (text rest name : JsString) : Prop :=
  (characters text).map rules.fold = (characters name).map rules.fold ∧
    (characters rest).head?.any rules.isNameCharacter = false

/-- An at-sign and the full name of a user that is not continued by what follows. -/
def IsMention (rules : CaseRules) (users : List User) (text rest : JsString) : Prop :=
  ∃ written, text = atSign :: written ∧
    ∃ user ∈ users, user.fullName ≠ [] ∧ Spells rules written rest user.fullName

theorem mentionAt_eq_some_iff {written : JsString} :
    mentionAt rules names text index = some (stop, written) ↔
      text[index]? = some [atSign] ∧ ∃ name,
        names.find? (standsAt rules text (index + 1)) = some name ∧
        stop = index + 1 + (characters name).length ∧
        written = (between text (index + 1) stop).flatten := by
  unfold mentionAt
  split_ifs with hat
  · simp only [hat, true_and, Option.map_eq_some_iff, Prod.mk.injEq]
    refine exists_congr fun name => and_congr_right fun _ => ?_
    constructor
    · rintro ⟨rfl, rfl⟩
      exact ⟨rfl, rfl⟩
    · rintro ⟨rfl, rfl⟩
      exact ⟨rfl, rfl⟩
  · simp [hat]

theorem mentionAt_eq_none_iff (hat : text[index]? = some [atSign]) :
    mentionAt rules names text index = none ↔
      ∀ name ∈ names, standsAt rules text (index + 1) name = false := by
  simp [mentionAt, hat]

theorem advances_mentionAt : Advances (mentionAt rules names text) := by
  intro index stop written h
  obtain ⟨-, name, -, rfl, -⟩ := mentionAt_eq_some_iff.mp h
  omega

theorem standsAt_iff_spells {body : JsString} (hstop : stop ≤ (characters body).length)
    (hindex : index ≤ stop) :
    Spells rules (between (characters body) index stop).flatten
        ((characters body).drop stop).flatten name ↔
      stop = index + (characters name).length ∧ standsAt rules (characters body) index name := by
  rw [Spells, characters_flatten_between, characters_flatten_drop, List.head?_drop]
  simp only [standsAt, Bool.and_eq_true, beq_iff_eq, Bool.not_eq_true']
  constructor
  · rintro ⟨hfold, hrest⟩
    have hlength : stop = index + (characters name).length := by
      have hcount := congrArg List.length hfold
      simp only [between, List.length_map, List.length_take, List.length_drop] at hcount
      omega
    rw [← hlength]
    exact ⟨rfl, hfold, hrest⟩
  · rintro ⟨rfl, hfold, hrest⟩
    exact ⟨hfold, hrest⟩

theorem between_eq_cons {c : JsString} (hc : text[index]? = some c) (hstop : index < stop) :
    between text index stop = c :: between text (index + 1) stop := by
  obtain ⟨hindex, rfl⟩ := List.getElem?_eq_some_iff.mp hc
  have hcount : stop - index = stop - (index + 1) + 1 := by omega
  rw [between, List.drop_eq_getElem_cons hindex, hcount, List.take_succ_cons, between]

theorem stop_le_length (h : standsAt rules text index name) (hindex : index ≤ text.length) :
    index + (characters name).length ≤ text.length := by
  simp only [standsAt, Bool.and_eq_true, beq_iff_eq] at h
  have hcount := congrArg List.length h.1
  simp only [between, List.length_map, List.length_take, List.length_drop] at hcount
  omega

section Pieces

variable {body rest : JsString} {piece : Span (Option JsString)}

theorem flagged_iff (piece : Span (Option JsString)) (hpiece : piece.start < piece.stop)
    (hstart : piece.start < (characters body).length) :
    (piece.text (characters body)).flatten.head? = some atSign ↔
      (characters body)[piece.start]? = some [atSign] := by
  have hfirst := List.getElem?_eq_getElem hstart
  rw [Span.text, between_eq_cons hfirst hpiece, List.flatten_cons, hfirst, Option.some_inj]
  constructor
  · intro hhead
    exact eq_singleton_of_mem_characters (List.getElem_mem hstart) hhead (by decide)
  · intro hcharacter
    rw [hcharacter]
    rfl

theorem isMention_of_mentionAt {start : ℕ} {written : JsString}
    (h : mentionAt rules (sortedNames users) (characters body) start = some (stop, written)) :
    IsMention rules users (between (characters body) start stop).flatten
      ((characters body).drop stop).flatten := by
  obtain ⟨hat, name, hfind, hstop, -⟩ := mentionAt_eq_some_iff.mp h
  obtain ⟨hname, user, huser, rfl⟩ := mem_sortedNames_iff.mp (List.mem_of_find?_eq_some hfind)
  have hstands := List.find?_some hfind
  have hstart : start < (characters body).length := (List.getElem?_eq_some_iff.mp hat).1
  have hlength := stop_le_length hstands (by omega)
  refine ⟨(between (characters body) (start + 1) stop).flatten, ?_, user, huser, hname, ?_⟩
  · rw [between_eq_cons hat (by omega)]
    rfl
  · exact (standsAt_iff_spells (by omega) (by omega)).mpr ⟨hstop, hstands⟩

theorem not_isMention_of_mentionAt_eq_none {start : ℕ}
    (h : mentionAt rules (sortedNames users) (characters body) start = none) (hstart : start < stop)
    (hstop : stop ≤ (characters body).length) :
    ¬ IsMention rules users (between (characters body) start stop).flatten
      ((characters body).drop stop).flatten := by
  rintro ⟨written, htext, user, huser, hname, hspells⟩
  have hat : (characters body)[start]? = some [atSign] :=
    (flagged_iff ⟨start, stop, none⟩ hstart (hstart.trans_le hstop)).mp
      (by rw [Span.text, htext]; rfl)
  have hwritten : written = (between (characters body) (start + 1) stop).flatten := by
    rw [between_eq_cons hat hstart] at htext
    exact (List.cons.inj htext).2.symm
  rw [hwritten, standsAt_iff_spells hstop hstart] at hspells
  have hnone := (mentionAt_eq_none_iff hat).mp h user.fullName
    (mem_sortedNames_iff.mpr ⟨hname, user, huser, rfl⟩)
  rw [hnone] at hspells
  cases hspells.2

end Pieces

/-- An at-sign at the start of the body or behind a mention, at which no name of a user stands. -/
structure StrayAtSign (rules : CaseRules) (users : List User) (body : JsString) (index : ℕ) :
    Prop where
  starts : index = 0 ∨ ∃ start written,
    Reached (mentionAt rules (sortedNames users) (characters body)) 0 start ∧
      mentionAt rules (sortedNames users) (characters body) start = some (index, written)
  atSign_eq : (characters body)[index]? = some [atSign]
  stands : ∀ name ∈ sortedNames users, standsAt rules (characters body) (index + 1) name = false

/-- The text and the flag of a piece. -/
def segmentOf (body : JsString) (piece : Span (Option JsString)) : MessageSegment :=
  ⟨(piece.text (characters body)).flatten,
    (piece.text (characters body)).flatten.head? == some atSign⟩

section Spans

variable {body : JsString} {spans : List (Span JsString)}

theorem flatten_segments {pieces : List (Span (Option JsString))} :
    ((pieces.map (segmentOf body)).map (·.text)).flatten =
      (pieces.map (·.text (characters body))).flatten.flatten := by
  rw [List.flatten_flatten, List.map_map, List.map_map]
  rfl

variable (h : Scanned (mentionAt rules (sortedNames users) (characters body))
  (characters body).length 0 spans)

include h

theorem flatten_messageSegments :
    (((pieces (characters body).length 0 spans).map (segmentOf body)).map (·.text)).flatten =
      body := by
  rw [flatten_segments, h.flatten_pieces advances_mentionAt le_rfl, List.drop_zero,
    flatten_characters]

variable {piece : Span (Option JsString)}

theorem mem_pieces_cases (hpiece : piece ∈ pieces (characters body).length 0 spans) :
    (∃ written, mentionAt rules (sortedNames users) (characters body) piece.start =
        some (piece.stop, written)) ∨
      piece.value = none ∧ piece.start < piece.stop ∧ piece.stop ≤ (characters body).length ∧
        mentionAt rules (sortedNames users) (characters body) piece.start = none ∧
        (piece.start = 0 ∨ ∃ span ∈ spans, piece.start = span.stop) := by
  rcases eq_none_or_span_of_mem_pieces hpiece with hnone | ⟨span, hspan, rfl⟩
  · obtain ⟨hlt, hstop, hstart, hreads⟩ :=
      h.gap (fun j hj hlt => absurd hlt (by omega)) hpiece hnone
    exact .inr ⟨hnone, hlt, hstop, hreads _ le_rfl hlt, hstart⟩
  · exact .inl ⟨span.value, (h.reads_eq span hspan).2⟩

theorem segmentOf_mention_iff (hpiece : piece ∈ pieces (characters body).length 0 spans) :
    ((segmentOf body piece).mention ↔ IsMention rules users (segmentOf body piece).text
        ((characters body).drop piece.stop).flatten) ↔
      ¬ (mentionAt rules (sortedNames users) (characters body) piece.start = none ∧
        (characters body)[piece.start]? = some [atSign]) := by
  rcases mem_pieces_cases h hpiece with ⟨written, hread⟩ | ⟨-, hlt, hstop, hread, -⟩
  · obtain ⟨hat, -⟩ := mentionAt_eq_some_iff.mp hread
    have hflagged := (flagged_iff piece (advances_mentionAt _ _ _ hread)
      (List.getElem?_eq_some_iff.mp hat).1).mpr hat
    refine iff_of_true (iff_of_true (by simpa [segmentOf] using hflagged) ?_) (by simp [hread])
    exact isMention_of_mentionAt hread
  · have hnot := not_isMention_of_mentionAt_eq_none hread hlt hstop
    have hflagged := flagged_iff piece hlt (hlt.trans_le hstop)
    simp only [segmentOf, beq_iff_eq, hflagged, hread, true_and]
    exact ⟨fun hiff hat => hnot (hiff.mp hat), fun hat => iff_of_false hat hnot⟩

theorem forall_segment_mention_iff :
    (∀ before segment after,
      (pieces (characters body).length 0 spans).map (segmentOf body) =
          before ++ segment :: after →
        (segment.mention ↔ IsMention rules users segment.text (after.map (·.text)).flatten)) ↔
      ∀ piece ∈ pieces (characters body).length 0 spans,
        ¬ (mentionAt rules (sortedNames users) (characters body) piece.start = none ∧
          (characters body)[piece.start]? = some [atSign]) := by
  constructor
  · intro hsegments piece hpiece
    obtain ⟨before, after, hsplit⟩ := List.append_of_mem hpiece
    have hsegment := hsegments (before.map (segmentOf body)) (segmentOf body piece)
      (after.map (segmentOf body)) (by rw [hsplit, List.map_append, List.map_cons])
    rw [flatten_segments, h.flatten_after advances_mentionAt le_rfl hsplit] at hsegment
    exact (segmentOf_mention_iff h hpiece).mp hsegment
  · intro hpieces before segment after hsplit
    obtain ⟨front, rest, hfront, rfl, hrest⟩ := List.map_eq_append_iff.mp hsplit
    obtain ⟨piece, back, rfl, rfl, rfl⟩ := List.map_eq_cons_iff.mp hrest
    have hpiece : piece ∈ pieces (characters body).length 0 spans := by rw [hfront]; simp
    rw [flatten_segments, h.flatten_after advances_mentionAt le_rfl hfront]
    exact (segmentOf_mention_iff h hpiece).mpr (hpieces piece hpiece)

theorem exists_piece_of_strayAtSign {index : ℕ} (hstray : StrayAtSign rules users body index) :
    ∃ piece ∈ pieces (characters body).length 0 spans,
      mentionAt rules (sortedNames users) (characters body) piece.start = none ∧
        (characters body)[piece.start]? = some [atSign] := by
  obtain ⟨hstarts, hat, hstands⟩ := hstray
  have hnone := (mentionAt_eq_none_iff hat).mpr hstands
  have hindex : index < (characters body).length := (List.getElem?_eq_some_iff.mp hat).1
  obtain ⟨piece, hpiece, rfl, -⟩ : ∃ piece ∈ pieces (characters body).length 0 spans,
      piece.start = index ∧ piece.value = none := by
    rcases hstarts with rfl | ⟨start, written, hreached, hread⟩
    · exact h.exists_gap_at_cursor advances_mentionAt hindex hnone
    · have hspan : (⟨start, index, written⟩ : Span JsString) ∈ spans := by
        refine (h.mem_iff advances_mentionAt).mpr ⟨hreached, ?_, hread⟩
        exact (advances_mentionAt _ _ _ hread).trans hindex
      exact h.exists_gap_behind advances_mentionAt hspan hindex hnone
  exact ⟨piece, hpiece, hnone, hat⟩

theorem strayAtSign_of_mem_pieces (hpiece : piece ∈ pieces (characters body).length 0 spans)
    (hnone : mentionAt rules (sortedNames users) (characters body) piece.start = none)
    (hat : (characters body)[piece.start]? = some [atSign]) :
    StrayAtSign rules users body piece.start := by
  refine ⟨?_, hat, (mentionAt_eq_none_iff hat).mp hnone⟩
  rcases mem_pieces_cases h hpiece with ⟨written, hread⟩ | ⟨-, -, -, -, hstart⟩
  · cases hnone ▸ hread
  · refine hstart.imp_right ?_
    rintro ⟨span, hspan, heq⟩
    obtain ⟨hreached, -, hread⟩ := (h.mem_iff advances_mentionAt).mp hspan
    exact ⟨span.start, span.value, hreached, by rw [hread, heq]⟩

end Spans

theorem sortedNames_eq_nil_iff :
    sortedNames users = [] ↔ ∀ user ∈ users, user.fullName = [] := by
  rw [List.eq_nil_iff_forall_not_mem]
  constructor
  · intro h user huser
    by_contra hname
    exact h user.fullName (mem_sortedNames_iff.mpr ⟨hname, user, huser, rfl⟩)
  · intro h name hname
    obtain ⟨hblank, user, huser, rfl⟩ := mem_sortedNames_iff.mp hname
    exact hblank (h user huser)

theorem messageSegments_eq (rules : CaseRules) (hnames : sortedNames users ≠ []) (body : JsString) :
    ∃ spans, Scanned (mentionAt rules (sortedNames users) (characters body))
        (characters body).length 0 spans ∧
      messageSegments rules body users =
        some ((pieces (characters body).length 0 spans).map (segmentOf body)) := by
  have hadvances : Advances (mentionAt rules (sortedNames users) (characters body)) :=
    advances_mentionAt
  obtain ⟨spans, hspans, hscanned⟩ := scanAll_scanned hadvances (characters body).length
  refine ⟨spans, hscanned, ?_⟩
  simp only [messageSegments, if_neg hnames, hspans, Option.map_some]
  rfl

theorem exists_messageSegments (rules : CaseRules) (body : JsString) (users : List User) :
    ∃ segments, messageSegments rules body users = some segments ∧
      (segments.map (·.text)).flatten = body := by
  by_cases hnames : sortedNames users = []
  · exact ⟨[⟨body, false⟩], by simp [messageSegments, hnames], by simp⟩
  · obtain ⟨spans, hscanned, hsegments⟩ := messageSegments_eq rules hnames body
    exact ⟨_, hsegments, flatten_messageSegments hscanned⟩

/-- The texts of the segments are the body; they are flagged as mentions if and only if they are
mentions, unless a stray at-sign starts one of them. -/
theorem segments_flagged_iff (rules : CaseRules) (body : JsString) (users : List User) :
    ∃ segments, messageSegments rules body users = some segments ∧
      (segments.map (·.text)).flatten = body ∧
      ((∀ before segment after, segments = before ++ segment :: after →
          (segment.mention ↔
            IsMention rules users segment.text (after.map (·.text)).flatten)) ↔
        ((∃ user ∈ users, user.fullName ≠ []) →
          ∀ index, ¬ StrayAtSign rules users body index)) := by
  by_cases hnames : sortedNames users = []
  · have husers := sortedNames_eq_nil_iff.mp hnames
    refine ⟨[⟨body, false⟩], by simp [messageSegments, hnames], by simp, iff_of_true ?_ ?_⟩
    · intro before segment after hsplit
      have hsegment : segment = ⟨body, false⟩ := by
        have hmem : segment ∈ [MessageSegment.mk body false] := by rw [hsplit]; simp
        exact List.mem_singleton.mp hmem
      rw [hsegment]
      refine iff_of_false (by simp) ?_
      rintro ⟨-, -, user, huser, hname, -⟩
      exact hname (husers user huser)
    · rintro ⟨user, huser, hname⟩
      exact absurd (husers user huser) hname
  · obtain ⟨spans, hscanned, hsegments⟩ := messageSegments_eq rules hnames body
    have huser : ∃ user ∈ users, user.fullName ≠ [] := by
      simpa [sortedNames_eq_nil_iff] using hnames
    refine ⟨_, hsegments, flatten_messageSegments hscanned, ?_⟩
    rw [forall_prop_of_true huser, forall_segment_mention_iff hscanned]
    constructor
    · intro hpieces index hstray
      obtain ⟨piece, hpiece, hgap⟩ := exists_piece_of_strayAtSign hscanned hstray
      exact hpieces piece hpiece hgap
    · intro hstray piece hpiece hgap
      exact hstray piece.start (strayAtSign_of_mem_pieces hscanned hpiece hgap.1 hgap.2)

namespace SegmentsExample

def ann : User := ⟨1, ascii "Ann"⟩

/-- Text that starts with an at-sign is flagged although no user has the name. -/
theorem stray_at_sign_flagged :
    messageSegments asciiRules (ascii "@bob hi @Ann") [ann] =
        some [⟨ascii "@bob hi ", true⟩, ⟨ascii "@Ann", true⟩] ∧
      ¬ IsMention asciiRules [ann] (ascii "@bob hi ") (ascii "@Ann") := by
  refine ⟨by decide +kernel, ?_⟩
  rintro ⟨written, hwritten, user, huser, -, hspells⟩
  obtain rfl := List.mem_singleton.mp huser
  obtain rfl : written = ascii "bob hi " := (List.cons.inj hwritten).2.symm
  revert hspells
  unfold Spells
  decide +kernel

end SegmentsExample

end LearningPlatform.Mentions.Mobile
