import Mathlib.Data.List.Basic
import Mathlib.Order.Nat

/-! # Reading from left to right

A reader that looks for something at each position, takes what it finds and goes on behind it. -/

namespace LearningPlatform.Shared

/-- A part of a text by its bounds, with what it was read as. -/
structure Span (β : Type*) where
  start : ℕ
  stop : ℕ
  value : β
  deriving DecidableEq, Repr

variable {σ β : Type*}

/-- `slice(start, stop)`. -/
def between (text : List σ) (start stop : ℕ) : List σ :=
  (text.drop start).take (stop - start)

/-- The spans from a position on, where `reads` gives the end and the value of what stands at a
position; `none` if `fuel` steps do not suffice. -/
def scan (reads : ℕ → Option (ℕ × β)) (size : ℕ) : ℕ → ℕ → Option (List (Span β))
  | 0, _ => none
  | fuel + 1, index =>
    if index < size then
      match reads index with
      | none => scan reads size fuel (index + 1)
      | some (stop, value) => (scan reads size fuel stop).map (⟨index, stop, value⟩ :: ·)
    else some []

def scanAll (reads : ℕ → Option (ℕ × β)) (size : ℕ) : Option (List (Span β)) :=
  scan reads size (size + 1) 0

/-- The spans and the gaps between them from a cursor on; a gap has no value. -/
def pieces (size : ℕ) : ℕ → List (Span β) → List (Span (Option β))
  | cursor, [] => if cursor < size then [⟨cursor, size, none⟩] else []
  | cursor, span :: spans =>
    (if cursor < span.start then [⟨cursor, span.start, none⟩] else []) ++
      ⟨span.start, span.stop, some span.value⟩ :: pieces size span.stop spans

def Span.text (span : Span β) (text : List σ) : List σ :=
  between text span.start span.stop

section Slices

variable {text : List σ} {start stop : ℕ}

theorem between_append_drop (h : start ≤ stop) :
    between text start stop ++ text.drop stop = text.drop start := by
  have hdrop : text.drop stop = (text.drop start).drop (stop - start) := by
    rw [List.drop_drop, Nat.add_sub_of_le h]
  rw [between, hdrop, List.take_append_drop]

theorem length_between (h : stop ≤ text.length) :
    (between text start stop).length = stop - start := by
  simp only [between, List.length_take, List.length_drop]
  omega

theorem length_between_le (text : List σ) (start stop : ℕ) :
    (between text start stop).length ≤ text.length := by
  simp only [between, List.length_take, List.length_drop]
  omega

theorem between_length (text : List σ) (start : ℕ) :
    between text start text.length = text.drop start :=
  List.take_of_length_le (by simp)

theorem between_cons {first : σ} (h : text[start]? = some first) (length : ℕ) :
    between text start (start + (length + 1)) =
      first :: between text (start + 1) (start + 1 + length) := by
  have hdrop : text.drop start = first :: text.drop (start + 1) := by
    obtain ⟨hlt, rfl⟩ := List.getElem?_eq_some_iff.mp h
    exact List.drop_eq_getElem_cons hlt
  simp [between, hdrop]

end Slices

/-- The positions that a reader comes to. -/
inductive Reached (reads : ℕ → Option (ℕ × β)) (index : ℕ) : ℕ → Prop
  | start : Reached reads index index
  | skip {i : ℕ} (h : Reached reads index i) (hnone : reads i = none) : Reached reads index (i + 1)
  | take {i stop : ℕ} {value : β} (h : Reached reads index i)
      (hsome : reads i = some (stop, value)) : Reached reads index stop

/-- How a text is read from a position on. -/
inductive Scanned (reads : ℕ → Option (ℕ × β)) (size : ℕ) : ℕ → List (Span β) → Prop
  | done {i : ℕ} (h : size ≤ i) : Scanned reads size i []
  | skip {i : ℕ} {spans : List (Span β)} (h : i < size) (hnone : reads i = none)
      (rest : Scanned reads size (i + 1) spans) : Scanned reads size i spans
  | take {i stop : ℕ} {value : β} {spans : List (Span β)} (h : i < size)
      (hsome : reads i = some (stop, value)) (rest : Scanned reads size stop spans) :
      Scanned reads size i (⟨i, stop, value⟩ :: spans)

/-- What is read is not empty. -/
def Advances (reads : ℕ → Option (ℕ × β)) : Prop :=
  ∀ i stop value, reads i = some (stop, value) → i < stop

variable {reads : ℕ → Option (ℕ × β)} {size index : ℕ} {spans : List (Span β)}

theorem scan_scanned (hreads : Advances reads) {fuel : ℕ} (h : size - index < fuel) :
    ∃ spans, scan reads size fuel index = some spans ∧ Scanned reads size index spans := by
  induction fuel generalizing index with
  | zero => omega
  | succ fuel ih =>
    by_cases hindex : index < size
    · rw [scan, if_pos hindex]
      cases hread : reads index with
      | none =>
        obtain ⟨spans, hscan, hscanned⟩ := @ih (index + 1) (by omega)
        exact ⟨spans, hscan, .skip hindex hread hscanned⟩
      | some found =>
        obtain ⟨stop, value⟩ := found
        have hstop := hreads index stop value hread
        obtain ⟨spans, hscan, hscanned⟩ := @ih stop (by omega)
        exact ⟨⟨index, stop, value⟩ :: spans, by simp [hscan], .take hindex hread hscanned⟩
    · exact ⟨[], by rw [scan, if_neg hindex], .done (not_lt.mp hindex)⟩

theorem scanAll_scanned (hreads : Advances reads) (size : ℕ) :
    ∃ spans, scanAll reads size = some spans ∧ Scanned reads size 0 spans :=
  scan_scanned hreads (by omega)

theorem eq_none_or_span_of_mem_pieces {cursor : ℕ} {piece : Span (Option β)}
    (h : piece ∈ pieces size cursor spans) :
    piece.value = none ∨ ∃ span ∈ spans, piece = ⟨span.start, span.stop, some span.value⟩ := by
  induction spans generalizing cursor with
  | nil =>
    rw [pieces] at h
    split_ifs at h
    · exact .inl (by rw [List.mem_singleton.mp h])
    · cases h
  | cons span spans ih =>
    rw [pieces, List.mem_append, List.mem_cons] at h
    rcases h with hgap | rfl | hrest
    · split_ifs at hgap
      · exact .inl (by rw [List.mem_singleton.mp hgap])
      · cases hgap
    · exact .inr ⟨span, by simp, rfl⟩
    · refine (ih hrest).imp_right ?_
      rintro ⟨other, hother, hpiece⟩
      exact ⟨other, by simp [hother], hpiece⟩

/-- The first entry that is found in an ordered list comes before every other one. -/
theorem rel_of_find?_eq_some {r : β → β → Prop} {l : List β} (hl : l.Pairwise r) {p : β → Bool}
    {a : β} (ha : l.find? p = some a) {b : β} (hb : b ∈ l) (hp : p b) : b = a ∨ r a b := by
  obtain ⟨-, before, after, rfl, hbefore⟩ := List.find?_eq_some_iff_append.mp ha
  rcases List.mem_append.mp hb with hb | hb
  · simpa [hp] using hbefore b hb
  · rcases List.mem_cons.mp hb with rfl | hb
    · exact .inl rfl
    · exact .inr (List.rel_of_pairwise_cons (List.pairwise_append.mp hl).2.1 hb)

namespace Scanned

theorem le_start (h : Scanned reads size index spans) (hreads : Advances reads) :
    ∀ span ∈ spans, index ≤ span.start := by
  induction h with
  | done => simp
  | skip _ _ _ ih => exact fun span hspan => (Nat.le_succ _).trans (ih span hspan)
  | take _ hsome _ ih =>
    intro span hspan
    rcases List.mem_cons.mp hspan with rfl | hspan
    · exact le_rfl
    · exact (hreads _ _ _ hsome).le.trans (ih span hspan)

variable {i cursor : ℕ}

theorem skip_to {k : ℕ} (h : Scanned reads size k spans) (hle : i ≤ k) (hk : k ≤ size)
    (hnone : ∀ j, i ≤ j → j < k → reads j = none) : Scanned reads size i spans := by
  induction k with
  | zero =>
    obtain rfl : i = 0 := by omega
    exact h
  | succ k ih =>
    rcases Nat.eq_or_lt_of_le hle with rfl | hlt
    · exact h
    · refine ih (.skip (by omega) (hnone k (by omega) (by omega)) h) (by omega) (by omega) ?_
      intro j hj hlt
      exact hnone j hj (by omega)

theorem reads_eq (h : Scanned reads size index spans) :
    ∀ span ∈ spans, span.start < size ∧ reads span.start = some (span.stop, span.value) := by
  induction h with
  | done => simp
  | skip _ _ _ ih => exact ih
  | take hindex hsome _ ih =>
    intro span hspan
    rcases List.mem_cons.mp hspan with rfl | hspan
    · exact ⟨hindex, hsome⟩
    · exact ih span hspan

/-- The spans are disjoint and in the order of the text. -/
theorem pairwise (h : Scanned reads size index spans) (hreads : Advances reads) :
    spans.Pairwise fun a b => a.stop ≤ b.start := by
  induction h with
  | done => exact .nil
  | skip _ _ _ ih => exact ih
  | take _ _ rest ih => exact .cons (rest.le_start hreads) ih

/-- Nothing is found at a position that no span covers. -/
theorem reads_eq_none (h : Scanned reads size index spans) (hi : index ≤ i) (hsize : i < size)
    (houtside : ∀ span ∈ spans, ¬ (span.start ≤ i ∧ i < span.stop)) : reads i = none := by
  induction h with
  | done h => omega
  | skip _ hnone _ ih =>
    rcases Nat.eq_or_lt_of_le hi with rfl | hlt
    · exact hnone
    · exact ih hlt houtside
  | take _ _ _ ih =>
    have hstop := houtside _ List.mem_cons_self
    exact ih (not_lt.mp fun hlt => hstop ⟨hi, hlt⟩)
      fun span hspan => houtside span (List.mem_cons_of_mem _ hspan)

theorem reached_trans {j : ℕ} (h : Reached reads index i) (h' : Reached reads i j) :
    Reached reads index j := by
  induction h' with
  | start => exact h
  | skip _ hnone ih => exact .skip ih hnone
  | take _ hsome ih => exact .take ih hsome

theorem reached_cases (h : Reached reads index i) :
    i = index ∨ (reads index = none ∧ Reached reads (index + 1) i) ∨
      ∃ stop value, reads index = some (stop, value) ∧ Reached reads stop i := by
  induction h with
  | start => exact .inl rfl
  | skip _ hnone ih =>
    rcases ih with rfl | ⟨hfirst, hlater⟩ | ⟨stop, value, hfirst, hlater⟩
    · exact .inr (.inl ⟨hnone, .start⟩)
    · exact .inr (.inl ⟨hfirst, .skip hlater hnone⟩)
    · exact .inr (.inr ⟨stop, value, hfirst, .skip hlater hnone⟩)
  | take _ hsome ih =>
    rcases ih with rfl | ⟨hfirst, hlater⟩ | ⟨stop, value, hfirst, hlater⟩
    · exact .inr (.inr ⟨_, _, hsome, .start⟩)
    · exact .inr (.inl ⟨hfirst, .take hlater hsome⟩)
    · exact .inr (.inr ⟨stop, value, hfirst, .take hlater hsome⟩)

theorem le_of_reached (hreads : Advances reads) (h : Reached reads index i) : index ≤ i := by
  induction h with
  | start => exact le_rfl
  | skip _ _ ih => omega
  | take _ hsome ih => exact ih.trans (hreads _ _ _ hsome).le

/-- The reader comes to positions in their order. -/
theorem reached_of_le {j : ℕ} (hreads : Advances reads) (hj : Reached reads index j)
    (hi : Reached reads index i) (hle : j ≤ i) : Reached reads j i := by
  induction hj with
  | start => exact hi
  | skip _ hnone ih =>
    rcases reached_cases (ih (by omega)) with rfl | ⟨-, hlater⟩ | ⟨stop, value, hsome, -⟩
    · omega
    · exact hlater
    · cases hnone ▸ hsome
  | take _ hsome ih =>
    have hlt := hreads _ _ _ hsome
    rcases reached_cases (ih (by omega)) with rfl | ⟨hnone, -⟩ | ⟨stop, value, hfirst, hlater⟩
    · omega
    · cases hsome ▸ hnone
    · cases hsome ▸ hfirst
      exact hlater

/-- The reader comes to a position that nothing covers which it takes before. -/
theorem reached_iff (hreads : Advances reads) (hi : index ≤ i) :
    Reached reads index i ↔ ∀ j < i, Reached reads index j →
      ∀ stop value, reads j = some (stop, value) → stop ≤ i := by
  constructor
  · intro hreached j hlt hj stop value hsome
    rcases reached_cases (reached_of_le hreads hj hreached hlt.le) with
      rfl | ⟨hnone, -⟩ | ⟨stop', value', hfirst, hlater⟩
    · omega
    · cases hsome ▸ hnone
    · cases hsome ▸ hfirst
      exact le_of_reached hreads hlater
  · intro hcovers
    -- From each position before `i` the reader comes to a later one that is not behind `i`.
    have hstep (distance : ℕ) : ∀ j, Reached reads index j → j ≤ i → i - j = distance →
        Reached reads index i := by
      induction distance using Nat.strong_induction_on with
      | _ distance ih =>
        intro j hj hle hdistance
        rcases Nat.eq_or_lt_of_le hle with rfl | hlt
        · exact hj
        · cases hread : reads j with
          | none => exact ih (i - (j + 1)) (by omega) _ (.skip hj hread) hlt rfl
          | some found =>
            obtain ⟨stop, value⟩ := found
            have hstop := hcovers j hlt hj stop value hread
            have hadvance := hreads j stop value hread
            exact ih (i - stop) (by omega) _ (.take hj hread) hstop rfl
    exact hstep _ index .start hi rfl

/-- The spans are what stands at the positions that the reader comes to. -/
theorem mem_iff (h : Scanned reads size index spans) (hreads : Advances reads) {span : Span β} :
    span ∈ spans ↔ Reached reads index span.start ∧ span.start < size ∧
      reads span.start = some (span.stop, span.value) := by
  induction h with
  | done h =>
    simp only [List.not_mem_nil, false_iff]
    rintro ⟨hreached, hsize, -⟩
    exact absurd (h.trans (le_of_reached hreads hreached)) (not_le.mpr hsize)
  | skip hindex hnone _ ih =>
    rw [ih]
    refine and_congr_left fun hspan => ⟨fun hreached => ?_, fun hreached => ?_⟩
    · exact reached_trans (.skip .start hnone) hreached
    · rcases reached_cases hreached with heq | ⟨-, hlater⟩ | ⟨stop, value, hsome, -⟩
      · rw [heq, hnone] at hspan
        exact absurd hspan.2 (by simp)
      · exact hlater
      · cases hnone ▸ hsome
  | take hindex hsome _ ih =>
    rw [List.mem_cons, ih]
    constructor
    · rintro (rfl | ⟨hreached, hspan⟩)
      · exact ⟨.start, hindex, hsome⟩
      · exact ⟨reached_trans (.take .start hsome) hreached, hspan⟩
    · rintro ⟨hreached, hspan⟩
      rcases reached_cases hreached with heq | ⟨hnone, -⟩ | ⟨stop, value, hfirst, hlater⟩
      · rw [heq, hsome] at hspan
        refine .inl ?_
        cases span
        simp_all
      · cases hsome ▸ hnone
      · cases hsome ▸ hfirst
        exact .inr ⟨hlater, hspan⟩

theorem flatten_pieces {text : List σ} (h : Scanned reads text.length index spans)
    (hreads : Advances reads) (hcursor : cursor ≤ index) :
    ((pieces text.length cursor spans).map (·.text text)).flatten = text.drop cursor := by
  induction h generalizing cursor with
  | done h =>
    by_cases hlt : cursor < text.length
    · simp [pieces, hlt, Span.text, between_length]
    · simp [pieces, hlt, List.drop_of_length_le (not_lt.mp hlt)]
  | skip _ _ _ ih => exact ih (by omega)
  | @take i stop value spans _ hsome _ ih =>
    have hrest : ((pieces text.length stop spans).map (·.text text)).flatten = text.drop stop :=
      ih le_rfl
    have hgap : (if cursor < i then [Span.mk cursor i (none : Option β)] else []).flatMap
        (·.text text) = between text cursor i := by
      split_ifs with hlt
      · simp [Span.text]
      · simp [between, Nat.sub_eq_zero_of_le (not_lt.mp hlt)]
    have hstop := hreads _ _ _ hsome
    rw [pieces, List.map_append, List.flatten_append, List.map_cons, List.flatten_cons,
      ← List.flatMap_def, hgap, hrest, Span.text, between_append_drop hstop.le,
      between_append_drop hcursor]

/-- What comes behind a piece is the rest of the text. -/
theorem flatten_after {text : List σ} (h : Scanned reads text.length index spans)
    (hreads : Advances reads) {cursor : ℕ} (hcursor : cursor ≤ index)
    {before after : List (Span (Option β))} {piece : Span (Option β)}
    (hpieces : pieces text.length cursor spans = before ++ piece :: after) :
    (after.map (·.text text)).flatten = text.drop piece.stop := by
  induction h generalizing cursor before with
  | done h =>
    rw [pieces] at hpieces
    split_ifs at hpieces
    · cases before with
      | nil =>
        obtain ⟨rfl, rfl⟩ := List.cons.inj hpieces
        simp
      | cons => simp at hpieces
    · simp at hpieces
  | skip _ _ _ ih => exact ih (by omega) hpieces
  | @take i stop value spans _ hsome rest ih =>
    have hstop := hreads _ _ _ hsome
    have hrest : ((pieces text.length stop spans).map (·.text text)).flatten = text.drop stop :=
      rest.flatten_pieces hreads le_rfl
    have hspan : ∀ {before : List (Span (Option β))},
        ⟨i, stop, some value⟩ :: pieces text.length stop spans = before ++ piece :: after →
        (after.map (·.text text)).flatten = text.drop piece.stop := by
      intro before hbefore
      cases before with
      | nil =>
        obtain ⟨rfl, rfl⟩ := List.cons.inj hbefore
        exact hrest
      | cons first before => exact ih le_rfl (List.cons.inj hbefore).2
    rw [pieces] at hpieces
    split_ifs at hpieces
    · cases before with
      | nil =>
        obtain ⟨rfl, rfl⟩ := List.cons.inj hpieces
        change between text i stop ++
          ((pieces text.length stop spans).map (·.text text)).flatten = _
        rw [hrest, between_append_drop hstop.le]
      | cons first before => exact hspan (List.cons.inj hpieces).2
    · exact hspan hpieces

/-- A gap starts at the cursor or behind a span, and nothing is found in it. -/
theorem gap (h : Scanned reads size index spans)
    (hgap : ∀ j, cursor ≤ j → j < index → reads j = none) {piece : Span (Option β)}
    (hpiece : piece ∈ pieces size cursor spans) (hvalue : piece.value = none) :
    piece.start < piece.stop ∧ piece.stop ≤ size ∧
      (piece.start = cursor ∨ ∃ span ∈ spans, piece.start = span.stop) ∧
      ∀ j, piece.start ≤ j → j < piece.stop → reads j = none := by
  induction h generalizing cursor with
  | done h =>
    rw [pieces] at hpiece
    split_ifs at hpiece with hlt
    · obtain rfl := List.mem_singleton.mp hpiece
      exact ⟨hlt, le_rfl, .inl rfl, fun j hj hlt => hgap j hj (hlt.trans_le h)⟩
    · cases hpiece
  | skip _ hnone _ ih =>
    refine ih (fun j hj hlt => ?_) hpiece
    rcases Nat.lt_succ_iff_lt_or_eq.mp hlt with hlt | rfl
    · exact hgap j hj hlt
    · exact hnone
  | @take i stop value spans hsize _ _ ih =>
    rw [pieces, List.mem_append, List.mem_cons] at hpiece
    rcases hpiece with hfirst | rfl | hrest
    · split_ifs at hfirst with hlt
      · obtain rfl := List.mem_singleton.mp hfirst
        exact ⟨hlt, hsize.le, .inl rfl, hgap⟩
      · cases hfirst
    · cases hvalue
    · obtain ⟨hlt, hstop, hstart, hnone⟩ :=
        ih (fun j hj hlt => absurd hj (not_le.mpr hlt)) hrest
      refine ⟨hlt, hstop, .inr ?_, hnone⟩
      rcases hstart with hstart | ⟨span, hspan, hstart⟩
      · exact ⟨_, List.mem_cons_self, hstart⟩
      · exact ⟨span, List.mem_cons_of_mem _ hspan, hstart⟩

theorem exists_gap_at_cursor (h : Scanned reads size index spans) (hreads : Advances reads)
    (hindex : index < size) (hnone : reads index = none) :
    ∃ piece ∈ pieces size index spans, piece.start = index ∧ piece.value = none := by
  cases spans with
  | nil => exact ⟨⟨index, size, none⟩, by simp [pieces, hindex], rfl, rfl⟩
  | cons span spans =>
    have hstart := h.le_start hreads span List.mem_cons_self
    have hread := (h.reads_eq span List.mem_cons_self).2
    have hlt : index < span.start := by
      refine lt_of_le_of_ne hstart fun heq => ?_
      rw [← heq, hnone] at hread
      cases hread
    exact ⟨⟨index, span.start, none⟩, by simp [pieces, hlt], rfl, rfl⟩

theorem exists_gap_behind (h : Scanned reads size index spans) (hreads : Advances reads)
    {span : Span β} (hspan : span ∈ spans) (hstop : span.stop < size)
    (hnone : reads span.stop = none) :
    ∃ piece ∈ pieces size cursor spans, piece.start = span.stop ∧ piece.value = none := by
  induction h generalizing cursor with
  | done => cases hspan
  | skip _ _ _ ih => exact ih hspan
  | @take i stop value spans _ _ rest ih =>
    have hlater : ∃ piece ∈ pieces size stop spans,
        piece.start = span.stop ∧ piece.value = none := by
      rcases List.mem_cons.mp hspan with rfl | hspan
      · exact rest.exists_gap_at_cursor hreads hstop hnone
      · exact ih hspan
    obtain ⟨piece, hpiece, hstart⟩ := hlater
    exact ⟨piece, by simp [pieces, hpiece], hstart⟩

end Scanned

end LearningPlatform.Shared
