import LearningPlatform.Shared.JsText
import Mathlib.Data.List.Infix
import Mathlib.Data.List.ModifyLast

/-! # Lines of texts

How the lines of a text change when it is trimmed and when its runs of newlines are cut. -/

namespace LearningPlatform.Shared.JsText

variable {text rest : JsString} {c : UInt16} {texts : List JsString}

/-! ## Splitting and joining -/

theorem lines_ne_nil (text : JsString) : lines text ≠ [] :=
  List.splitOn_ne_nil _ _

theorem exists_lines_eq_cons (text : JsString) : ∃ line others, lines text = line :: others :=
  List.exists_cons_of_ne_nil (lines_ne_nil text)

@[simp] theorem lines_nil : lines [] = [[]] := rfl

@[simp] theorem lines_newline_cons (rest : JsString) :
    lines (newline :: rest) = [] :: lines rest := by
  rw [lines, List.splitOn, List.splitOnP_cons_eq_if_modifyHead, if_pos (beq_self_eq_true _)]
  rfl

theorem lines_cons_of_ne (h : c ≠ newline) (rest : JsString) :
    lines (c :: rest) = (lines rest).modifyHead (List.cons c) := by
  rw [lines, List.splitOn, List.splitOnP_cons_eq_if_modifyHead, if_neg (by simpa using h)]
  rfl

@[simp] theorem unlines_lines (text : JsString) : unlines (lines text) = text :=
  List.intercalate_splitOn newline

theorem newline_notMem_of_mem_lines {line : JsString} (h : line ∈ lines text) : newline ∉ line := by
  induction text generalizing line with
  | nil =>
    rw [lines_nil, List.mem_singleton] at h
    simp [h]
  | cons c rest ih =>
    by_cases hc : c = newline
    · rw [hc, lines_newline_cons, List.mem_cons] at h
      rcases h with rfl | h
      · simp
      · exact ih h
    · obtain ⟨first, others, hlines⟩ := exists_lines_eq_cons rest
      rw [lines_cons_of_ne hc, hlines, List.modifyHead_cons, List.mem_cons] at h
      rw [hlines] at ih
      rcases h with rfl | h
      · have hfirst := ih List.mem_cons_self
        simp [hfirst, Ne.symm hc]
      · exact ih (List.mem_cons_of_mem _ h)

theorem lines_unlines (hlines : ∀ line ∈ texts, newline ∉ line) (hne : texts ≠ []) :
    lines (unlines texts) = texts :=
  List.splitOn_intercalate newline hlines hne

theorem unlines_cons_of_ne_nil (line : JsString) (h : texts ≠ []) :
    unlines (line :: texts) = line ++ newline :: unlines texts := by
  rw [unlines, List.intercalate_cons_of_ne_nil h, List.append_assoc]
  rfl

theorem unlines_append_singleton (line : JsString) (h : texts ≠ []) :
    unlines (texts ++ [line]) = unlines texts ++ newline :: line := by
  induction texts with
  | nil => contradiction
  | cons first others ih =>
    by_cases hothers : others = []
    · simp [hothers, unlines, List.intercalate_cons_cons]
    · rw [List.cons_append, unlines_cons_of_ne_nil _ (by simp), ih hothers,
        unlines_cons_of_ne_nil _ hothers]
      simp

theorem reverse_unlines (texts : List JsString) :
    (unlines texts).reverse = unlines (texts.map List.reverse).reverse := by
  induction texts with
  | nil => rfl
  | cons first others ih =>
    by_cases hothers : others = []
    · simp [hothers, unlines]
    · rw [unlines_cons_of_ne_nil _ hothers, List.map_cons, List.reverse_cons,
        unlines_append_singleton _ (by simpa using hothers), ← ih]
      simp

theorem lines_reverse (text : JsString) :
    lines text.reverse = ((lines text).map List.reverse).reverse := by
  have hjoined : text.reverse = unlines ((lines text).map List.reverse).reverse := by
    rw [← reverse_unlines, unlines_lines]
  rw [hjoined]
  refine lines_unlines ?_ (by simpa using lines_ne_nil text)
  intro line hline
  obtain ⟨original, horiginal, rfl⟩ := List.mem_map.mp (List.mem_reverse.mp hline)
  simpa using newline_notMem_of_mem_lines horiginal

/-! ## Trimming -/

@[simp] theorem isWhitespace_newline : isWhitespace newline = true := by decide

theorem trimStart_cons_of_pos (h : isWhitespace c) (rest : JsString) :
    trimStart (c :: rest) = trimStart rest :=
  List.dropWhile_cons_of_pos h

theorem trimStart_cons_of_neg (h : ¬isWhitespace c) (rest : JsString) :
    trimStart (c :: rest) = c :: rest :=
  List.dropWhile_cons_of_neg h

theorem trimEnd_eq_reverse (text : JsString) : trimEnd text = (trimStart text.reverse).reverse :=
  rfl

theorem trimStart_suffix (text : JsString) : trimStart text <:+ text :=
  List.dropWhile_suffix _

theorem trimEnd_isPrefix (text : JsString) : trimEnd text <+: text :=
  List.rdropWhile_prefix _ _

theorem trim_isInfix (text : JsString) : trim text <:+: text :=
  (trimEnd_isPrefix _).isInfix.trans (trimStart_suffix text).isInfix

def StartsSolid (text : JsString) : Prop :=
  ∀ c ∈ text.head?, ¬isWhitespace c

def EndsSolid (text : JsString) : Prop :=
  ∀ c ∈ text.getLast?, ¬isWhitespace c

theorem trimStart_eq_self_iff : trimStart text = text ↔ StartsSolid text := by
  cases text with
  | nil => simp [trimStart, StartsSolid]
  | cons c rest =>
    by_cases hc : isWhitespace c
    · have hshort := (trimStart_suffix rest).length_le
      have hne : trimStart (c :: rest) ≠ c :: rest := by
        intro h
        rw [trimStart_cons_of_pos hc] at h
        rw [h, List.length_cons] at hshort
        omega
      simp [hne, StartsSolid, hc]
    · simp [trimStart_cons_of_neg hc, StartsSolid, hc]

theorem trimEnd_eq_self_iff : trimEnd text = text ↔ EndsSolid text := by
  have hreverse : StartsSolid text.reverse ↔ EndsSolid text := by
    simp [StartsSolid, EndsSolid]
  rw [← hreverse, ← trimStart_eq_self_iff, trimEnd_eq_reverse, List.reverse_eq_iff]

theorem trimStart_startsSolid (text : JsString) : StartsSolid (trimStart text) :=
  trimStart_eq_self_iff.mp (List.dropWhile_idempotent ..)

theorem trimEnd_endsSolid (text : JsString) : EndsSolid (trimEnd text) :=
  trimEnd_eq_self_iff.mp (List.rdropWhile_idempotent ..)

theorem StartsSolid.of_isPrefix {other : JsString} (h : StartsSolid text)
    (hstarts : other <+: text) :
    StartsSolid other := by
  obtain ⟨tail, rfl⟩ := hstarts
  cases other with
  | nil => simp [StartsSolid]
  | cons c others => simpa [StartsSolid] using h

theorem trim_startsSolid (text : JsString) : StartsSolid (trim text) :=
  (trimStart_startsSolid text).of_isPrefix (trimEnd_isPrefix _)

theorem trim_endsSolid (text : JsString) : EndsSolid (trim text) :=
  trimEnd_endsSolid _

theorem trim_eq_self (hstart : StartsSolid text) (hend : EndsSolid text) : trim text = text := by
  rw [trim, trimStart_eq_self_iff.mpr hstart, trimEnd_eq_self_iff.mpr hend]

/-! ## Blank parts -/

def isBlank (line : JsString) : Bool :=
  line.all isWhitespace

@[simp] theorem isBlank_nil : isBlank [] = true := rfl

@[simp] theorem isBlank_reverse (line : JsString) : isBlank line.reverse = isBlank line :=
  List.all_reverse

@[simp] theorem isBlank_append (text rest : JsString) :
    isBlank (text ++ rest) = (isBlank text && isBlank rest) :=
  List.all_append

theorem trimStart_eq_nil_iff : trimStart text = [] ↔ isBlank text := by
  rw [trimStart, List.dropWhile_eq_nil_iff, isBlank, List.all_eq_true]

theorem trimEnd_eq_nil_iff : trimEnd text = [] ↔ isBlank text := by
  rw [trimEnd, List.rdropWhile_eq_nil_iff, isBlank, List.all_eq_true]

theorem exists_trimStart (text : JsString) :
    ∃ front, isBlank front ∧ text = front ++ trimStart text :=
  ⟨text.takeWhile isWhitespace, by simp [isBlank], List.takeWhile_append_dropWhile.symm⟩

theorem exists_trimEnd (text : JsString) : ∃ tail, isBlank tail ∧ text = trimEnd text ++ tail := by
  obtain ⟨front, hblank, htext⟩ := exists_trimStart text.reverse
  refine ⟨front.reverse, by simpa using hblank, ?_⟩
  rw [trimEnd_eq_reverse, ← List.reverse_append, ← htext, List.reverse_reverse]

theorem trimStart_blank_append {front : JsString} (h : isBlank front) (text : JsString) :
    trimStart (front ++ text) = trimStart text :=
  List.dropWhile_append_of_pos (List.all_eq_true.mp h)

theorem trimEnd_append_blank {tail : JsString} (h : isBlank tail) (text : JsString) :
    trimEnd (text ++ tail) = trimEnd text := by
  rw [trimEnd_eq_reverse, List.reverse_append, trimStart_blank_append (by simpa using h),
    trimEnd_eq_reverse]

/-- What stands between blank parts is what trimming leaves. -/
theorem trim_eq {front middle tail : JsString} (hfront : isBlank front) (htail : isBlank tail)
    (hstart : StartsSolid middle) (hend : EndsSolid middle) :
    trim (front ++ middle ++ tail) = middle := by
  rw [List.append_assoc, trim, trimStart_blank_append hfront]
  cases middle with
  | nil =>
    rw [List.nil_append, trimStart_eq_nil_iff.mpr htail]
    rfl
  | cons c rest =>
    have hsolid : StartsSolid (c :: rest ++ tail) := by simpa [StartsSolid] using hstart
    rw [trimStart_eq_self_iff.mpr hsolid, trimEnd_append_blank htail, trimEnd_eq_self_iff.mpr hend]

theorem trim_trimStart (text : JsString) : trim (trimStart text) = trim text := by
  rw [trim, trim, trimStart_eq_self_iff.mpr (trimStart_startsSolid text)]

theorem trim_trimEnd (text : JsString) : trim (trimEnd text) = trim text := by
  obtain ⟨tail, htail, htext⟩ := exists_trimEnd text
  obtain ⟨front, hfront, hstart⟩ := exists_trimStart (trimEnd text)
  obtain ⟨tail', htail', hend⟩ := exists_trimEnd (trimStart (trimEnd text))
  have hparts : text = front ++ trim (trimEnd text) ++ (tail' ++ tail) := by
    calc text = trimEnd text ++ tail := htext
      _ = front ++ (trim (trimEnd text) ++ tail') ++ tail := by
        rw [trim, ← hend, ← hstart]
      _ = front ++ trim (trimEnd text) ++ (tail' ++ tail) := by simp only [List.append_assoc]
  have htrimmed : trim (front ++ trim (trimEnd text) ++ (tail' ++ tail)) = trim (trimEnd text) :=
    trim_eq hfront (by simp [htail, htail']) (trim_startsSolid _) (trim_endsSolid _)
  rw [← hparts] at htrimmed
  exact htrimmed.symm

theorem trim_eq_nil_iff : trim text = [] ↔ isBlank text := by
  rw [trim, trimEnd_eq_nil_iff]
  obtain ⟨front, hfront, htext⟩ := exists_trimStart text
  have hblank : isBlank text = isBlank (trimStart text) := by
    rw [congrArg isBlank htext, isBlank_append, hfront, Bool.true_and]
  rw [hblank]

/-! ## Lines with content -/

def contentLines (text : JsString) : List JsString :=
  (lines text).filter (!isBlank ·)

/-- The first and the last line of a text, trimmed at its ends. -/
def trimEnds (texts : List JsString) : List JsString :=
  (texts.modifyHead trimStart).modifyLast trimEnd

theorem contentLines_newline_cons (rest : JsString) :
    contentLines (newline :: rest) = contentLines rest := by
  simp [contentLines]

theorem contentLines_reverse (text : JsString) :
    contentLines text.reverse = ((contentLines text).map List.reverse).reverse := by
  rw [contentLines, lines_reverse, List.filter_reverse, List.filter_map, contentLines]
  congr 3
  funext line
  simp

theorem contentLines_trimStart (text : JsString) :
    contentLines (trimStart text) = (contentLines text).modifyHead trimStart := by
  induction text with
  | nil => rfl
  | cons c rest ih =>
    by_cases hnewline : c = newline
    · rw [hnewline, trimStart_cons_of_pos isWhitespace_newline, contentLines_newline_cons, ih]
    obtain ⟨first, others, hlines⟩ := exists_lines_eq_cons rest
    have hcons : lines (c :: rest) = (c :: first) :: others := by
      rw [lines_cons_of_ne hnewline, hlines, List.modifyHead_cons]
    by_cases hc : isWhitespace c
    · have hblank : isBlank (c :: first) = isBlank first := by simp [isBlank, hc]
      rw [trimStart_cons_of_pos hc, ih, contentLines, contentLines, hcons, hlines]
      by_cases hfirst : isBlank first
      · simp [hblank, hfirst]
      · simp [hblank, hfirst, trimStart_cons_of_pos hc]
    · have hblank : isBlank (c :: first) = false := by simp [isBlank, hc]
      rw [trimStart_cons_of_neg hc, contentLines, hcons, List.filter_cons_of_pos (by simp [hblank]),
        List.modifyHead_cons, trimStart_cons_of_neg hc]

variable {α : Type*}

theorem modifyLast_eq_reverse (f : α → α) (entries : List α) :
    entries.modifyLast f = (entries.reverse.modifyHead f).reverse := by
  rcases List.eq_nil_or_concat entries with rfl | ⟨front, last, rfl⟩
  · rfl
  · rw [List.concat_eq_append, List.modifyLast_concat]
    simp

theorem forall_modifyHead {P : α → Prop} {f : α → α} {entries : List α}
    (h : ∀ entry ∈ entries, P entry) (hf : ∀ entry, P entry → P (f entry)) :
    ∀ entry ∈ entries.modifyHead f, P entry := by
  cases entries with
  | nil => simp
  | cons first others =>
    intro entry hentry
    rw [List.modifyHead_cons] at hentry
    rcases List.mem_cons.mp hentry with rfl | hentry
    · exact hf first (h first List.mem_cons_self)
    · exact h entry (List.mem_cons_of_mem _ hentry)

theorem forall_modifyLast {P : α → Prop} {f : α → α} {entries : List α}
    (h : ∀ entry ∈ entries, P entry) (hf : ∀ entry, P entry → P (f entry)) :
    ∀ entry ∈ entries.modifyLast f, P entry := by
  intro entry hentry
  rw [modifyLast_eq_reverse, List.mem_reverse] at hentry
  exact forall_modifyHead (fun other hother => h other (List.mem_reverse.mp hother)) hf entry hentry

theorem intersperse_cons (separator first : α) (others : List α) :
    (first :: others).intersperse separator =
      first :: others.flatMap fun other => [separator, other] := by
  induction others generalizing first with
  | nil => rfl
  | cons second others ih => rw [List.intersperse_cons_cons, ih second]; rfl

theorem getLast?_intersperse (separator : α) (entries : List α) :
    (entries.intersperse separator).getLast? = entries.getLast? := by
  induction entries with
  | nil => rfl
  | cons first others ih =>
    cases others with
    | nil => rfl
    | cons second others =>
      rw [List.intersperse_cons_cons, List.getLast?_cons_cons]
      rw [List.getLast?_cons, ih, List.getLast?_cons_cons]
      simp [List.getLast?_cons]

theorem contentLines_trimEnd (text : JsString) :
    contentLines (trimEnd text) = (contentLines text).modifyLast trimEnd := by
  rw [trimEnd_eq_reverse, contentLines_reverse, contentLines_trimStart, contentLines_reverse,
    modifyLast_eq_reverse]
  rcases List.eq_nil_or_concat (contentLines text) with hnil | ⟨front, last, hconcat⟩
  · simp [hnil]
  · simp [hconcat, trimEnd_eq_reverse]

theorem contentLines_trim (text : JsString) :
    contentLines (trim text) = trimEnds (contentLines text) := by
  rw [trim, contentLines_trimEnd, contentLines_trimStart, trimEnds]

/-! ## Runs of newlines -/

@[simp] theorem cutRuns_nil (run : ℕ) : cutRuns run [] = [] := rfl

theorem cutRuns_newline_of_lt {run : ℕ} (h : run < 2) (rest : JsString) :
    cutRuns run (newline :: rest) = newline :: cutRuns (run + 1) rest := by
  rw [cutRuns, if_pos rfl, if_pos h]

theorem cutRuns_newline_of_le {run : ℕ} (h : 2 ≤ run) (rest : JsString) :
    cutRuns run (newline :: rest) = cutRuns run rest := by
  rw [cutRuns, if_pos rfl, if_neg (Nat.not_lt.mpr h)]

theorem cutRuns_cons_of_ne (run : ℕ) (h : c ≠ newline) (rest : JsString) :
    cutRuns run (c :: rest) = c :: cutRuns 0 rest := by
  rw [cutRuns, if_neg h]

/-- Cut runs have the same lines with content, and the same first line where it is not in a run. -/
theorem lines_cutRuns (run : ℕ) (text : JsString) :
    contentLines (cutRuns run text) = contentLines text ∧
      (run < 2 → (lines (cutRuns run text)).head? = (lines text).head?) := by
  induction text generalizing run with
  | nil => simp
  | cons c rest ih =>
    by_cases hnewline : c = newline
    · subst hnewline
      by_cases hrun : run < 2
      · rw [cutRuns_newline_of_lt hrun]
        refine ⟨?_, fun _ => by simp⟩
        rw [contentLines_newline_cons, contentLines_newline_cons, (ih (run + 1)).1]
      · rw [cutRuns_newline_of_le (Nat.not_lt.mp hrun), contentLines_newline_cons]
        exact ⟨(ih run).1, fun h => absurd h hrun⟩
    · obtain ⟨hcontent, hhead⟩ := ih 0
      obtain ⟨first, others, hlines⟩ := exists_lines_eq_cons rest
      obtain ⟨first', others', hlines'⟩ := exists_lines_eq_cons (cutRuns 0 rest)
      have hfirst : first' = first := by simpa [hlines, hlines'] using hhead (by decide)
      subst hfirst
      rw [cutRuns_cons_of_ne run hnewline, contentLines, contentLines,
        lines_cons_of_ne hnewline, lines_cons_of_ne hnewline, hlines, hlines']
      refine ⟨?_, fun _ => rfl⟩
      rw [contentLines, contentLines, hlines, hlines'] at hcontent
      have hothers : others'.filter (!isBlank ·) = others.filter (!isBlank ·) := by
        by_cases hblank : isBlank first'
        · simpa [hblank] using hcontent
        · simpa [hblank] using hcontent
      simp only [List.modifyHead_cons, List.filter_cons, hothers]

theorem contentLines_collapseNewlines (text : JsString) :
    contentLines (collapseNewlines text) = contentLines text :=
  (lines_cutRuns 0 text).1

/-- Three newlines in a row. -/
def threeNewlines : JsString :=
  [newline, newline, newline]

/-- Behind `run` newlines, no run of three follows. -/
theorem not_threeNewlines_cutRuns (run : ℕ) (text : JsString) (hrun : run ≤ 2) :
    ¬threeNewlines <:+: List.replicate run newline ++ cutRuns run text := by
  induction text generalizing run with
  | nil =>
    intro h
    have hlength := h.length_le
    simp [threeNewlines] at hlength
    omega
  | cons c rest ih =>
    by_cases hnewline : c = newline
    · subst hnewline
      by_cases hlt : run < 2
      · have hnext := ih (run + 1) hlt
        rwa [cutRuns_newline_of_lt hlt, List.append_cons, ← List.replicate_succ']
      · rw [cutRuns_newline_of_le (Nat.not_lt.mp hlt)]
        exact ih run hrun
    · rw [cutRuns_cons_of_ne run hnewline, List.infix_append_iff]
      rintro (h | h | ⟨front, tail, heq, hfront, htail⟩)
      · have hlength := h.length_le
        simp [threeNewlines] at hlength
        omega
      · rcases List.infix_cons_iff.mp h with h | h
        · exact hnewline (List.cons_prefix_cons.mp h).1.symm
        · exact ih 0 (by decide) (by simpa using h)
      · cases tail with
        | nil =>
          have hlength := hfront.length_le
          rw [List.append_nil] at heq
          simp [← heq, threeNewlines] at hlength
          omega
        | cons d tail =>
          have hd : d = newline := by
            have hmem : d ∈ threeNewlines := by simp [heq]
            simpa [threeNewlines] using hmem
          exact hnewline ((List.cons_prefix_cons.mp htail).1.symm.trans hd)

theorem not_threeNewlines_collapseNewlines (text : JsString) :
    ¬threeNewlines <:+: collapseNewlines text :=
  not_threeNewlines_cutRuns 0 text (by decide)

theorem cutRuns_eq_self (run : ℕ) (text : JsString)
    (h : ¬threeNewlines <:+: List.replicate run newline ++ text) : cutRuns run text = text := by
  induction text generalizing run with
  | nil => rfl
  | cons c rest ih =>
    by_cases hnewline : c = newline
    · subst hnewline
      have hlt : run < 2 := by
        by_contra hge
        obtain ⟨extra, rfl⟩ := Nat.exists_eq_add_of_le (Nat.not_lt.mp hge)
        refine h ⟨List.replicate extra newline, rest, ?_⟩
        rw [Nat.add_comm, List.replicate_add, threeNewlines]
        simp [List.replicate]
      rw [cutRuns_newline_of_lt hlt, ih (run + 1)]
      rwa [List.replicate_succ', List.append_assoc, List.singleton_append]
    · rw [cutRuns_cons_of_ne run hnewline, ih 0]
      intro hrest
      exact h (List.infix_append_of_infix_right (List.infix_cons (by simpa using hrest)))

theorem collapseNewlines_eq_self (h : ¬threeNewlines <:+: text) : collapseNewlines text = text :=
  cutRuns_eq_self 0 text h

theorem cutRuns_sublist (run : ℕ) (text : JsString) : (cutRuns run text).Sublist text := by
  induction text generalizing run with
  | nil => exact .slnil
  | cons c rest ih =>
    by_cases hnewline : c = newline
    · subst hnewline
      by_cases hrun : run < 2
      · rw [cutRuns_newline_of_lt hrun]
        exact (ih _).cons_cons _
      · rw [cutRuns_newline_of_le (Nat.not_lt.mp hrun)]
        exact (ih _).cons _
    · rw [cutRuns_cons_of_ne run hnewline]
      exact (ih _).cons_cons _

/-! ## Code units -/

theorem mem_unlines (h : c ∈ unlines texts) : c = newline ∨ ∃ line ∈ texts, c ∈ line := by
  induction texts with
  | nil => simp [unlines] at h
  | cons line others ih =>
    by_cases hothers : others = []
    · subst hothers
      exact .inr ⟨line, List.mem_cons_self, by simpa [unlines] using h⟩
    · rw [unlines_cons_of_ne_nil _ hothers, List.mem_append, List.mem_cons] at h
      rcases h with h | rfl | h
      · exact .inr ⟨line, List.mem_cons_self, h⟩
      · exact .inl rfl
      · rcases ih h with h | ⟨other, hother, h⟩
        · exact .inl h
        · exact .inr ⟨other, List.mem_cons_of_mem _ hother, h⟩

theorem infix_of_mem_lines {line : JsString} (h : line ∈ lines text) : line <:+: text := by
  obtain ⟨front, tail, hlines⟩ := List.append_of_mem h
  have htext : text = unlines (front ++ line :: tail) := by rw [← hlines, unlines_lines]
  have hfirst : line <+: unlines (line :: tail) := by
    by_cases htail : tail = []
    · simp [htail, unlines]
    · rw [unlines_cons_of_ne_nil _ htail]
      exact List.prefix_append _ _
  have hsuffix : unlines (line :: tail) <:+ unlines (front ++ line :: tail) := by
    clear htext hlines
    induction front with
    | nil => exact List.suffix_refl _
    | cons first front ih =>
      have hnext : unlines (first :: (front ++ line :: tail)) =
          first ++ newline :: unlines (front ++ line :: tail) :=
        unlines_cons_of_ne_nil first (by simp)
      rw [List.cons_append, hnext]
      exact ih.trans ((List.suffix_cons _ _).trans (List.suffix_append _ _))
  rw [htext]
  exact hfirst.isInfix.trans hsuffix.isInfix

/-! ## Carriage returns -/

def carriageReturn : UInt16 := 13

theorem joinLineEnds_cons (h : c = carriageReturn → rest.head? ≠ some newline) :
    joinLineEnds (c :: rest) = c :: joinLineEnds rest := by
  cases rest with
  | nil => rfl
  | cons d rest =>
    rw [joinLineEnds, if_neg]
    rintro ⟨hc, rfl⟩
    exact h hc rfl

/-- A text is empty, starts with a line end of two code units, or starts with another one. -/
@[elab_as_elim]
theorem lineEnd_induction {motive : JsString → Prop} (text : JsString) (nil : motive [])
    (lineEnd : ∀ rest, motive rest → motive (carriageReturn :: newline :: rest))
    (cons : ∀ c rest, (c = carriageReturn → rest.head? ≠ some newline) → motive rest →
      motive (c :: rest)) : motive text := by
  fun_induction joinLineEnds text with
  | case1 => exact nil
  | case2 c => exact cons c [] (by simp) nil
  | case3 c d rest hends ih =>
    rw [hends.1, hends.2]
    exact lineEnd rest ih
  | case4 c d rest hends ih =>
    refine cons c (d :: rest) ?_ ih
    intro hc hd
    exact hends ⟨hc, by simpa using hd⟩

theorem joinLineEnds_eq_self (h : ¬[carriageReturn, newline] <:+: text) :
    joinLineEnds text = text := by
  induction text using lineEnd_induction with
  | nil => rfl
  | lineEnd rest _ => exact absurd (List.prefix_append [carriageReturn, newline] rest).isInfix h
  | cons c rest hc ih => rw [joinLineEnds_cons hc, ih fun hrest => h (List.infix_cons hrest)]

end LearningPlatform.Shared.JsText
