import Mathlib.Data.List.DropRight
import Mathlib.Data.List.Sort

/-! # Windows of an ordered table

Rows with distinct keys in a linear order. A window is read from the end of the order or from
an anchor to one side, with a limit on its length. -/

namespace LearningPlatform.Shared

variable {ρ κ : Type*} [LinearOrder κ] {key : ρ → κ}

/-! ## Ordering rows by a key -/

/-- `ORDER BY key`. -/
def orderBy (key : ρ → κ) (rows : List ρ) : List ρ :=
  rows.insertionSort fun first second => key first ≤ key second

/-- `ORDER BY key DESC`. -/
def orderByDesc (key : ρ → κ) (rows : List ρ) : List ρ :=
  rows.insertionSort fun first second => key second ≤ key first

/-- Rows in the strict order of their keys. -/
def Ordered (key : ρ → κ) (rows : List ρ) : Prop :=
  rows.Pairwise fun first second => key first < key second

theorem orderBy_perm (key : ρ → κ) (rows : List ρ) : (orderBy key rows).Perm rows :=
  List.perm_insertionSort _ _

variable {rows : List ρ}

theorem mem_orderBy {row : ρ} : row ∈ orderBy key rows ↔ row ∈ rows :=
  (orderBy_perm key rows).mem_iff

theorem orderBy_filter_ne_nil (key : ρ → κ) (rows : List ρ) (p : ρ → Bool) :
    orderBy key (rows.filter p) ≠ [] ↔ rows.any p = true := by
  rw [← List.length_pos_iff, (orderBy_perm key _).length_eq, List.length_pos_iff]
  simp [List.filter_eq_nil_iff]

theorem pairwise_orderBy (key : ρ → κ) (rows : List ρ) :
    (orderBy key rows).Pairwise fun first second => key first ≤ key second :=
  haveI : Std.Total fun first second : ρ => key first ≤ key second :=
    ⟨fun first second => le_total (key first) (key second)⟩
  haveI : IsTrans ρ fun first second : ρ => key first ≤ key second :=
    ⟨fun _ _ _ => le_trans⟩
  List.pairwise_insertionSort _ _

theorem pairwise_orderByDesc (key : ρ → κ) (rows : List ρ) :
    (orderByDesc key rows).Pairwise fun first second => key second ≤ key first :=
  pairwise_orderBy (fun row => OrderDual.toDual (key row)) rows

theorem ordered_orderBy (h : (rows.map key).Nodup) : Ordered key (orderBy key rows) := by
  have hle := pairwise_orderBy key rows
  have hne : (orderBy key rows).Pairwise fun first second => key first ≠ key second :=
    List.pairwise_map.mp (((orderBy_perm key rows).map key).nodup_iff.mpr h)
  exact hle.imp₂ (fun _ _ h hne => lt_of_le_of_ne h hne) hne

/-- A row of an ordered table is among the first `limit` if fewer rows come before it. -/
theorem Ordered.mem_take_iff {ordered : List ρ} (h : Ordered key ordered) {row : ρ} {limit : ℕ} :
    row ∈ ordered.take limit ↔
      row ∈ ordered ∧ ordered.countP (fun other => key other < key row) < limit := by
  induction ordered generalizing limit with
  | nil => simp
  | cons first rest ih =>
    obtain ⟨hfirst, hrest⟩ := List.pairwise_cons.mp h
    cases limit with
    | zero => simp
    | succ limit =>
      rw [List.take_succ_cons, List.mem_cons, List.mem_cons, ih hrest]
      by_cases heq : row = first
      · subst heq
        have hnone : rest.countP (fun other => key other < key row) = 0 := by
          rw [List.countP_eq_zero]
          intro other hother hlt
          exact lt_asymm (hfirst other hother) (by simpa using hlt)
        simp [hnone]
      · by_cases hmem : row ∈ rest
        · simp [heq, hmem, hfirst row hmem]
        · simp [heq, hmem]

theorem mem_take_orderBy_iff (h : (rows.map key).Nodup) {row : ρ} {limit : ℕ} :
    row ∈ (orderBy key rows).take limit ↔
      row ∈ rows ∧ rows.countP (fun other => key other < key row) < limit := by
  rw [(ordered_orderBy h).mem_take_iff, mem_orderBy, (orderBy_perm key rows).countP_eq]

theorem Ordered.eq_of_perm {first second : List ρ} (hfirst : Ordered key first)
    (hsecond : Ordered key second) (h : first.Perm second) : first = second := by
  refine h.eq_of_pairwise ?_ hfirst hsecond
  intro a b _ _ hab hba
  exact absurd hab (lt_asymm hba)

theorem Ordered.orderBy_eq {rows ordered : List ρ} (h : Ordered key ordered)
    (hperm : ordered.Perm rows) : orderBy key rows = ordered := by
  have hkeys : (ordered.map key).Nodup := List.pairwise_map.mpr (h.imp fun hlt => ne_of_lt hlt)
  exact (ordered_orderBy ((hperm.map key).nodup_iff.mp hkeys)).eq_of_perm h
    ((orderBy_perm key rows).trans hperm.symm)

theorem orderByDesc_eq (h : (rows.map key).Nodup) :
    orderByDesc key rows = (orderBy key rows).reverse := by
  have hreverse : Ordered (fun row => OrderDual.toDual (key row)) (orderBy key rows).reverse :=
    List.pairwise_reverse.mpr (ordered_orderBy h)
  exact hreverse.orderBy_eq ((List.reverse_perm _).trans (orderBy_perm key rows))

theorem orderBy_filter (h : (rows.map key).Nodup) (p : ρ → Bool) :
    orderBy key (rows.filter p) = (orderBy key rows).filter p := by
  have hordered : Ordered key ((orderBy key rows).filter p) :=
    (ordered_orderBy h).sublist List.filter_sublist
  exact hordered.orderBy_eq ((orderBy_perm key rows).filter p)

theorem orderByDesc_filter (h : (rows.map key).Nodup) (p : ρ → Bool) :
    orderByDesc key (rows.filter p) = (orderByDesc key rows).filter p :=
  @orderBy_filter ρ κᵒᵈ _ (fun row => OrderDual.toDual (key row)) rows h p

theorem le_of_head?_orderByDesc {row : ρ} (hrow : row ∈ rows) :
    ∃ last ∈ (orderByDesc key rows).head?, key row ≤ key last := by
  have hsorted := pairwise_orderByDesc key rows
  have hmem : row ∈ orderByDesc key rows := (List.perm_insertionSort _ _).mem_iff.mpr hrow
  cases hrows : orderByDesc key rows with
  | nil => simp [hrows] at hmem
  | cons last rest =>
    rw [hrows] at hsorted hmem
    refine ⟨last, rfl, ?_⟩
    rcases List.mem_cons.mp hmem with rfl | hrest
    · exact le_rfl
    · exact (List.pairwise_cons.mp hsorted).1 row hrest

/-! ## Updates that keep the key -/

theorem orderBy_map {f : ρ → ρ} (hf : ∀ row, key (f row) = key row) (rows : List ρ) :
    orderBy key (rows.map f) = (orderBy key rows).map f :=
  (List.map_insertionSort _ _ f rows fun first _ second _ => by simp only [hf]).symm

theorem orderByDesc_map {f : ρ → ρ} (hf : ∀ row, key (f row) = key row) (rows : List ρ) :
    orderByDesc key (rows.map f) = (orderByDesc key rows).map f :=
  @orderBy_map ρ κᵒᵈ _ (fun row => OrderDual.toDual (key row)) f hf rows

/-! ## Windows -/

/-- Two selections agree in their first rows if they agree on every row that fewer selected rows
come before. -/
theorem take_filter_eq_iff (h : rows.Nodup) {p q : ρ → Bool} {limit : ℕ} :
    (rows.filter p).take limit = (rows.filter q).take limit ↔
      ∀ before row after, rows = before ++ row :: after → (before.filter p).length < limit →
        p row = q row := by
  induction rows generalizing limit with
  | nil => simp
  | cons first rest ih =>
    obtain ⟨hfirst, hrest⟩ := List.nodup_cons.mp h
    cases limit with
    | zero => simp
    | succ limit =>
      have hcons : (∀ before row after, first :: rest = before ++ row :: after →
            (before.filter p).length < limit + 1 → p row = q row) ↔
          p first = q first ∧ ∀ before row after, rest = before ++ row :: after →
            ((first :: before).filter p).length < limit + 1 → p row = q row := by
        constructor
        · exact fun hall => ⟨hall [] first rest rfl (by simp), fun before row after heq hlt =>
            hall (first :: before) row after (by rw [heq]; rfl) hlt⟩
        · rintro ⟨hsame, hall⟩ before row after heq hlt
          cases before with
          | nil => exact (List.cons.inj heq).1 ▸ hsame
          | cons other before =>
            obtain ⟨rfl, hrows⟩ := List.cons.inj heq
            exact hall before row after hrows hlt
      have hnot {p' : ρ → Bool} {other : List ρ} :
          (rest.filter p').take (limit + 1) ≠ first :: other := fun heq =>
        hfirst (List.mem_of_mem_filter (List.mem_of_mem_take (heq ▸ List.mem_cons_self)))
      rw [hcons]
      cases hp : p first <;> cases hq : q first
      · simp [hp, hq, ih hrest]
      · simpa [hp, hq] using hnot
      · simpa [hp, hq] using hnot.symm
      · simp [hp, hq, ih hrest]

/-- The last rows of the order, selected in descending order and put back in order. -/
theorem orderBy_take_orderByDesc (h : (rows.map key).Nodup) (limit : ℕ) :
    orderBy key ((orderByDesc key rows).take limit) = (orderBy key rows).rtake limit := by
  have hordered : Ordered key ((orderBy key rows).rtake limit) :=
    (ordered_orderBy h).sublist (List.drop_sublist _ _)
  refine hordered.orderBy_eq ?_
  rw [List.rtake_eq_reverse_take_reverse, ← orderByDesc_eq h]
  exact List.reverse_perm _

section Anchor

variable {rows older newer : List ρ} {anchor : ρ} (h : (rows.map key).Nodup)
  (heq : orderBy key rows = older ++ anchor :: newer)

include h heq

theorem lt_of_orderBy_eq :
    (∀ row ∈ older, key row < key anchor) ∧ (∀ row ∈ newer, key anchor < key row) := by
  have hordered := ordered_orderBy h
  rw [heq, Ordered, List.pairwise_append, List.pairwise_cons] at hordered
  exact ⟨fun row hrow => hordered.2.2 row hrow anchor (by simp), hordered.2.1.1⟩

theorem orderBy_filter_lt :
    orderBy key (rows.filter fun row => key row < key anchor) = older := by
  obtain ⟨holder, hnewer⟩ := lt_of_orderBy_eq h heq
  have hbefore : older.filter (fun row => key row < key anchor) = older :=
    List.filter_eq_self.mpr fun row hrow => by simpa using holder row hrow
  have hafter : newer.filter (fun row => key row < key anchor) = [] :=
    List.filter_eq_nil_iff.mpr fun row hrow => by simpa using (hnewer row hrow).le
  simp [orderBy_filter h, heq, hbefore, hafter]

theorem orderBy_filter_gt :
    orderBy key (rows.filter fun row => key anchor < key row) = newer := by
  obtain ⟨holder, hnewer⟩ := lt_of_orderBy_eq h heq
  have hbefore : older.filter (fun row => key anchor < key row) = [] :=
    List.filter_eq_nil_iff.mpr fun row hrow => by simpa using (holder row hrow).le
  have hafter : newer.filter (fun row => key anchor < key row) = newer :=
    List.filter_eq_self.mpr fun row hrow => by simpa using hnewer row hrow
  simp [orderBy_filter h, heq, hbefore, hafter]

theorem any_lt_iff :
    (rows.any fun row => key row < key anchor) = true ↔ older ≠ [] := by
  rw [← orderBy_filter_ne_nil key, orderBy_filter_lt h heq]

theorem any_gt_iff :
    (rows.any fun row => key anchor < key row) = true ↔ newer ≠ [] := by
  rw [← orderBy_filter_ne_nil key, orderBy_filter_gt h heq]

/-- Both sides of the anchor, read in their own directions, form a block of the order. -/
theorem orderBy_around (before after : ℕ) :
    orderBy key
        ((orderByDesc key (rows.filter fun row => key row < key anchor)).take before ++
          anchor :: (orderBy key (rows.filter fun row => key anchor < key row)).take after) =
      older.rtake before ++ anchor :: newer.take after := by
  have hkeys : ((rows.filter fun row => key row < key anchor).map key).Nodup :=
    h.sublist (List.filter_sublist.map key)
  have hordered : Ordered key (older.rtake before ++ anchor :: newer.take after) :=
    (heq ▸ ordered_orderBy h).sublist
      ((List.drop_sublist _ _).append ((List.take_sublist _ _).cons_cons anchor))
  refine hordered.orderBy_eq ?_
  rw [orderByDesc_eq hkeys, orderBy_filter_lt h heq, orderBy_filter_gt h heq,
    List.rtake_eq_reverse_take_reverse]
  exact (List.reverse_perm _).append_right _

end Anchor

/-! ## Windows from a key upwards -/

/-- The rows whose keys are not below a bound, in order. -/
def above (key : ρ → κ) (bound : κ) (rows : List ρ) : List ρ :=
  orderBy key (rows.filter fun row => bound ≤ key row)

section Above

variable {rows : List ρ} {bound : κ}

theorem mem_above {row : ρ} : row ∈ above key bound rows ↔ row ∈ rows ∧ bound ≤ key row := by
  simp [above, mem_orderBy]

theorem ordered_above (h : (rows.map key).Nodup) : Ordered key (above key bound rows) :=
  ordered_orderBy (h.sublist (List.filter_sublist.map key))

theorem Ordered.nodup {rows : List ρ} (h : Ordered key rows) : rows.Nodup :=
  h.imp fun hlt heq => (ne_of_lt hlt) (congrArg key heq)

theorem Ordered.eq_above {ordered : List ρ} (hordered : Ordered key ordered)
    (h : (rows.map key).Nodup) (hmem : ∀ row, row ∈ ordered ↔ row ∈ rows ∧ bound ≤ key row) :
    ordered = above key bound rows := by
  have hwindow : Ordered key (above key bound rows) := ordered_above h
  refine hordered.eq_of_perm hwindow ?_
  refine (List.perm_ext_iff_of_nodup hordered.nodup hwindow.nodup).mpr ?_
  intro row
  rw [hmem row, mem_above]

theorem above_map {f : ρ → ρ} (hf : ∀ row ∈ rows, key (f row) = key row) :
    above key bound (rows.map f) = (above key bound rows).map f := by
  have hfilter : (rows.map f).filter (fun row => bound ≤ key row) =
      (rows.filter fun row => bound ≤ key row).map f := by
    rw [List.filter_map]
    refine congrArg (List.map f) (List.filter_congr ?_)
    intro row hrow
    simp [hf row hrow]
  rw [above, hfilter]
  refine (List.map_insertionSort _ _ f _ ?_).symm
  intro first hfirst second hsecond
  rw [hf first (List.mem_of_mem_filter hfirst), hf second (List.mem_of_mem_filter hsecond)]

theorem above_filter (h : (rows.map key).Nodup) (p : ρ → Bool) :
    above key bound (rows.filter p) = (above key bound rows).filter p := by
  simp only [above, orderBy_filter h, List.filter_filter, Bool.and_comm]

theorem above_append_singleton {row : ρ} (h : ((rows ++ [row]).map key).Nodup)
    (hbound : bound ≤ key row) :
    above key bound (rows ++ [row]) = orderBy key (above key bound rows ++ [row]) := by
  have hrows : (rows.map key).Nodup := h.sublist (by simp)
  have hsub : ∀ other ∈ above key bound rows, key other ≠ key row := by
    intro other hother heq
    rw [List.map_append, List.nodup_append] at h
    exact h.2.2 (key other) (List.mem_map_of_mem (mem_above.mp hother).1) (key row) (by simp) heq
  have hkeys : ((above key bound rows ++ [row]).map key).Nodup := by
    refine List.pairwise_map.mpr (List.pairwise_append.mpr ⟨?_, by simp, ?_⟩)
    · exact (ordered_above hrows).imp fun hlt => ne_of_lt hlt
    · intro other hother last hlast
      rw [List.mem_singleton.mp hlast]
      exact hsub other hother
  refine ((ordered_orderBy hkeys).eq_above h ?_).symm
  intro other
  rw [mem_orderBy, List.mem_append, List.mem_append, mem_above, List.mem_singleton, or_and_right]
  refine or_congr_right ⟨?_, And.left⟩
  rintro rfl
  exact ⟨rfl, hbound⟩

end Above

end LearningPlatform.Shared
