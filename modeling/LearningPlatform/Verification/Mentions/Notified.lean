import LearningPlatform.Shared.TextLines
import LearningPlatform.Verification.Mentions.Spans

/-! # Notified users and highlighted names

The web page notifies a user by a pattern for the user's name alone, and highlights names with one
scanner for all of them. -/

namespace LearningPlatform.Mentions.Web

open Shared JsText

variable {rules : CaseRules} {body : JsString} {users : List User} {user : User}

/-! ## Notified users -/

/-- A name at an at-sign at the start of the body or behind a code unit that is in no word. -/
structure NamedAt (rules : CaseRules) (body name : JsString) (index : ℕ) : Prop where
  notBlank : trim name ≠ []
  outside : index = 0 ∨ 0 < index ∧ body[index - 1]?.any (!isWordUnit ·)
  names : namesAt rules body (trim name) index

theorem messageContainsMention_iff {name : JsString} :
    messageContainsMention rules body name ↔ ∃ index, NamedAt rules body name index := by
  simp only [messageContainsMention, Bool.and_eq_true, Bool.not_eq_true', List.isEmpty_eq_false_iff,
    List.any_eq_true, List.mem_range, Bool.or_eq_true, beq_iff_eq]
  constructor
  · rintro ⟨hblank, index, -, ⟨rfl, hnames⟩ | ⟨houtside, hnames⟩⟩
    · exact ⟨0, hblank, .inl rfl, hnames⟩
    · exact ⟨index + 1, hblank, .inr ⟨Nat.succ_pos _, houtside⟩, hnames⟩
  · rintro ⟨index, hblank, rfl | ⟨hpos, houtside⟩, hnames⟩
    · exact ⟨hblank, 0, Nat.succ_pos _, .inl ⟨rfl, hnames⟩⟩
    · obtain ⟨index, rfl⟩ := Nat.exists_eq_add_of_lt hpos
      rw [Nat.zero_add, Nat.add_sub_cancel] at houtside
      rw [Nat.zero_add] at hnames
      have hindex : index < body.length := by
        by_contra hlength
        rw [List.getElem?_eq_none (not_lt.mp hlength)] at houtside
        cases houtside
      exact ⟨hblank, index, by omega, .inr ⟨houtside, hnames⟩⟩

theorem mem_addMentioned_iff {resolved : List ℕ} {id : ℕ} :
    id ∈ addMentioned rules body users resolved user ↔
      id ∈ resolved ∨ id = user.id ∧ normalizedName rules user ≠ [] ∧
        nameCount rules users (normalizedName rules user) ≤ 1 ∧
        messageContainsMention rules body user.fullName := by
  simp only [addMentioned, List.contains_eq_mem, decide_eq_true_eq]
  split_ifs with hblank hcount hmention hmem
  · simp [hblank]
  · simp [hcount]
  · simp only [Bool.not_eq_true'] at hmention
    simp [hmention]
  · simp only [iff_self_or, and_imp]
    rintro rfl - - -
    exact hmem
  · simp only [Bool.not_eq_true, Bool.not_eq_false'] at hmention
    simp [hblank, not_lt.mp hcount, hmention]

theorem mem_foldl_addMentioned_iff {others : List User} {resolved : List ℕ} {id : ℕ} :
    id ∈ others.foldl (addMentioned rules body users) resolved ↔
      id ∈ resolved ∨ ∃ user ∈ others, id = user.id ∧ normalizedName rules user ≠ [] ∧
        nameCount rules users (normalizedName rules user) ≤ 1 ∧
        messageContainsMention rules body user.fullName := by
  induction others generalizing resolved with
  | nil => simp
  | cons other others ih =>
    rw [List.foldl_cons, ih, mem_addMentioned_iff, or_assoc, List.exists_mem_cons_iff]

theorem nameCount_le_one (hnames : (users.map (normalizedName rules)).Nodup)
    (normalized : JsString) : nameCount rules users normalized ≤ 1 := by
  unfold nameCount
  have hfiltered : (users.filter fun user =>
      normalizedName rules user = normalized ∧ normalized ≠ []).Pairwise
        fun a b => normalizedName rules a ≠ normalizedName rules b :=
    (List.pairwise_map.mp hnames).filter _
  match hlist : users.filter fun user =>
      normalizedName rules user = normalized ∧ normalized ≠ [] with
  | [] | [_] => simp
  | first :: second :: rest =>
    rw [hlist] at hfiltered
    have hname : ∀ user ∈ first :: second :: rest, normalizedName rules user = normalized := by
      intro user huser
      rw [← hlist, List.mem_filter, decide_eq_true_eq] at huser
      exact huser.2.1
    refine absurd ?_ (List.rel_of_pairwise_cons hfiltered (by simp : second ∈ second :: rest))
    rw [hname first (by simp), hname second (by simp)]

variable {index : ℕ}

theorem not_namedAt_of_blank (hbody : trim body = []) {name : JsString} :
    ¬ NamedAt rules body name index := by
  intro h
  have hat : body[index]? = some atSign := by
    have hnames := h.names
    simp only [namesAt, Bool.and_eq_true, beq_iff_eq] at hnames
    exact hnames.1.1
  have hspace : isWhitespace atSign := by
    have hblank := trim_eq_nil_iff.mp hbody
    rw [isBlank, List.all_eq_true] at hblank
    exact hblank atSign (List.mem_of_getElem? hat)
  exact absurd hspace (by decide)

theorem mem_resolveMentionedUserIds_iff (hids : (users.map (·.id)).Nodup)
    (hnames : (users.map (normalizedName rules)).Nodup) (huser : user ∈ users) :
    user.id ∈ resolveMentionedUserIds rules body users [] ↔
      ∃ index, NamedAt rules body user.fullName index := by
  unfold resolveMentionedUserIds
  split_ifs with hbody
  · simp [not_namedAt_of_blank hbody]
  · simp only [List.filter_nil, mem_foldl_addMentioned_iff, List.not_mem_nil, false_or]
    rw [← messageContainsMention_iff]
    constructor
    · rintro ⟨other, hother, hid, -, -, hmention⟩
      rwa [List.inj_on_of_nodup_map hids huser hother hid]
    · intro hmention
      refine ⟨user, huser, rfl, fun hblank => ?_, nameCount_le_one hnames _, hmention⟩
      obtain ⟨index, hindex⟩ := messageContainsMention_iff.mp hmention
      exact hindex.notBlank (rules.toLowerCase_eq_nil _ hblank)

/-! ## Highlighted names -/

def userPattern (rules : CaseRules) (name : JsString) : MentionPattern :=
  ⟨labelOf name, rules.toLowerCase (labelOf name), .user⟩

/-- The patterns of the users' names. -/
def userPatterns (rules : CaseRules) (users : List User) : List MentionPattern :=
  buildMentionPatterns rules (users.map (·.fullName)) false

/-- An at-sign with a boundary where a name stands and no longer one does. -/
structure ShownAt (rules : CaseRules) (users : List User) (body name : JsString) (index : ℕ) :
    Prop where
  notBlank : trim name ≠ []
  atSign_eq : body[index]? = some atSign
  boundary : isMentionStartBoundary body index
  stands : fits rules body index (userPattern rules name)
  longest : ∀ other ∈ users, trim other.fullName ≠ [] →
    fits rules body index (userPattern rules other.fullName) →
    (trim other.fullName).length ≤ (trim name).length

/-- No name covers a position that stands at an earlier at-sign which is not covered itself. -/
def Uncovered (rules : CaseRules) (users : List User) (body : JsString) (index : ℕ) : Prop :=
  ∀ earlier, earlier < index → Uncovered rules users body earlier → ∀ user ∈ users,
    ShownAt rules users body user.fullName earlier →
      earlier + (labelOf user.fullName).length ≤ index
termination_by index

section

variable (hnames : (users.map (normalizedName rules)).Nodup)

include hnames

theorem eq_of_toLowerCase_labelOf_eq {other : User} (huser : user ∈ users) (hother : other ∈ users)
    (h : rules.toLowerCase (labelOf other.fullName) = rules.toLowerCase (labelOf user.fullName)) :
    other = user := by
  rw [labelOf, labelOf, rules.toLowerCase_atSign, rules.toLowerCase_atSign, List.cons.injEq] at h
  exact List.inj_on_of_nodup_map hnames hother huser h.2

theorem exists_mem_userPatterns (huser : user ∈ users) (hblank : trim user.fullName ≠ []) :
    ∃ pattern ∈ userPatterns rules users, pattern.label = labelOf user.fullName ∧
      pattern.normalized = rules.toLowerCase (labelOf user.fullName) := by
  obtain ⟨pattern, hpattern, heq⟩ : ∃ pattern ∈ userPatterns rules users,
      pattern.normalized = rules.toLowerCase (labelOf user.fullName) :=
    exists_mem_buildMentionPatterns (List.mem_map_of_mem huser) hblank
  obtain ⟨hnormalized, ⟨hfalse, -⟩ | ⟨name, hname, -, hlabel⟩⟩ := mem_buildMentionPatterns hpattern
  · cases hfalse
  · obtain ⟨other, hother, rfl⟩ := List.mem_map.mp hname
    rw [hnormalized, hlabel] at heq
    rw [eq_of_toLowerCase_labelOf_eq hnames huser hother heq] at hlabel
    exact ⟨pattern, hpattern, hlabel, by rw [hnormalized, hlabel]⟩

/-- What the scanner takes at an at-sign is the longest name there. -/
theorem exists_shownAt_of_readMention {stop : ℕ} {mention : Mention}
    (hread : readMention rules (userPatterns rules users) body index = some (stop, mention)) :
    ∃ user ∈ users, ShownAt rules users body user.fullName index ∧
      stop = index + (labelOf user.fullName).length ∧
      rules.toLowerCase mention.text = rules.toLowerCase (labelOf user.fullName) := by
  obtain ⟨hat, hboundary, pattern, hfind, rfl, rfl⟩ := readMention_eq_some_iff.mp hread
  have hfits := List.find?_some hfind
  obtain ⟨hnormalized, ⟨hfalse, -⟩ | ⟨name, hname, hblank, hlabel⟩⟩ :=
    mem_buildMentionPatterns (List.mem_of_find?_eq_some hfind)
  · cases hfalse
  obtain ⟨user, huser, rfl⟩ := List.mem_map.mp hname
  have hstands : fits rules body index (userPattern rules user.fullName) := by
    simpa [fits, userPattern, hnormalized, hlabel] using hfits
  refine ⟨user, huser, ⟨hblank, hat, hboundary, hstands, fun rival hrival hrivalBlank hfit => ?_⟩,
    by rw [hlabel], ?_⟩
  · obtain ⟨longer, hlonger, hlongerLabel, hlongerNormalized⟩ :=
      exists_mem_userPatterns hnames hrival hrivalBlank
    have hlongerFits : fits rules body index longer := by
      simpa [fits, userPattern, hlongerLabel, hlongerNormalized] using hfit
    have hlength : longer.label.length ≤ pattern.label.length := by
      rcases rel_of_find?_eq_some (pairwise_buildMentionPatterns _ _) hfind hlonger hlongerFits with
        rfl | hle
      · exact le_rfl
      · exact hle
    rw [hlongerLabel, hlabel] at hlength
    simpa [labelOf] using hlength
  · simp only [fits, Bool.and_eq_true, beq_iff_eq] at hfits
    rw [hfits.1, hnormalized, hlabel]

theorem ShownAt.readMention_eq
    (huser : user ∈ users) (h : ShownAt rules users body user.fullName index) :
    ∃ mention, readMention rules (userPatterns rules users) body index =
        some (index + (labelOf user.fullName).length, mention) ∧
      rules.toLowerCase mention.text = rules.toLowerCase (labelOf user.fullName) := by
  obtain ⟨own, hown, hownLabel, hownNormalized⟩ := exists_mem_userPatterns hnames huser h.notBlank
  have hownFits : fits rules body index own := by
    simpa [fits, userPattern, hownLabel, hownNormalized] using h.stands
  obtain ⟨pattern, hfind⟩ : ∃ pattern,
      (userPatterns rules users).find? (fits rules body index) = some pattern :=
    Option.isSome_iff_exists.mp (List.find?_isSome.mpr ⟨own, hown, hownFits⟩)
  -- The pattern that is taken is as long as that of the name.
  have hlength : pattern.label.length = own.label.length := by
    refine le_antisymm ?_ ?_
    · obtain ⟨hnormalized, ⟨hfalse, -⟩ | ⟨rival, hrival, hblank, hlabel⟩⟩ :=
        mem_buildMentionPatterns (List.mem_of_find?_eq_some hfind)
      · cases hfalse
      obtain ⟨other, hother, rfl⟩ := List.mem_map.mp hrival
      have hle := h.longest other hother hblank (by
        simpa [fits, userPattern, hlabel, hnormalized] using List.find?_some hfind)
      rw [hlabel, hownLabel]
      simpa [labelOf] using hle
    · rcases rel_of_find?_eq_some (pairwise_buildMentionPatterns _ _) hfind hown hownFits with
        rfl | hle
      · exact le_rfl
      · exact hle
  refine ⟨_, readMention_eq_some_iff.mpr
    ⟨h.atSign_eq, h.boundary, pattern, hfind, by rw [hlength, hownLabel], rfl⟩, ?_⟩
  simp only [fits, Bool.and_eq_true, beq_iff_eq] at hownFits
  rw [← hownLabel, hownFits.1, hownNormalized, hownLabel]

end

theorem advances_userPatterns (rules : CaseRules) (users : List User) (body : JsString) :
    Advances (readMention rules (userPatterns rules users) body) :=
  advances_readMention fun _ hpattern => label_pos hpattern

/-- The scanner comes to the positions that are not covered. -/
theorem reached_iff_uncovered (hnames : (users.map (normalizedName rules)).Nodup) (index : ℕ) :
    Reached (readMention rules (userPatterns rules users) body) 0 index ↔
      Uncovered rules users body index := by
  induction index using Nat.strong_induction_on with
  | _ index ih =>
    rw [Scanned.reached_iff (advances_userPatterns rules users body) (Nat.zero_le index), Uncovered]
    refine forall₂_congr fun earlier hlt => ?_
    rw [ih earlier hlt]
    refine imp_congr_right fun _ => ⟨fun hcovers user huser hshown => ?_, fun hcovers => ?_⟩
    · obtain ⟨mention, hread, -⟩ := hshown.readMention_eq hnames huser
      exact hcovers _ _ hread
    · intro stop mention hread
      obtain ⟨user, huser, hshown, rfl, -⟩ := exists_shownAt_of_readMention hnames hread
      exact hcovers user huser hshown

theorem highlighted_iff_shownAt (hnames : (users.map (normalizedName rules)).Nodup)
    (huser : user ∈ users) {found : List (Span Mention)}
    (hfound : Scanned (readMention rules (userPatterns rules users) body) body.length 0 found) :
    (∃ span ∈ found,
      rules.toLowerCase span.value.text = rules.toLowerCase (labelOf user.fullName)) ↔
      ∃ index, ShownAt rules users body user.fullName index ∧
        Uncovered rules users body index := by
  constructor
  · rintro ⟨span, hspan, htext⟩
    obtain ⟨hreached, -, hread⟩ := (hfound.mem_iff (advances_userPatterns _ _ _)).mp hspan
    obtain ⟨other, hother, hshown, -, hlower⟩ := exists_shownAt_of_readMention hnames hread
    obtain rfl := eq_of_toLowerCase_labelOf_eq hnames huser hother (hlower.symm.trans htext)
    exact ⟨span.start, hshown, (reached_iff_uncovered hnames _).mp hreached⟩
  · rintro ⟨index, hshown, huncovered⟩
    obtain ⟨mention, hread, htext⟩ := hshown.readMention_eq hnames huser
    have hindex : index < body.length := (List.getElem?_eq_some_iff.mp hshown.atSign_eq).1
    exact ⟨⟨index, _, mention⟩, (hfound.mem_iff (advances_userPatterns _ _ _)).mpr
      ⟨(reached_iff_uncovered hnames index).mpr huncovered, hindex, hread⟩, htext⟩

/-! ## Letters -/

/-- Where a piece of the body is a name for the scanner it is the name for the pattern too, and an
at-sign has no other case. -/
structure CasesAgree (rules : CaseRules) (body : JsString) (users : List User) : Prop where
  same : ∀ user ∈ users, ∀ index,
    let piece := between body index (index + (trim user.fullName).length)
    rules.toLowerCase piece = rules.toLowerCase (trim user.fullName) →
      piece.map rules.canonicalize = (trim user.fullName).map rules.canonicalize
  atSign_eq : ∀ c, rules.canonicalize c = rules.canonicalize atSign → c = atSign

theorem not_isWordUnit_of_isStartMark {c : UInt16} (h : isStartMark c) : isWordUnit c = false := by
  have hmarks : ascii "([\x7b'\">" ++ [0x201c, 0x2018] =
      [40, 91, 123, 39, 34, 62, 0x201c, 0x2018] := by decide
  rw [isStartMark, hmarks] at h
  simp only [isWhitespace, isWordUnit, isDigit, List.contains_iff_mem, List.mem_cons,
    List.not_mem_nil, or_false, Bool.or_eq_true, Bool.and_eq_true, decide_eq_true_eq, beq_iff_eq,
    UInt16.le_iff_toNat_le, ← UInt16.toNat_inj, Bool.eq_false_iff, ne_eq,
    UInt16.reduceToNat] at h ⊢
  omega

theorem ShownAt.piece_eq (hcase : CasesAgree rules body users) (huser : user ∈ users)
    (h : ShownAt rules users body user.fullName index) :
    (between body (index + 1) (index + 1 + (trim user.fullName).length)).map rules.canonicalize =
      (trim user.fullName).map rules.canonicalize := by
  have hstands := h.stands
  simp only [fits, userPattern, labelOf, List.length_cons, Bool.and_eq_true, beq_iff_eq,
    between_cons h.atSign_eq, rules.toLowerCase_atSign, List.cons.injEq] at hstands
  exact hcase.same user huser _ hstands.1.2

theorem ShownAt.namedAt (hcase : CasesAgree rules body users) (huser : user ∈ users)
    (h : ShownAt rules users body user.fullName index) :
    NamedAt rules body user.fullName index := by
  refine ⟨h.notBlank, ?_, ?_⟩
  · have hboundary := h.boundary
    simp only [isMentionStartBoundary, Bool.or_eq_true, beq_iff_eq, Option.any_eq_true]
      at hboundary
    rcases Nat.eq_zero_or_pos index with hzero | hpos
    · exact .inl hzero
    · obtain ⟨c, hc, hmark⟩ := hboundary.resolve_left (by omega)
      exact .inr ⟨hpos, by simp [hc, not_isWordUnit_of_isStartMark hmark]⟩
  · have hend : isMentionEndBoundary body[index + 1 + (trim user.fullName).length]? := by
      have hstands := h.stands
      simp only [fits, userPattern, labelOf, List.length_cons, Bool.and_eq_true] at hstands
      rw [Nat.add_assoc, Nat.add_comm 1]
      exact hstands.2
    simp [namesAt, h.atSign_eq, h.piece_eq hcase huser, hend]

/-- Names without at-signs cover no at-sign behind their own. -/
theorem uncovered_of_atSign_not_mem (hcase : CasesAgree rules body users)
    (hplain : ∀ user ∈ users, atSign ∉ trim user.fullName) (hat : body[index]? = some atSign) :
    Uncovered rules users body index := by
  rw [Uncovered]
  intro earlier hlt _ user huser hshown
  by_contra hcovers
  have hpiece := hshown.piece_eq hcase huser
  have hinside : atSign ∈
      between body (earlier + 1) (earlier + 1 + (trim user.fullName).length) := by
    simp only [labelOf, List.length_cons] at hcovers
    refine List.mem_of_getElem? (i := index - (earlier + 1)) ?_
    rw [between, List.getElem?_take, if_pos (by omega), List.getElem?_drop,
      Nat.add_sub_of_le hlt, hat]
  have hmem := List.mem_map_of_mem (f := rules.canonicalize) hinside
  rw [hpiece] at hmem
  obtain ⟨c, hc, heq⟩ := List.mem_map.mp hmem
  exact hplain user huser (hcase.atSign_eq c heq ▸ hc)

/-! ## Both -/

namespace NotifiedExample

def ann : User := ⟨1, ascii "Ann"⟩

def annLee : User := ⟨2, ascii "Ann Lee"⟩

theorem casesAgree_ascii (body : JsString) (users : List User) :
    CasesAgree asciiRules body users := by
  refine ⟨fun _ _ _ hlower => hlower, fun c heq => ?_⟩
  change asciiLower c = 64 at heq
  unfold asciiLower at heq
  split at heq
  · -- A capital letter is lowered to 97 or more.
    rename_i hupper
    simp only [Bool.and_eq_true, decide_eq_true_eq, UInt16.le_iff_toNat_le,
      UInt16.reduceToNat] at hupper
    rw [← UInt16.toNat_inj, UInt16.toNat_add] at heq
    simp only [UInt16.reduceToNat] at heq
    omega
  · exact heq

end NotifiedExample

end LearningPlatform.Mentions.Web
