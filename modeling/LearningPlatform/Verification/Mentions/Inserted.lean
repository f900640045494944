import LearningPlatform.Shared.TextLines
import LearningPlatform.Verification.Mentions.Segments

/-! # Inserted mentions

The mobile app puts the name of the picked user in the place of what was typed, and notifies the
users whose names it then reads in the body. -/

namespace LearningPlatform.Mentions.Mobile

open Shared JsText

variable {rules : CaseRules} {users : List User} {names : List JsString} {text : List JsString}
  {user : User} {body : JsString} {cursor index : ℕ} {trigger : MentionTrigger}

/-! ## The trigger -/

theorem queryAt_eq_some {query : JsString} (h : queryAt body index = some query) :
    index < body.length ∧ query = body.drop (index + 1) := by
  simp only [queryAt] at h
  split_ifs at h with hat
  · exact ⟨(List.getElem?_eq_some_iff.mp hat.1).1, (Option.some.inj h).symm⟩

theorem triggerQuery_eq_some {query : JsString} (h : triggerQuery body = some query) :
    ∃ index, index < body.length ∧ query = body.drop (index + 1) ∧
      (index = 0 ∨ body[index - 1]?.any isWhitespace) := by
  obtain ⟨index, -, hindex⟩ := List.exists_of_findSome?_eq_some h
  rw [Option.orElse_eq_some] at hindex
  rcases hindex with hfirst | ⟨-, hlater⟩
  · split_ifs at hfirst with hzero
    exact ⟨index, (queryAt_eq_some hfirst).1, (queryAt_eq_some hfirst).2, .inl hzero⟩
  · split_ifs at hlater with hspace
    exact ⟨index + 1, (queryAt_eq_some hlater).1, (queryAt_eq_some hlater).2, .inr hspace⟩

theorem start_boundary (h : mentionTriggerAt body cursor = some trigger)
    (hcursor : cursor ≤ body.length) :
    trigger.start = 0 ∨ body[trigger.start - 1]?.any isWhitespace := by
  obtain ⟨query, hquery, htrigger⟩ := Option.bind_eq_some_iff.mp h
  obtain ⟨index, hindex, rfl, hboundary⟩ := triggerQuery_eq_some hquery
  split_ifs at htrigger
  cases htrigger
  have hlength : (body.take cursor).length = cursor := List.length_take_of_le hcursor
  have hstart : cursor - ((body.take cursor).drop (index + 1)).length - 1 = index := by
    rw [List.length_drop, hlength]
    omega
  rw [hstart]
  refine hboundary.imp_right fun hspace => ?_
  rwa [List.getElem?_take_of_lt (by omega)] at hspace

/-! ## The names that are read -/

/-- A name is read at an at-sign that the reader of the body comes to. -/
structure ReadsName (rules : CaseRules) (users : List User) (text : List JsString) (index : ℕ)
    (name : JsString) : Prop where
  opens : index = 0 ∨ 0 < index ∧ text[index - 1]?.any isOpening
  reached : Reached (readMention rules (sortedNames users) text) 0 (index - 1)
  reads : ∃ stop written, mentionAt rules (sortedNames users) text index = some (stop, written) ∧
    rules.toLowerCase written = rules.toLowerCase name

theorem mentionAt_eq_none_of_opening (h : text[index]?.any isOpening) :
    mentionAt rules names text index = none := by
  refine if_neg fun hat => ?_
  rw [hat] at h
  exact absurd h (by decide)

theorem readMention_eq_some_iff {found : ℕ × JsString} :
    readMention rules names text index = some found ↔
      index = 0 ∧ mentionAt rules names text 0 = some found ∨
        text[index]?.any isOpening ∧ mentionAt rules names text (index + 1) = some found := by
  rw [readMention, Option.orElse_eq_some]
  constructor
  · rintro (hfirst | ⟨-, hlater⟩)
    · split_ifs at hfirst with hzero
      exact .inl ⟨hzero, hzero ▸ hfirst⟩
    · split_ifs at hlater with hopening
      exact .inr ⟨hopening, hlater⟩
  · rintro (⟨rfl, hfirst⟩ | ⟨hopening, hlater⟩)
    · exact .inl (by rw [if_pos rfl, hfirst])
    · refine .inr ⟨?_, by rw [if_pos hopening, hlater]⟩
      rw [mentionAt_eq_none_of_opening hopening, ite_self]

theorem advances_readMention : Advances (readMention rules names text) := by
  intro index stop written h
  rcases readMention_eq_some_iff.mp h with ⟨rfl, hfirst⟩ | ⟨-, hlater⟩
  · exact advances_mentionAt _ _ _ hfirst
  · exact (Nat.lt_succ_self _).trans (advances_mentionAt _ _ _ hlater)

theorem mem_resolveMentionUserIds_iff (rules : CaseRules) (body : JsString)
    (hnames : sortedNames users ≠ []) :
    ∃ ids, resolveMentionUserIds rules body users = some ids ∧
      ∀ id, id ∈ ids ↔ ∃ other ∈ users, other.id = id ∧
        ∃ index, ReadsName rules users (characters body) index other.fullName := by
  have hadvances : Advances (readMention rules (sortedNames users) (characters body)) :=
    advances_readMention
  obtain ⟨spans, hspans, hscanned⟩ := scanAll_scanned hadvances (characters body).length
  refine ⟨(users.filter fun user => (spans.map fun span => rules.toLowerCase span.value).contains
    (rules.toLowerCase user.fullName)).map (·.id),
    by simp only [resolveMentionUserIds, if_neg hnames, hspans, Option.map_some], fun id => ?_⟩
  simp only [List.mem_map, List.mem_filter, List.contains_eq_mem, decide_eq_true_eq, and_assoc]
  refine exists_congr fun other => and_congr_right fun _ => ?_
  rw [and_comm]
  refine and_congr_right fun _ => ?_
  constructor
  · rintro ⟨span, hspan, hlower⟩
    obtain ⟨hreached, -, hread⟩ := (hscanned.mem_iff advances_readMention).mp hspan
    rcases readMention_eq_some_iff.mp hread with ⟨hzero, hfirst⟩ | ⟨hopening, hlater⟩
    · exact ⟨0, .inl rfl, .start, _, _, hfirst, hlower⟩
    · exact ⟨span.start + 1, .inr ⟨Nat.succ_pos _, hopening⟩, hreached, _, _, hlater, hlower⟩
  · rintro ⟨index, hopens, hreached, stop, written, hmention, hlower⟩
    have hread : readMention rules (sortedNames users) (characters body) (index - 1) =
        some (stop, written) := by
      rcases hopens with rfl | ⟨hpos, hopening⟩
      · exact readMention_eq_some_iff.mpr (.inl ⟨rfl, hmention⟩)
      · refine readMention_eq_some_iff.mpr (.inr ⟨hopening, ?_⟩)
        rwa [Nat.sub_add_cancel hpos]
    have hindex : index < (characters body).length :=
      (List.getElem?_eq_some_iff.mp (mentionAt_eq_some_iff.mp hmention).1).1
    have hspan : (⟨index - 1, stop, written⟩ : Span JsString) ∈ spans :=
      (hscanned.mem_iff advances_readMention).mpr ⟨hreached, by simp only; omega, hread⟩
    exact ⟨_, hspan, hlower⟩

/-! ## The inserted name -/

theorem length_flatten_eq {first second : List JsString}
    (h : first.map rules.fold = second.map rules.fold) :
    first.flatten.length = second.flatten.length := by
  have hlengths : ∀ characters : List JsString,
      characters.map List.length = (characters.map rules.fold).map List.length := by
    intro characters
    rw [List.map_map]
    exact List.map_congr_left fun character _ => (rules.length_fold character).symm
  rw [List.length_flatten, List.length_flatten, hlengths first, h, ← hlengths second]

theorem characters_insertMention (body : JsString) (trigger : MentionTrigger) (user : User) :
    characters (insertMention body trigger user) = characters (body.take trigger.start) ++
      [atSign] :: (characters user.fullName ++ [32] :: characters (body.drop trigger.stop)) := by
  rw [insertMention, List.append_assoc, List.cons_append, characters_append_cons (by decide),
    characters_cons_of_not_high (by decide), characters_append_cons (by decide),
    characters_cons_of_not_high (by decide)]

/-- The at-sign that is inserted. -/
def insertedAt (body : JsString) (trigger : MentionTrigger) : ℕ :=
  (characters (body.take trigger.start)).length

section Inserted

variable (rules body trigger)

theorem getElem?_insertedAt (user : User) :
    (characters (insertMention body trigger user))[insertedAt body trigger]? = some [atSign] := by
  rw [characters_insertMention, insertedAt, List.getElem?_append_right le_rfl, Nat.sub_self]
  rfl

theorem drop_insertedAt (user : User) :
    (characters (insertMention body trigger user)).drop (insertedAt body trigger + 1) =
      characters user.fullName ++ [32] :: characters (body.drop trigger.stop) := by
  rw [characters_insertMention, insertedAt, List.drop_append, List.drop_of_length_le (by omega)]
  simp

theorem standsAt_inserted (user : User) :
    standsAt rules (characters (insertMention body trigger user)) (insertedAt body trigger + 1)
      user.fullName := by
  have hdrop := drop_insertedAt body trigger user
  simp only [standsAt, Bool.and_eq_true, beq_iff_eq, Bool.not_eq_true', between, hdrop]
  constructor
  · simp
  · rw [← List.getElem?_drop, hdrop]
    simpa using rules.isNameCharacter_space

theorem written_isPrefix (user : User) (stop : ℕ) :
    (between (characters (insertMention body trigger user)) (insertedAt body trigger + 1)
      stop).flatten <+: user.fullName ++ 32 :: body.drop trigger.stop := by
  rw [between, drop_insertedAt]
  refine ⟨((characters user.fullName ++ [32] :: characters (body.drop trigger.stop)).drop
    (stop - (insertedAt body trigger + 1))).flatten, ?_⟩
  rw [← List.flatten_append, List.take_append_drop]
  simp [flatten_characters]

end Inserted

theorem length_written {start stop : ℕ} {name : JsString}
    (hstands : standsAt rules text start name) (hstop : stop = start + (characters name).length) :
    (between text start stop).flatten.length = name.length := by
  simp only [standsAt, Bool.and_eq_true, beq_iff_eq] at hstands
  rw [hstop, length_flatten_eq hstands.1, flatten_characters]

theorem length_le_of_find?_eq_some {start : ℕ} {first name : JsString}
    (hfind : (sortedNames users).find? (standsAt rules text start) = some first)
    (hname : name ∈ sortedNames users) (hstands : standsAt rules text start name) :
    name.length ≤ first.length := by
  rcases rel_of_find?_eq_some (pairwise_sortedNames users) hfind hname hstands with rfl | hle
  · exact le_rfl
  · exact hle

/-- What is read at the inserted at-sign is the inserted name if and only if it is not longer. -/
theorem toLowerCase_written_iff {first : JsString}
    (hstands : standsAt rules (characters (insertMention body trigger user))
      (insertedAt body trigger + 1) first)
    (hlength : user.fullName.length ≤ first.length) :
    rules.toLowerCase (between (characters (insertMention body trigger user))
        (insertedAt body trigger + 1)
        (insertedAt body trigger + 1 + (characters first).length)).flatten =
      rules.toLowerCase user.fullName ↔ first.length ≤ user.fullName.length := by
  have hwritten := written_isPrefix body trigger user
    (insertedAt body trigger + 1 + (characters first).length)
  have hlengthWritten := length_written hstands rfl
  constructor
  · intro hlower
    by_contra hlt
    -- A longer name goes on with the space behind the inserted one.
    obtain ⟨rest, hrest⟩ : user.fullName ++ [32] <+: _ :=
      List.prefix_of_prefix_length_le ⟨body.drop trigger.stop, by simp⟩ hwritten
        (by rw [List.length_append, hlengthWritten]; simp; omega)
    rw [← hrest, List.append_assoc] at hlower
    exact rules.toLowerCase_append_space _ _ hlower
  · intro hle
    refine congrArg rules.toLowerCase
      (List.IsPrefix.eq_of_length ?_ (by rw [hlengthWritten]; omega))
    exact List.prefix_of_prefix_length_le hwritten (List.prefix_append _ _)
      (by rw [hlengthWritten]; omega)

/-- The inserted name is read at its at-sign unless a longer one stands there. -/
theorem readsName_inserted_iff (huser : user ∈ users) (hname : user.fullName ≠ []) :
    let text := characters (insertMention body trigger user)
    let place := insertedAt body trigger
    ReadsName rules users text place user.fullName ↔
      (place = 0 ∨ 0 < place ∧ text[place - 1]?.any isOpening) ∧
        Reached (readMention rules (sortedNames users) text) 0 (place - 1) ∧
        ∀ other ∈ users, other.fullName ≠ [] →
          standsAt rules text (place + 1) other.fullName →
          other.fullName.length ≤ user.fullName.length := by
  intro text place
  have hat : text[place]? = some [atSign] := getElem?_insertedAt body trigger user
  have hstands := standsAt_inserted rules body trigger user
  have hmem : user.fullName ∈ sortedNames users := mem_sortedNames_iff.mpr ⟨hname, user, huser, rfl⟩
  obtain ⟨first, hfind⟩ : ∃ first,
      (sortedNames users).find? (standsAt rules text (place + 1)) = some first :=
    Option.isSome_iff_exists.mp (List.find?_isSome.mpr ⟨_, hmem, hstands⟩)
  have hread : mentionAt rules (sortedNames users) text place =
      some (place + 1 + (characters first).length,
        (between text (place + 1) (place + 1 + (characters first).length)).flatten) :=
    mentionAt_eq_some_iff.mpr ⟨hat, first, hfind, rfl, rfl⟩
  have hlower := toLowerCase_written_iff (List.find?_some hfind)
    (length_le_of_find?_eq_some hfind hmem hstands)
  constructor
  · rintro ⟨hopens, hreached, stop, written, hmention, hwritten⟩
    refine ⟨hopens, hreached, fun other hother hblank hother' => ?_⟩
    obtain ⟨rfl, rfl⟩ := Prod.mk.inj (Option.some.inj (hread.symm.trans hmention))
    have hlongest := length_le_of_find?_eq_some hfind
      (mem_sortedNames_iff.mpr ⟨hblank, other, hother, rfl⟩) hother'
    exact hlongest.trans (hlower.mp hwritten)
  · rintro ⟨hopens, hreached, hshorter⟩
    obtain ⟨hblank, other, hother, rfl⟩ := mem_sortedNames_iff.mp (List.mem_of_find?_eq_some hfind)
    exact ⟨hopens, hreached, _, _, hread,
      hlower.mpr (hshorter other hother hblank (List.find?_some hfind))⟩

theorem isLowSurrogate_of_isWhitespace {c : UInt16} (h : isWhitespace c) :
    isLowSurrogate c = false := by
  simp only [isWhitespace, Bool.or_eq_true, Bool.and_eq_true, decide_eq_true_eq, beq_iff_eq,
    UInt16.le_iff_toNat_le, ← UInt16.toNat_inj] at h
  simp only [isLowSurrogate, Bool.and_eq_false_iff, decide_eq_false_iff_not,
    UInt16.le_iff_toNat_le]
  simp only [UInt16.reduceToNat] at h ⊢
  omega

theorem opens_inserted (h : mentionTriggerAt body cursor = some trigger)
    (hcursor : cursor ≤ body.length) :
    insertedAt body trigger = 0 ∨ 0 < insertedAt body trigger ∧
      (characters (insertMention body trigger user))[insertedAt body trigger - 1]?.any
        isOpening := by
  rcases Nat.eq_zero_or_pos trigger.start with hzero | hpos
  · exact .inl (by simp [insertedAt, hzero, characters])
  · have hspace := (start_boundary h hcursor).resolve_left hpos.ne'
    cases hc : body[trigger.start - 1]? with
    | none => simp [hc] at hspace
    | some c =>
      rw [hc] at hspace
      have htake : body.take trigger.start = body.take (trigger.start - 1) ++ [c] := by
        rw [← Nat.sub_add_cancel hpos, List.take_add_one, Nat.add_sub_cancel, hc]
        rfl
      have hfront : characters (body.take trigger.start) =
          characters (body.take (trigger.start - 1)) ++ [[c]] := by
        rw [htake, characters_append_cons (isLowSurrogate_of_isWhitespace hspace)]
        rfl
      have hplace : insertedAt body trigger =
          (characters (body.take (trigger.start - 1))).length + 1 := by
        rw [insertedAt, hfront, List.length_append, List.length_singleton]
      refine .inr ⟨by omega, ?_⟩
      rw [hplace, Nat.add_sub_cancel, characters_insertMention, hfront, List.append_assoc,
        List.getElem?_append_right le_rfl, Nat.sub_self]
      have hopening : isOpening [c] := by
        simp only [isOpening, Bool.or_eq_true]
        exact .inl hspace
      exact hopening

/-- The picked user is notified if and only if the name is read at the inserted at-sign, which the
reader comes to and where no longer name stands, or at another place. At a cursor in the body, the
inserted at-sign opens a mention. -/
theorem picked_user_notified_iff (rules : CaseRules) (body : JsString) (cursor : ℕ)
    (trigger : MentionTrigger) (users : List User) (user : User)
    (htrigger : mentionTriggerAt body cursor = some trigger) (huser : user ∈ users)
    (hname : trim user.fullName ≠ []) :
    let text := characters (insertMention body trigger user)
    let place := insertedAt body trigger
    let Opens := place = 0 ∨ 0 < place ∧ text[place - 1]?.any isOpening
    ∃ ids, resolveMentionUserIds rules (insertMention body trigger user) users = some ids ∧
      (cursor ≤ body.length → Opens) ∧
      (user.id ∈ ids ↔
        (Opens ∧ Reached (readMention rules (sortedNames users) text) 0 (place - 1) ∧
          ∀ other ∈ users, other.fullName ≠ [] →
            standsAt rules text (place + 1) other.fullName →
            other.fullName.length ≤ user.fullName.length) ∨
        ∃ other ∈ users, other.id = user.id ∧ ∃ index,
          ReadsName rules users text index other.fullName ∧ (index = place → other ≠ user)) := by
  intro text place Opens
  have hfull : user.fullName ≠ [] := by
    intro hempty
    exact hname (by rw [hempty]; rfl)
  have hnames : sortedNames users ≠ [] :=
    List.ne_nil_of_mem (mem_sortedNames_iff.mpr ⟨hfull, user, huser, rfl⟩)
  obtain ⟨ids, hids, hmem⟩ := mem_resolveMentionUserIds_iff rules
    (insertMention body trigger user) hnames
  refine ⟨ids, hids, opens_inserted htrigger, ?_⟩
  refine (hmem user.id).trans (Iff.trans ?_ (or_congr_left (readsName_inserted_iff huser hfull)))
  constructor
  · rintro ⟨other, hother, hid, index, hreads⟩
    by_cases hplace : index = place ∧ other = user
    · obtain ⟨rfl, rfl⟩ := hplace
      exact .inl hreads
    · exact .inr ⟨other, hother, hid, index, hreads, fun hindex heq => hplace ⟨hindex, heq⟩⟩
  · rintro (hreads | ⟨other, hother, hid, index, hreads, -⟩)
    · exact ⟨user, huser, rfl, place, hreads⟩
    · exact ⟨other, hother, hid, index, hreads⟩

namespace InsertedExample

def ann : User := ⟨1, ascii "Ann"⟩

def annLee : User := ⟨2, ascii "Ann Lee"⟩

/-- Ann is picked in front of a name that goes on with what follows. -/
theorem picked_ann_not_notified :
    mentionTriggerAt (ascii "@Lee is here") 1 = some ⟨0, 1, []⟩ ∧
      insertMention (ascii "@Lee is here") ⟨0, 1, []⟩ ann = ascii "@Ann Lee is here" ∧
      resolveMentionUserIds asciiRules (ascii "@Ann Lee is here") [ann, annLee] = some [2] := by
  decide +kernel

/-- Ann is picked at the end of the body. -/
theorem picked_ann_notified :
    ∃ ids, resolveMentionUserIds asciiRules
        (insertMention (ascii "Hi @a") ⟨3, 5, ascii "a"⟩ ann) [ann, annLee] = some ids ∧
      1 ∈ ids := by
  obtain ⟨ids, hids, -, hiff⟩ := picked_user_notified_iff asciiRules (ascii "Hi @a") 5
    ⟨3, 5, ascii "a"⟩ [ann, annLee] ann (by decide +kernel) (by simp) (by decide)
  refine ⟨ids, hids, hiff.mpr (.inl ⟨by decide +kernel, ?_, by decide +kernel⟩)⟩
  exact .skip (.skip .start (by decide +kernel)) (by decide +kernel)

end InsertedExample

end LearningPlatform.Mentions.Mobile
