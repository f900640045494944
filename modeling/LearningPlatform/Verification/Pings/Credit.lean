import LearningPlatform.Verification.Pings.Steps
import Mathlib.Algebra.Order.BigOperators.Group.Finset
import Mathlib.Order.Bounds.Basic

/-! # Credit of concurrent pings

The pings of one user for one video or recording. A save writes what was computed from the row of
the lookup, so that no credit is lost if nobody else saves in between. The lock of an enrollment
sees to it; without an enrollment it is a condition on the lookups. -/

namespace LearningPlatform

open Shared

/-! ## Totals -/

section Totals

variable {ι ρ : Type*} {service : PingService ι ρ} {s : PingState ι ρ} {i : ι}
  {evaluation : Evaluation}

/-- The reported total, capped to the duration that the ping knows. -/
def PingService.credit (service : PingService ι ρ) (i : ι) (evaluation : Evaluation) : ℤ :=
  capped (service.clients i).ping.totalWatchedSeconds
    (service.kind.known evaluation.seconds? (service.clients i).ping)

/-- The stored total of a user; a new row starts at zero. -/
def PingState.total (s : PingState ι ρ) (kind : PingKind ρ) (userId : ℕ) : ℤ :=
  ((s.rows userId).map kind.total).getD 0

theorem PingService.total_upsert (service : PingService ι ρ) (i : ι) (evaluation : Evaluation)
    (now : Time) (loaded : Option ρ) :
    service.kind.total (service.upsert i evaluation now loaded) =
      max (service.credit i evaluation) ((loaded.map service.kind.total).getD 0) := by
  rw [max_comm]
  cases loaded with
  | none =>
    simp only [PingService.upsert, service.kind.total_record, Option.getD_none,
      service.kind.total_fresh, Option.map_none]
    rfl
  | some row => exact service.kind.total_record _ _ _ row

theorem PingService.fits_upsert (hping : (service.clients i).ping.WellFormed) (loaded : Option ρ)
    (h : ∀ row, loaded = some row → service.kind.fits row = true) (now : Time) :
    service.kind.fits (service.upsert i evaluation now loaded) = true := by
  refine service.kind.fits_record _ _ now _ hping ?_
  cases loaded with
  | none => exact service.kind.fits_fresh _
  | some row => exact h row rfl

/-- A write that was computed from the stored row saves the record as it is in memory. -/
theorem PingService.applyWrite_writeOf (s : PingState ι ρ) (i : ι) (evaluation : Evaluation)
    (now : Time) : (s.applyWrite service.kind (service.userOf i)
      (service.writeOf i evaluation now (s.rows (service.userOf i)))).rows (service.userOf i) =
      some (service.upsert i evaluation now (s.rows (service.userOf i))) := by
  simp only [PingState.applyWrite, Function.update_self]
  cases s.rows (service.userOf i) with
  | none => rfl
  | some row => exact congrArg some (service.kind.update_record ..)

end Totals

/-! ## Phases -/

namespace PingPhase

variable {ρ : Type*} {phase : PingPhase ρ}

/-- The ping is between its lookup and the commit of its save. -/
def writing? : PingPhase ρ → Bool
  | .found _ _ _ | .validated _ _ | .closing _ _ => true
  | _ => false

/-- The next statement looks up the row. -/
def resolved? : PingPhase ρ → Bool
  | .resolved _ => true
  | _ => false

def succeeded? : PingPhase ρ → Option Evaluation
  | .finished (.success evaluation) => some evaluation
  | _ => none

/-- The ping has not failed. -/
def sound? : PingPhase ρ → Bool
  | .collided _ | .closing _ none => false
  | .finished response => (finished (ρ := ρ) response).succeeded?.isSome
  | _ => true

theorem inGuard?_of_writing? (h : phase.writing? = true) : phase.inGuard? = true := by
  cases phase with
  | found _ _ _ | validated _ _ | closing _ _ => rfl
  | _ => cases h

theorem writing?_of_write? {write : Evaluation × RowWrite ρ} (h : phase.write? = some write) :
    phase.writing? = true := by
  cases phase with
  | found _ _ _ | validated _ _ | closing _ _ => rfl
  | _ => cases h

end PingPhase

/-! ## The invariant -/

section Credit

variable {ι ρ : Type*} {service : PingService ι ρ} {userId : ℕ} {start : ℤ} {s t : PingState ι ρ}
  {i : ι}

/-- The ping holds the lock of its enrollment, or is writing without one. -/
def PingService.Holds (service : PingService ι ρ) (i : ι) (phase : PingPhase ρ) : Prop :=
  phase.writing? = true ∨ (service.guardOf i).isSome = true ∧ phase.inGuard? = true

theorem PingService.Holds.inGuard? {phase : PingPhase ρ} (h : service.Holds i phase) :
    phase.inGuard? = true :=
  h.elim PingPhase.inGuard?_of_writing? And.right

/-- The totals that count: the first one and the credit of every ping that has succeeded. -/
def PingState.credits (s : PingState ι ρ) (service : PingService ι ρ) (start : ℤ) : Set ℤ :=
  { credit | credit = start ∨ ∃ i evaluation, (s.phase i).succeeded? = some evaluation ∧
      credit = service.credit i evaluation }

theorem PingState.credits_finish [DecidableEq ι] {evaluation : Evaluation}
    (hold : (s.phase i).succeeded? = none)
    (hphase : t.phase = (s.setPhase i (.finished (.success evaluation))).phase) :
    t.credits service start =
      insert (service.credit i evaluation) (s.credits service start) := by
  ext credit
  simp only [PingState.credits, hphase, Set.mem_insert_iff, Set.mem_ofPred_eq]
  constructor
  · rintro (rfl | ⟨j, other, hj, rfl⟩)
    · exact .inr (.inl rfl)
    · by_cases hji : j = i
      · subst hji
        rw [PingState.setPhase_self] at hj
        obtain rfl : evaluation = other := Option.some.inj hj
        exact .inl rfl
      · rw [PingState.setPhase_of_ne hji] at hj
        exact .inr (.inr ⟨j, other, hj, rfl⟩)
  · rintro (rfl | rfl | ⟨j, other, hj, rfl⟩)
    · exact .inr ⟨i, evaluation, by rw [PingState.setPhase_self]; rfl, rfl⟩
    · exact .inl rfl
    · have hji : j ≠ i := by
        rintro rfl
        cases hold ▸ hj
      exact .inr ⟨j, other, by rwa [PingState.setPhase_of_ne hji], rfl⟩

/-- At most one ping writes, its record is computed from the stored row, nobody has failed, and the
stored total is the greatest of those that count. -/
structure Credited (service : PingService ι ρ) (userId : ℕ) (start : ℤ) (s : PingState ι ρ) :
    Prop where
  alone : ∀ i j, service.Holds i (s.phase i) → service.Holds j (s.phase j) → i = j
  current : ∀ i evaluation write, (s.phase i).write? = some (evaluation, write) →
    ∃ now, write = service.writeOf i evaluation now (s.rows userId)
  sound : ∀ i, (s.phase i).sound? = true
  fits : ∀ row, s.rows userId = some row → service.kind.fits row = true
  greatest : IsGreatest (s.credits service start) (s.total service.kind userId)

namespace Credited

theorem start_waiting (hwaiting : ∀ i, s.phase i = .waiting)
    (hfits : ∀ row, s.rows userId = some row → service.kind.fits row = true) :
    Credited service userId (s.total service.kind userId) s := by
  refine ⟨fun i j hi => ?_, fun i evaluation write hi => ?_, fun i => ?_, hfits, .inl rfl, ?_⟩
  · rw [hwaiting i] at hi
    cases hi.inGuard?
  · cases (hwaiting i) ▸ hi
  · rw [hwaiting i]
    rfl
  · rintro credit (rfl | ⟨i, evaluation, hi, -⟩)
    · exact le_rfl
    · cases (hwaiting i) ▸ hi

theorem of_eq (h : Credited service userId start s) (hrows : t.rows = s.rows)
    (hphase : t.phase = s.phase) : Credited service userId start t := by
  refine ⟨?_, ?_, ?_, ?_, ?_⟩
  · simpa only [hphase] using h.alone
  · simpa only [hphase, hrows] using h.current
  · simpa only [hphase] using h.sound
  · simpa only [hrows] using h.fits
  · simpa only [PingState.credits, PingState.total, hphase, hrows] using h.greatest

variable [DecidableEq ι] {phase : PingPhase ρ}

/-- One ping comes to hold the lock or the row: it did so before, or nobody did. -/
theorem alone_setPhase (h : Credited service userId start s) (hholds : service.Holds i phase →
      service.Holds i (s.phase i) ∨ ∀ j, ¬ service.Holds j (s.phase j)) :
    ∀ j k, service.Holds j ((s.setPhase i phase).phase j) →
      service.Holds k ((s.setPhase i phase).phase k) → j = k := by
  refine unique_update (P := service.Holds) (fun j k _ _ => h.alone j k) fun hnew j hji hj => ?_
  rcases hholds hnew with hold | hnobody
  · exact hji (h.alone j i hj hold)
  · exact hnobody j hj

theorem setPhase (h : Credited service userId start s) (hold : (s.phase i).succeeded? = none)
    (hphase : phase.succeeded? = none) (hsound : phase.sound? = true)
    (hholds : service.Holds i phase →
      service.Holds i (s.phase i) ∨ ∀ j, ¬ service.Holds j (s.phase j))
    (hcurrent : ∀ evaluation write, phase.write? = some (evaluation, write) →
      ∃ now, write = service.writeOf i evaluation now (s.rows userId)) :
    Credited service userId start (s.setPhase i phase) := by
  have hsucceeded (j : ι) :
      ((s.setPhase i phase).phase j).succeeded? = (s.phase j).succeeded? :=
    PingState.forall_setPhase (P := fun j phase => phase.succeeded? = (s.phase j).succeeded?)
      (fun _ _ => rfl) (hphase.trans hold.symm) j
  refine ⟨h.alone_setPhase hholds, ?_, ?_, h.fits, ?_⟩
  · exact PingState.forall_setPhase (P := fun j phase => ∀ evaluation write,
      phase.write? = some (evaluation, write) →
        ∃ now, write = service.writeOf j evaluation now (s.rows userId))
      (fun j _ => h.current j) hcurrent
  · exact PingState.forall_setPhase (P := fun _ phase => phase.sound? = true)
      (fun j _ => h.sound j) hsound
  · have hcredits : (s.setPhase i phase).credits service start = s.credits service start := by
      simp only [PingState.credits, hsucceeded]
    rw [hcredits]
    exact h.greatest

variable {evaluation : Evaluation}

section

variable (h : Credited service userId start s)

include h

theorem finish (huser : service.userOf i = userId)
    (hping : (service.clients i).ping.WellFormed) {write : RowWrite ρ}
    (hwrite : (s.phase i).write? = some (evaluation, write))
    (hrows : t.rows = (s.applyWrite service.kind (service.userOf i) write).rows)
    (hphase : t.phase = (s.setPhase i (.finished (.success evaluation))).phase) :
    Credited service userId start t := by
  subst huser
  have hholds : service.Holds i (s.phase i) := .inl (PingPhase.writing?_of_write? hwrite)
  have hold : (s.phase i).succeeded? = none := by
    cases hbefore : s.phase i with
    | finished _ =>
      cases hbefore ▸ hwrite
    | _ => rfl
  obtain ⟨now, rfl⟩ := h.current i evaluation write hwrite
  have hrow := service.applyWrite_writeOf s i evaluation now
  rw [← hrows] at hrow
  refine ⟨?_, ?_, ?_, fun row hstored => ?_, ?_⟩
  · rw [hphase]
    exact h.alone_setPhase fun _ => .inl hholds
  · intro j other write hj
    by_cases hji : j = i
    · subst hji
      rw [hphase, PingState.setPhase_self] at hj
      cases hj
    · rw [hphase, PingState.setPhase_of_ne hji] at hj
      exact absurd (h.alone j i (.inl (PingPhase.writing?_of_write? hj)) hholds) hji
  · rw [hphase]
    exact PingState.forall_setPhase (P := fun _ phase => phase.sound? = true)
      (fun j _ => h.sound j) rfl
  · obtain rfl := Option.some.inj (hrow.symm.trans hstored)
    exact PingService.fits_upsert hping _ h.fits now
  · have htotal : t.total service.kind (service.userOf i) =
        max (service.credit i evaluation) (s.total service.kind (service.userOf i)) := by
      simp only [PingState.total, hrow, Option.map_some, Option.getD_some, service.total_upsert]
    rw [htotal, PingState.credits_finish hold hphase]
    exact h.greatest.insert _

theorem save (huser : service.userOf i = userId)
    (hping : (service.clients i).ping.WellFormed) {write : RowWrite ρ} {old : PingPhase ρ}
    (hold : s.phase i = old) (hsucceeded : old.succeeded? = none)
    (hwrite : old.write? = some (evaluation, write)) :
    Credited service userId start (service.save s i evaluation write) := by
  subst hold
  unfold PingService.save
  split
  · refine h.setPhase hsucceeded rfl rfl
      (fun _ => .inl (.inl (PingPhase.writing?_of_write? hwrite))) fun other write' hother => ?_
    cases hother
    exact h.current i evaluation write hwrite
  · exact h.finish huser hping hwrite rfl rfl

theorem setPhase_of_inGuard {old : PingPhase ρ}
    (hold : s.phase i = old) (hsucceeded : old.succeeded? = none) (hguard : old.inGuard? = true)
    (hphase : phase.succeeded? = none) (hsound : phase.sound? = true)
    (hwriting : phase.writing? = false) (hwrite : phase.write? = none) :
    Credited service userId start (s.setPhase i phase) := by
  subst hold
  refine h.setPhase hsucceeded hphase hsound (fun hholds => .inl ?_) ?_
  · rcases hholds with hwriting' | ⟨hsome, -⟩
    · rw [hwriting] at hwriting'
      cases hwriting'
    · exact .inr ⟨hsome, hguard⟩
  · intro evaluation write hsome
    cases hwrite ▸ hsome

theorem enter (huser : ∀ i, service.userOf i = userId)
    {copy : TrackedVideo} (hphase : s.phase i = .loaded copy) (henters : service.Enters s i) :
    Credited service userId start (s.setPhase i (.entered copy)) := by
  refine h.setPhase (by rw [hphase]; rfl) rfl rfl (fun hholds => ?_)
    fun _ _ hwrite => nomatch hwrite
  cases henters with
  | unguarded hguard =>
    rcases hholds with hwriting | ⟨hsome, -⟩
    · cases hwriting
    · cases hguard ▸ hsome
  | @locked enrollment hguard hfree =>
    refine .inr fun j hj => hfree j hj.inGuard? ?_
    rw [PingService.guardOf, huser j, ← huser i]
    exact congrArg (Option.map (·.id)) hguard

theorem find (huser : ∀ i, service.userOf i = userId) (hphase : s.phase i = .resolved evaluation)
    (hlookup : service.guardOf i = none → ∀ j, (s.phase j).writing? = false) :
    Credited service userId start (service.find s i evaluation) := by
  refine h.setPhase (by rw [hphase]; rfl) rfl rfl (fun _ => ?_) fun other write hwrite => ?_
  · cases hguard : service.guardOf i with
    | some enrollment =>
      exact .inl (.inr ⟨by rw [hguard]; rfl, by rw [hphase]; rfl⟩)
    | none =>
      refine .inr fun j hj => ?_
      rcases hj with hwriting | ⟨hsome, -⟩
      · cases (hlookup hguard j) ▸ hwriting
      · rw [PingService.guardOf, huser j, ← huser i] at hsome
        rw [PingService.guardOf] at hguard
        cases hguard ▸ hsome
  · have hfound := service.find_phase s i evaluation
    rw [PingService.find, PingState.setPhase_self, hwrite] at hfound
    cases hfound
    exact ⟨s.clock, by rw [huser i]⟩

end

omit [DecidableEq ι] in
theorem of_found (h : Credited service userId start s) {loaded : Option ρ} {changed : ρ}
    (hphase : s.phase i = .found evaluation loaded changed) :
    ∃ now, s.rows userId = loaded ∧ changed = service.upsert i evaluation now loaded := by
  have hcurrent := h.current i evaluation
  rw [hphase] at hcurrent
  cases loaded with
  | none =>
    obtain ⟨now, hwrite⟩ := hcurrent _ rfl
    cases hrow : s.rows userId <;> rw [hrow] at hwrite <;> cases hwrite
    exact ⟨now, rfl, rfl⟩
  | some loaded =>
    obtain ⟨now, hwrite⟩ := hcurrent _ rfl
    cases hrow : s.rows userId <;> rw [hrow] at hwrite <;> cases hwrite
    exact ⟨now, rfl, rfl⟩

omit [DecidableEq ι] in
theorem of_validated (h : Credited service userId start s) {changed : ρ}
    (hphase : s.phase i = .validated evaluation changed) :
    ∃ now, s.rows userId = none ∧ changed = service.upsert i evaluation now none := by
  obtain ⟨now, hwrite⟩ := h.current i evaluation (.insert changed) (by rw [hphase]; rfl)
  cases hrow : s.rows userId <;> rw [hrow] at hwrite <;> cases hwrite
  exact ⟨now, rfl, rfl⟩

section Succeeds

variable (h : Credited service userId start s) (huser : ∀ i, service.userOf i = userId)
  (hping : ∀ i, (service.clients i).ping.WellFormed)
  (hfresh : ∀ i enrollment, service.guardOf i = some enrollment →
    enrollment.learningWriteGuard (service.clients i).startedAt = .ok ())

include h huser hping hfresh

omit [DecidableEq ι] in
/-- The record in memory fits, and a new one meets no row. -/
theorem not_fails {response : PingResponse} : ¬ service.Fails s i response := by
  intro hfails
  cases hfails with
  | stale _ hguard hfailure =>
    cases (hfresh i _ hguard) ▸ hfailure
  | report _ hrange =>
    rw [(hping i).2.2.2] at hrange
    cases hrange
  | update hphase hfits =>
    obtain ⟨now, hrow, rfl⟩ := h.of_found hphase
    rw [PingService.fits_upsert (hping i) _ (hrow ▸ h.fits)] at hfits
    cases hfits
  | insert hphase hfailed =>
    obtain ⟨now, hrow, rfl⟩ := h.of_validated hphase
    rcases hfailed with hfits | htaken
    · rw [PingService.fits_upsert (hping i) none nofun] at hfits
      cases hfits
    · rw [huser i, hrow] at htaken
      cases htaken
  | missing hphase _ =>
    have hsound := h.sound i
    cases hphase ▸ hsound

theorem step (hlookup : (s.phase i).resolved? = true → service.guardOf i = none →
      ∀ j, (s.phase j).writing? = false)
    (htakes : PingTakes service s i t) : Credited service userId start t := by
  have hsound := h.sound i
  cases htakes with
  | load hphase =>
    exact h.setPhase (by rw [hphase]; rfl) rfl rfl (fun hholds => nomatch hholds.inGuard?)
      fun _ _ hwrite => nomatch hwrite
  | fail hfails => exact absurd hfails (h.not_fails huser hping hfresh)
  | enter hphase henters => exact h.enter huser hphase henters
  | lose hphase | keep hphase | reload hphase =>
    exact h.setPhase_of_inGuard hphase rfl rfl rfl rfl rfl rfl
  | win hphase _ _ _ _ =>
    refine Credited.of_eq (s := s.setPhase i (.resolved _)) ?_ PingService.win_rows
      PingService.win_phase
    exact h.setPhase_of_inGuard hphase rfl rfl rfl rfl rfl rfl
  | find hphase => exact h.find huser hphase (hlookup (by rw [hphase]; rfl))
  | reject hphase hfailed =>
    obtain ⟨now, hrow, rfl⟩ := h.of_found hphase
    rcases hfailed with hinvalid | ⟨rfl, htaken⟩
    · cases (service.kind.valid_record _ _ now _ (hping i).1).symm.trans hinvalid
    · rw [huser i, hrow] at htaken
      cases htaken
  | update hphase | insert hphase _ => exact h.save (huser i) (hping i) hphase rfl rfl
  | @validate evaluation changed hphase =>
    refine h.setPhase (by rw [hphase]; rfl) rfl rfl (fun _ => .inl (.inl (by rw [hphase]; rfl)))
      fun other write hwrite => h.current i other write ?_
    rw [hphase]
    exact hwrite
  | @collide evaluation changed hphase htaken _ =>
    exact absurd (.insert hphase (.inr htaken)) (h.not_fails huser hping hfresh)
  | retry hphase _ =>
    cases hphase ▸ hsound
  | @commit evaluation write hphase =>
    cases write with
    | none =>
      cases hphase ▸ hsound
    | some write => exact h.finish (huser i) (hping i) (by rw [hphase]; rfl) rfl rfl

end Succeeds

end Credited

/-! ## Progress -/

/-- The number of statements that a ping has left at most. -/
def PingPhase.rank : PingPhase ρ → ℕ
  | .waiting => 10
  | .loaded _ => 9
  | .entered _ => 8
  | .lost => 7
  | .resolved _ => 6
  | .found _ none _ => 5
  | .validated _ _ => 4
  | .collided _ => 3
  | .found _ (some _) _ => 2
  | .closing _ _ => 1
  | .finished _ => 0

section Rank

variable [DecidableEq ι]

theorem PingTakes.rank_lt (htakes : PingTakes service s i t) :
    (t.phase i).rank < (s.phase i).rank := by
  have hguarded {P : Prop} [Decidable P] {closing : PingPhase ρ} {response : PingResponse}
      (hclosing : closing.rank = 1) {n : ℕ} (hn : 1 < n) :
      (if P then closing else .finished response).rank < n := by
    split
    · rwa [hclosing]
    · exact hn.trans' Nat.zero_lt_one
  cases htakes with
  | load hphase | enter hphase _ | lose hphase | keep hphase | reload hphase | validate hphase
  | collide hphase _ _ =>
    rw [hphase, PingState.setPhase_self]
    simp [PingPhase.rank]
  | fail hfails =>
    rw [PingState.setPhase_self]
    obtain ⟨hended, -⟩ := (PingTakes.fail hfails).phase_eq
    cases hphase : s.phase i with
    | finished _ =>
      cases hphase ▸ hended
    | found _ loaded _ => cases loaded <;> exact Nat.succ_pos _
    | _ => exact Nat.succ_pos _
  | win hphase _ _ _ _ =>
    rw [hphase, PingService.win_phase, PingState.setPhase_self]
    simp [PingPhase.rank]
  | find hphase =>
    rw [hphase, PingService.find, PingState.setPhase_self]
    cases s.rows (service.userOf i) with
    | none | some _ => simp [PingPhase.rank]
  | @reject _ loaded _ hphase _ =>
    rw [hphase, PingService.reject_eq, PingState.setPhase_self]
    refine hguarded rfl ?_
    cases loaded with
    | none | some _ => simp [PingPhase.rank]
  | update hphase | insert hphase _ =>
    rw [hphase, PingService.save_phase, PingState.setPhase_self]
    exact hguarded rfl (by simp [PingPhase.rank])
  | retry hphase hrow =>
    obtain ⟨row, hrow⟩ := Option.isSome_iff_exists.mp hrow
    rw [hphase, PingService.find, PingState.setPhase_self, hrow]
    exact Nat.lt_succ_self _
  | commit hphase =>
    rw [hphase, PingService.commit_phase, PingState.setPhase_self]
    exact Nat.lt_succ_self _

theorem PingTakes.sum_rank_lt [Fintype ι] (htakes : PingTakes service s i t) :
    ∑ j, (t.phase j).rank < ∑ j, (s.phase j).rank := by
  obtain ⟨-, phase, hphase⟩ := htakes.phase_eq
  refine Finset.sum_lt_sum (fun j _ => ?_) ⟨i, Finset.mem_univ i, htakes.rank_lt⟩
  by_cases hji : j = i
  · subst hji
    exact htakes.rank_lt.le
  · rw [hphase, PingState.setPhase_of_ne hji]

end Rank

variable [Fintype ι] [DecidableEq ι]

def PingAction.ping? : PingAction ι → Bool
  | .ping _ => true
  | _ => false

/-- The statements of a run and those that are left add up to what was left before. -/
theorem PingService.countP_add_rank_le (hreplacement : service.replacement = none)
    {Condition : PingState ι ρ → PingAction ι → Prop} {actions : List (PingAction ι)}
    (hrun : Run (Meeting Condition (Fires service.step)) s actions t) :
    actions.countP (·.ping?) + ∑ i, (t.phase i).rank ≤ ∑ i, (s.phase i).rank := by
  induction hrun with
  | nil => simp
  | @cons s action u actions t hstep _ ih =>
    rcases PingService.cases_of_step hreplacement hstep.2 with ⟨rfl, rfl⟩ | ⟨i, rfl, hping⟩
    · rwa [List.countP_cons_of_neg (by simp [PingAction.ping?])]
    · have hlt := (PingService.takes_of_pingStep hping).sum_rank_lt
      rw [List.countP_cons_of_pos rfl]
      omega

/-- A ping without a guard looks up its row only while no other ping is between its lookup and its
save. -/
def PingService.LooksUpAlone (service : PingService ι ρ) (s : PingState ι ρ) : PingAction ι → Prop
  | .ping i => (s.phase i).resolved? = true → service.guardOf i = none →
      ∀ j, (s.phase j).writing? = false
  | .tick | .admin => True

instance (service : PingService ι ρ) (s : PingState ι ρ) :
    ∀ action, Decidable (service.LooksUpAlone s action)
  | .ping _ => inferInstanceAs (Decidable (_ = true → _ = none → ∀ _, _ = false))
  | .tick | .admin => .isTrue trivial

theorem PingService.enter_eq_none {next : PingState ι ρ} (h : service.enter s i next = none) :
    ∃ j, (s.phase j).inGuard? = true := by
  unfold PingService.enter at h
  split at h
  · cases h
  · rename_i enrollment _
    by_contra hnobody
    have hfree : service.LockFree s enrollment := fun j hj => absurd ⟨j, hj⟩ hnobody
    rw [if_pos hfree] at h
    split at h <;> cases h

/-- Without a staff update a ping waits for the lock, or to store a duration. -/
theorem PingService.waits (hidle : s.admin = .idle) (hopen : (s.phase i).ended? = false)
    (h : service.pingStep s i = none) :
    (s.phase i).inGuard? = false ∧ (∃ j, (s.phase j).inGuard? = true) ∨
      (∃ copy, s.phase i = .entered copy) ∧ ∃ j, (s.phase j).holdsDuration? = true := by
  unfold PingService.pingStep at h
  cases hphase : s.phase i with
  | waiting | lost | resolved _ | closing _ _ =>
    cases hphase ▸ h
  | loaded copy =>
    rw [hphase] at h
    exact .inl ⟨rfl, PingService.enter_eq_none h⟩
  | entered copy =>
    refine .inr ⟨⟨copy, rfl⟩, ?_⟩
    by_contra hnone
    have hfree : service.BlockFree s :=
      ⟨fun j _ => by simpa using fun hj => hnone ⟨j, hj⟩, by simp [hidle]⟩
    simp only [hphase, PingService.resolve, if_pos hfree] at h
    split at h
    · split at h
      · cases h
      · split at h <;> cases h
    · cases h
  | found evaluation loaded changed =>
    have hopen : s.resetOpen (service.userOf i) = false := by simp [PingState.resetOpen, hidle]
    simp only [hphase, hopen, Bool.false_eq_true, if_false] at h
    split at h
    · cases h
    · cases loaded <;> dsimp only at h <;> split at h <;> cases h
  | validated evaluation changed =>
    simp only [hphase] at h
    split at h
    · cases h
    · split at h
      · split at h <;> cases h
      · cases h
  | collided evaluation =>
    simp only [hphase] at h
    split at h
    · exact .inl ⟨rfl, PingService.enter_eq_none h⟩
    · exact .inl ⟨rfl, PingService.enter_eq_none h⟩
  | finished _ =>
    cases hphase ▸ hopen

/-- While a ping has not ended, some ping can go on. Otherwise no ping writes, so none has stored a
duration, so none is inside its guard, and no other one waits. -/
theorem PingService.exists_next (hidle : s.admin = .idle) (h : (s.phase i).ended? = false) :
    ∃ j t, service.LooksUpAlone s (.ping j) ∧ service.pingStep s j = some t := by
  by_contra hnone
  have hwaits {j : ι} (halone : service.LooksUpAlone s (.ping j)) : service.pingStep s j = none :=
    Option.eq_none_iff_forall_ne_some.mpr fun t ht => hnone ⟨j, t, halone, ht⟩
  have hentered {j : ι} (hj : (s.phase j).inGuard? = true)
      (halone : service.LooksUpAlone s (.ping j)) :
      (∃ copy, s.phase j = .entered copy) ∧ ∃ k, (s.phase k).holdsDuration? = true := by
    have hopen : (s.phase j).ended? = false := by
      cases hphase : s.phase j <;> rw [hphase] at hj <;> first | rfl | cases hj
    refine (PingService.waits hidle hopen (hwaits halone)).resolve_left ?_
    rintro ⟨hnot, -⟩
    cases hj ▸ hnot
  have hwriting (j : ι) : (s.phase j).writing? = false := by
    refine Bool.eq_false_iff.mpr fun hj => ?_
    have halone : service.LooksUpAlone s (.ping j) := fun hresolved => by
      cases hphase : s.phase j <;> rw [hphase] at hj hresolved <;> cases hj <;> cases hresolved
    obtain ⟨⟨copy, hphase⟩, -⟩ := hentered (PingPhase.inGuard?_of_writing? hj) halone
    cases hphase ▸ hj
  have halone (j : ι) : service.LooksUpAlone s (.ping j) := fun _ _ => hwriting
  have hholds (j : ι) : (s.phase j).holdsDuration? ≠ true := by
    intro hj
    have hguard : (s.phase j).inGuard? = true := by
      cases hphase : s.phase j <;> rw [hphase] at hj <;> first | rfl | cases hj
    obtain ⟨⟨copy, hphase⟩, -⟩ := hentered hguard (halone j)
    cases hphase ▸ hj
  rcases PingService.waits hidle h (hwaits (halone i)) with ⟨-, j, hj⟩ | ⟨-, j, hj⟩
  · obtain ⟨-, k, hk⟩ := hentered hj (halone j)
    exact hholds k hk
  · exact hholds j hj

end Credit

/-! ## Two pings of a user -/

def twoPings {ρ : Type*} (kind : PingKind ρ) (enrollment : Option Enrollment) :
    PingService (Fin 2) ρ where
  kind
  clients
    | 0 => { userId := 2, startedAt := 1, ping := { totalWatchedSeconds := 10 } }
    | 1 => { userId := 2, startedAt := 1, ping := { totalWatchedSeconds := 50 } }
  enrollmentOf _ := enrollment
  replacement := none

def staffPings : PingService (Fin 2) Progress :=
  twoPings (.video 1) none

def studentPings : PingService (Fin 2) Progress :=
  twoPings (.video 1) (some { id := 1, userId := 2, cohortId := 1 })

def beforePings {ρ : Type*} : PingState (Fin 2) ρ :=
  .initial { key := "lesson.mp4", duration := none }

def inTurn : List (PingAction (Fin 2)) :=
  [0, 1, 0, 1, 1, 0, 0, 0, 0, 1, 1].map .ping

def underLock : List (PingAction (Fin 2)) :=
  [1, 0, 0, 0, 0, 0, 0, 0, 1, 1, 1, 1, 1].map .ping

-- for a recording the `rescue` merges a ping whose insert hits the unique index
example : (([0, 1, 0, 1, 0, 1, 0, 1, 0, 1, 0, 1, 1, 1].map PingAction.ping).foldlM
    (twoPings (.watch 1) none).step beforePings).any (fun t =>
        decide (t.total (.watch 1) 2 = 50 ∧ ∀ i, (t.phase i).succeeded?.isSome = true)) = true := by
  decide +kernel

end LearningPlatform
