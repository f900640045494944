import LearningPlatform.Model.Player
import LearningPlatform.Shared.Ledger
import Mathlib.Tactic.Linarith

/-! # Credit for playback

What the time updates of a player add to the watched total, compared with the wall time that has
passed and with the distance that the position has moved. -/

namespace LearningPlatform

open Shared

/-! ## The mobile player -/

/-- What a time update passes to `creditedPlaybackSeconds`. -/
structure CreditInput where
  previousTime : ℚ
  currentTime : ℚ
  elapsedWallSeconds : ℚ
  playbackRate : ℚ
  playing : Bool
  deriving DecidableEq

namespace CreditInput

variable {input : CreditInput} {inputs : List CreditInput}

def credit (input : CreditInput) : ℚ :=
  creditedPlaybackSeconds input.previousTime input.currentTime input.elapsedWallSeconds
    input.playbackRate input.playing

def advance (input : CreditInput) : ℚ :=
  input.currentTime - input.previousTime

/-- The wall time at the rate, with the tolerance. -/
def plausibleSeconds (input : CreditInput) : ℚ :=
  input.elapsedWallSeconds * max input.playbackRate 1 + 3 / 4

theorem credit_eq (input : CreditInput) :
    input.credit = if input.playing ∧ 0 < input.elapsedWallSeconds ∧ 0 < input.advance ∧
      input.advance ≤ input.plausibleSeconds then input.advance else 0 := by
  simp only [credit, creditedPlaybackSeconds, advance, plausibleSeconds]
  cases input.playing with
  | false => simp
  | true =>
    by_cases helapsed : input.elapsedWallSeconds ≤ 0
    · simp [helapsed, not_lt.mpr helapsed]
    · by_cases hdelta : input.currentTime - input.previousTime ≤ 0
      · simp [hdelta, not_lt.mpr hdelta]
      · simp [helapsed, hdelta, not_le.mp helapsed, not_le.mp hdelta]

theorem credit_nonneg (input : CreditInput) : 0 ≤ input.credit := by
  rw [credit_eq]
  split_ifs with h
  · exact h.2.2.1.le
  · exact le_rfl

theorem credit_le_plausibleSeconds (h : 0 < input.credit) :
    input.credit ≤ input.plausibleSeconds := by
  rw [credit_eq] at h ⊢
  split_ifs at h ⊢ with hcredited
  · exact hcredited.2.2.2
  · exact absurd h (lt_irrefl 0)

theorem credit_le_advance (input : CreditInput) : input.credit ≤ max 0 input.advance := by
  rw [credit_eq]
  split_ifs
  · exact le_max_right _ _
  · exact le_max_left _ _

theorem credit_of_not_playing (h : input.playing = false) : input.credit = 0 := by
  simp [credit_eq, h]

theorem credit_of_allowed (hplaying : input.playing) (helapsed : 0 ≤ input.elapsedWallSeconds)
    (h : input.advance ≤ input.elapsedWallSeconds * input.playbackRate) :
    input.credit = max 0 input.advance := by
  rw [credit_eq]
  by_cases hadvance : 0 < input.advance
  · have hpositive : 0 < input.elapsedWallSeconds := by
      refine lt_of_le_of_ne helapsed fun hzero => ?_
      rw [← hzero, zero_mul] at h
      exact absurd hadvance (not_lt.mpr h)
    have hrate : input.elapsedWallSeconds * input.playbackRate ≤
        input.elapsedWallSeconds * max input.playbackRate 1 :=
      mul_le_mul_of_nonneg_left (le_max_left _ _) helapsed
    have hplausible : input.advance ≤ input.plausibleSeconds := by
      unfold plausibleSeconds
      linarith
    rw [if_pos ⟨hplaying, hpositive, hadvance, hplausible⟩, max_eq_right hadvance.le]
  · rw [if_neg fun hcredited => hadvance hcredited.2.2.1, max_eq_left (not_lt.mp hadvance)]

theorem sum_credit_le_plausibleSeconds (inputs : List CreditInput) :
    (inputs.map credit).sum ≤
      ((inputs.filter fun input => 0 < input.credit).map plausibleSeconds).sum := by
  induction inputs with
  | nil => simp
  | cons input inputs ih =>
    by_cases h : 0 < input.credit
    · simpa [h] using add_le_add (credit_le_plausibleSeconds h) ih
    · have hzero : input.credit = 0 := le_antisymm (not_lt.mp h) input.credit_nonneg
      simpa [h, hzero] using ih

theorem sum_credit_le_advance (inputs : List CreditInput) :
    (inputs.map credit).sum ≤
      ((inputs.filter (·.playing)).map fun input => max 0 input.advance).sum := by
  induction inputs with
  | nil => simp
  | cons input inputs ih =>
    cases h : input.playing with
    | true => simpa [h] using add_le_add input.credit_le_advance ih
    | false => simpa [h, credit_of_not_playing h] using ih

end CreditInput

namespace MobilePlayer

/-! What has happened by some event; the latest event comes first. -/

/-- The clock at the last event that sets it. -/
def clock : List MobileEvent → ℚ
  | [] => 0
  | .sourceLoad now :: _ => now
  | .playingChange _ now :: _ => now
  | .timeUpdate _ now :: _ => now
  | .appActive now :: _ => now
  | _ :: past => clock past

def isPlaying : List MobileEvent → Bool
  | [] => false
  | .playingChange isPlaying _ :: _ => isPlaying
  | _ :: past => isPlaying past

def playbackRate : List MobileEvent → ℚ
  | [] => 1
  | .playbackRateChange rate :: _ => rate
  | _ :: past => playbackRate past

def sourceLoaded : List MobileEvent → Bool
  | [] => false
  | .sourceLoad _ :: _ => true
  | _ :: past => sourceLoaded past

mutual

/-- The position of the last time update or of the last source. -/
def position (duration initialPosition : ℚ) : List MobileEvent → ℚ
  | [] => initialPosition
  | .timeUpdate currentTime _ :: _ => currentTime
  | .sourceLoad _ :: past => resumePosition (restored duration initialPosition past) duration
  | _ :: past => position duration initialPosition past

/-- Where the next source is to start. -/
def restored (duration initialPosition : ℚ) : List MobileEvent → ℚ
  | [] => initialPosition
  | .loadSource (some options) :: _ => options.position
  | .loadSource none :: past =>
    if sourceLoaded past ∧ 0 < duration then position duration initialPosition past
    else initialPosition
  | .sourceLoad _ :: _ => initialPosition
  | _ :: past => restored duration initialPosition past

end

/-- The time updates of a sequence of events after others. -/
def updates (duration initialPosition : ℚ) : List MobileEvent → List MobileEvent → List CreditInput
  | _, [] => []
  | past, .timeUpdate currentTime now :: events =>
    ⟨position duration initialPosition past, currentTime, max 0 ((now - clock past) / 1000),
      playbackRate past, isPlaying past⟩ ::
      updates duration initialPosition (.timeUpdate currentTime now :: past) events
  | past, event :: events => updates duration initialPosition (event :: past) events

/-- The player as it is mounted. -/
def mounted (initialPosition totalWatched : ℚ) : MobilePlayer :=
  { initialPosition, totalWatched, currentTime := initialPosition, lastTime := initialPosition }

/-- The refs of a player are what the events say. -/
structure Follows (duration initialPosition : ℚ) (past : List MobileEvent)
    (player : MobilePlayer) : Prop where
  initial : player.initialPosition = initialPosition
  currentTime : player.currentTime = position duration initialPosition past
  lastTime : player.lastTime = position duration initialPosition past
  lastTickAt : player.lastTickAt = clock past
  playing : player.playing = isPlaying past
  rate : player.rate = playbackRate past
  known : player.duration = if sourceLoaded past then duration else 0
  pending : (player.pendingRestore.map (·.position)).getD initialPosition =
    restored duration initialPosition past

section Follows

variable {duration initialPosition : ℚ} {player : MobilePlayer}
  {past events : List MobileEvent}

theorem follows_mounted (duration initialPosition totalWatched : ℚ) :
    Follows duration initialPosition [] (mounted initialPosition totalWatched) :=
  ⟨rfl, rfl, rfl, rfl, rfl, rfl, rfl, rfl⟩

theorem exists_enqueueProgress_eq (player : MobilePlayer) (ended : Bool) :
    ∃ reports, player.enqueueProgress ended = { player with reports } := by
  unfold enqueueProgress
  split
  · exact ⟨_, rfl⟩
  · exact ⟨player.reports, rfl⟩

section

variable (h : Follows duration initialPosition past player)

include h

theorem Follows.enqueueProgress (ended : Bool) :
    Follows duration initialPosition past (player.enqueueProgress ended) := by
  obtain ⟨reports, heq⟩ := player.exists_enqueueProgress_eq ended
  rw [heq]
  exact ⟨h.1, h.2, h.3, h.4, h.5, h.6, h.7, h.8⟩

theorem Follows.step (event : MobileEvent) :
    Follows duration initialPosition (event :: past) (player.step duration event) := by
  cases event with
  | loadSource options =>
    refine ⟨h.1, h.2, h.3, h.4, h.5, h.6, h.7, ?_⟩
    cases options with
    | some options => rfl
    | none =>
      simp only [MobilePlayer.step, loadSource, Option.getD_none, Option.map_some, Option.getD_some,
        h.known, h.currentTime, h.initial, restored]
      cases sourceLoaded past <;> simp
  | sourceLoad now =>
    have hposition : (player.handleSourceLoad duration now).currentTime =
        position duration initialPosition (.sourceLoad now :: past) := by
      simp only [handleSourceLoad, position, ← h.pending, h.initial]
    exact ⟨h.initial, hposition, hposition, rfl, h.playing, h.rate, rfl, rfl⟩
  | playingChange isPlaying now =>
    have hchanged : Follows duration initialPosition (.playingChange isPlaying now :: past)
        { player with playing := isPlaying, lastTime := player.currentTime, lastTickAt := now } :=
      ⟨h.1, h.2, h.2, rfl, rfl, h.6, h.7, h.8⟩
    cases isPlaying with
    | true => exact hchanged
    | false => exact hchanged.enqueueProgress false
  | playbackRateChange rate => exact ⟨h.1, h.2, h.3, h.4, h.5, rfl, h.7, h.8⟩
  | timeUpdate currentTime now =>
    have hupdated (saved : ℚ) :
        Follows duration initialPosition (.timeUpdate currentTime now :: past)
        { player with
          totalWatched := player.totalWatched + player.credit currentTime now
          lastTime := currentTime
          currentTime
          lastTickAt := now
          lastSavedAt := saved } :=
      ⟨h.1, rfl, rfl, rfl, h.5, h.6, h.7, h.8⟩
    simp only [MobilePlayer.step, handleTimeUpdate]
    split
    · exact (hupdated now).enqueueProgress false
    · exact hupdated player.lastSavedAt
  | appActive now => exact ⟨h.1, h.2, h.2, rfl, h.5, h.6, h.7, h.8⟩
  | playToEnd | appInactive | pictureInPictureStop | unmount =>
    refine @Follows.enqueueProgress _ _ player (_ :: past) ?_ _
    exact ⟨h.1, h.2, h.3, h.4, h.5, h.6, h.7, h.8⟩

theorem Follows.foldl (events : List MobileEvent) :
    Follows duration initialPosition (events.reverse ++ past)
      (events.foldl (MobilePlayer.step duration) player) := by
  induction events generalizing past player with
  | nil => exact h
  | cons event events ih =>
    rw [List.reverse_cons, List.append_assoc]
    exact ih (h.step event)

end

theorem totalWatched_step (duration : ℚ) (player : MobilePlayer) (event : MobileEvent) :
    (player.step duration event).totalWatched = player.totalWatched +
      match event with
      | .timeUpdate currentTime now => player.credit currentTime now
      | _ => 0 := by
  have hreport (player : MobilePlayer) (ended : Bool) :
      (player.enqueueProgress ended).totalWatched = player.totalWatched := by
    obtain ⟨reports, heq⟩ := player.exists_enqueueProgress_eq ended
    rw [heq]
  cases event with
  | timeUpdate currentTime now =>
    simp only [MobilePlayer.step, handleTimeUpdate]
    split <;> simp [hreport]
  | playingChange isPlaying now =>
    cases isPlaying <;> simp [MobilePlayer.step, handlePlayingChange, hreport]
  | _ => simp [MobilePlayer.step, loadSource, handleSourceLoad, hreport]

theorem Follows.totalWatched_foldl (h : Follows duration initialPosition past player)
    (events : List MobileEvent) :
    (events.foldl (MobilePlayer.step duration) player).totalWatched = player.totalWatched +
      ((updates duration initialPosition past events).map CreditInput.credit).sum := by
  induction events generalizing past player with
  | nil => simp [updates]
  | cons event events ih =>
    rw [List.foldl_cons, ih (h.step event), totalWatched_step]
    cases event with
    | timeUpdate currentTime now =>
      simp [updates, CreditInput.credit, MobilePlayer.credit, h.lastTime, h.lastTickAt, h.playing,
        h.rate, add_assoc]
    | _ => simp [updates]

/-- The events that set a new baseline beside time updates. -/
def setsBaseline : MobileEvent → Bool
  | .sourceLoad _ | .playingChange _ _ | .appActive _ => true
  | _ => false

theorem playing_of_mem_updates (hplaying : isPlaying past)
    (hevents : ∀ event ∈ events, setsBaseline event = false) {input : CreditInput}
    (h : input ∈ updates duration initialPosition past events) :
    input.playing ∧ 0 ≤ input.elapsedWallSeconds := by
  induction events generalizing past with
  | nil => cases h
  | cons event events ih =>
    rw [List.forall_mem_cons] at hevents
    cases event with
    | timeUpdate currentTime now =>
      rcases List.mem_cons.mp h with rfl | h
      · exact ⟨hplaying, le_max_left _ _⟩
      · exact ih (by exact hplaying) hevents.2 h
    | sourceLoad _ | playingChange _ _ | appActive _ => cases hevents.1
    | _ => exact ih (by exact hplaying) hevents.2 h

theorem sum_advance_updates (hevents : ∀ event ∈ events, setsBaseline event = false) :
    ((updates duration initialPosition past events).map CreditInput.advance).sum =
      position duration initialPosition (events.reverse ++ past) -
        position duration initialPosition past := by
  induction events generalizing past with
  | nil => simp [updates]
  | cons event events ih =>
    rw [List.forall_mem_cons] at hevents
    rw [List.reverse_cons, List.append_assoc, List.singleton_append]
    cases event with
    | timeUpdate currentTime now =>
      simp [updates, CreditInput.advance, ih hevents.2, position]
    | sourceLoad _ | playingChange _ _ | appActive _ => cases hevents.1
    | _ => simp [updates, ih hevents.2, position]

end Follows

/-- The credit of a sequence of events is bounded by the wall time and by the advance of the
position; an uninterrupted playback is credited with its distance. -/
theorem credited_within_playback (duration initialPosition totalWatched : ℚ)
    (earlier events : List MobileEvent) :
    let player := earlier.foldl (step duration) (mounted initialPosition totalWatched)
    let inputs := updates duration initialPosition earlier.reverse events
    let credited := (events.foldl (step duration) player).totalWatched - player.totalWatched
    credited ≤
      ((inputs.filter fun input => 0 < input.credit).map CreditInput.plausibleSeconds).sum ∧
      credited ≤ ((inputs.filter (·.playing)).map fun input => max 0 input.advance).sum ∧
      (isPlaying earlier.reverse → (∀ event ∈ events, setsBaseline event = false) →
        (∀ input ∈ inputs,
          input.advance ≤ input.elapsedWallSeconds * input.playbackRate) →
        credited = (inputs.map fun input => max 0 input.advance).sum ∧
          ((∀ input ∈ inputs, 0 ≤ input.advance) →
            credited = position duration initialPosition (earlier ++ events).reverse -
              position duration initialPosition earlier.reverse)) := by
  intro player inputs credited
  have hfollows : Follows duration initialPosition earlier.reverse player := by
    simpa using (follows_mounted duration initialPosition totalWatched).foldl earlier
  have hcredited : credited = (inputs.map CreditInput.credit).sum := by
    simp only [credited, inputs, hfollows.totalWatched_foldl events, add_sub_cancel_left]
  rw [hcredited]
  refine ⟨CreditInput.sum_credit_le_plausibleSeconds inputs,
    CreditInput.sum_credit_le_advance inputs,
    fun hplaying hevents hallowed => ?_⟩
  have hexact : (inputs.map CreditInput.credit).sum =
      (inputs.map fun input => max 0 input.advance).sum := by
    refine congrArg List.sum (List.map_congr_left fun input hinput => ?_)
    have hupdate := playing_of_mem_updates hplaying hevents hinput
    exact CreditInput.credit_of_allowed hupdate.1 hupdate.2 (hallowed input hinput)
  refine ⟨hexact, fun hforward => ?_⟩
  have hadvance : (inputs.map fun input => max 0 input.advance).sum =
      (inputs.map CreditInput.advance).sum :=
    congrArg List.sum (List.map_congr_left fun input hinput => max_eq_right (hforward input hinput))
  rw [hexact, hadvance, List.reverse_append]
  exact sum_advance_updates hevents

end MobilePlayer

namespace MobileCreditExample

/-- A video that is loaded and played at double speed. -/
def start : List MobileEvent :=
  [.sourceLoad 0, .playbackRateChange 2, .playingChange true 0]

def ticks : List MobileEvent :=
  [.timeUpdate 1 500, .timeUpdate 2 1000, .timeUpdate 3 1500]

theorem three_seconds_credited :
    let player := start.foldl (MobilePlayer.step 60) (MobilePlayer.mounted 0 7)
    (ticks.foldl (MobilePlayer.step 60) player).totalWatched - player.totalWatched =
        MobilePlayer.position 60 0 (start ++ ticks).reverse -
          MobilePlayer.position 60 0 start.reverse ∧
      MobilePlayer.position 60 0 (start ++ ticks).reverse = 3 :=
  ⟨((MobilePlayer.credited_within_playback 60 0 7 start ticks).2.2 (by decide +kernel)
    (by decide +kernel) (by decide +kernel)).2 (by decide +kernel), by decide +kernel⟩

end MobileCreditExample

/-! ## The web player -/

/-- A time update of the web player in the state it meets. -/
structure WebUpdate where
  player : WebPlayer
  currentTime : ℚ
  playbackRate : ℚ
  now : ℚ

namespace WebUpdate

variable (update : WebUpdate)

def credit : ℚ :=
  update.player.credit update.currentTime update.playbackRate update.now

def advance : ℚ :=
  update.currentTime - update.player.lastTime

def elapsed : ℚ :=
  match update.player.lastTickAt with
  | some tickAt => if tickAt = 0 then 0 else (update.now - tickAt) / 1000
  | none => 0

def plausibleSeconds : ℚ :=
  update.elapsed * update.playbackRate + 1 / 2

theorem credit_eq :
    update.credit = min (max 0 update.advance)
      (max 2 (update.elapsed * max update.playbackRate 0 + 1 / 2)) := by
  have hcredit : update.credit = if 0 < update.advance then
      min update.advance (max 2 (update.elapsed * max update.playbackRate 0 + 1 / 2)) else 0 := rfl
  rw [hcredit]
  split_ifs with hadvance
  · rw [max_eq_right hadvance.le]
  · have hceiling : (0 : ℚ) ≤ max 2 (update.elapsed * max update.playbackRate 0 + 1 / 2) :=
      le_trans (by norm_num) (le_max_left _ _)
    rw [max_eq_left (not_lt.mp hadvance), min_eq_left hceiling]

/-- The ceiling exceeds the plausible seconds only by its floor of two seconds. -/
theorem ceiling_le_plausibleSeconds_iff :
    max 2 (update.elapsed * max update.playbackRate 0 + 1 / 2) ≤ update.plausibleSeconds ↔
      2 ≤ update.plausibleSeconds := by
  unfold plausibleSeconds
  rcases le_total 0 update.playbackRate with hrate | hrate
  · rw [max_eq_left hrate]
    simp
  · rw [max_eq_right hrate, mul_zero, zero_add, max_eq_left (by norm_num)]

theorem credit_le_plausibleSeconds_iff :
    update.credit ≤ update.plausibleSeconds ↔
      max 0 update.advance ≤ update.plausibleSeconds ∨ 2 ≤ update.plausibleSeconds := by
  rw [credit_eq, min_le_iff, ceiling_le_plausibleSeconds_iff]

end WebUpdate

namespace WebPlayer

def update? : WebPlayer × WebEvent → Option WebUpdate
  | (player, .timeUpdate currentTime playbackRate now) =>
    some ⟨player, currentTime, playbackRate, now⟩
  | _ => none

/-- The time updates of a sequence of events. -/
def updates (duration : ℚ) (player : WebPlayer) (events : List WebEvent) : List WebUpdate :=
  (visits (step duration) player events).filterMap update?

def isLoadedMetadata : WebEvent → Bool
  | .loadedMetadata _ _ => true
  | _ => false

/-- The position and the clock that the events set last, the latest event first. -/
def baseline (initialPosition : ℚ) : List WebEvent → ℚ × Option ℚ
  | [] => (0, none)
  | .loadedMetadata currentTime now :: past =>
    -- the position is restored once
    (if 0 < initialPosition ∧ !past.any isLoadedMetadata then initialPosition else currentTime,
      some now)
  | .timeUpdate currentTime _ now :: _ => (currentTime, some now)
  | .seeked currentTime now :: _ => (currentTime, some now)
  | .play now :: past => ((baseline initialPosition past).1, some now)
  | _ :: past => baseline initialPosition past

theorem totalWatched_step (duration : ℚ) (player : WebPlayer) (event : WebEvent) :
    (player.step duration event).totalWatched =
      player.totalWatched + ((update? (player, event)).map WebUpdate.credit).getD 0 := by
  cases event with
  | timeUpdate currentTime playbackRate now => rfl
  | interval currentTime =>
    simp only [step, sendProgress, update?]
    split_ifs <;> simp
  | pause _ | ended =>
    simp only [step, sendProgress, update?]
    split_ifs <;> simp
  | _ => simp [step, update?, handleLoaded]

/-- The refs that an update is credited by are what the events say. -/
structure Follows (initialPosition : ℚ) (past : List WebEvent) (player : WebPlayer) : Prop where
  initial : player.initialPosition = initialPosition
  restored : player.hasRestoredInitialPosition =
    (decide (0 < initialPosition) && past.any isLoadedMetadata)
  baseline : (player.lastTime, player.lastTickAt) = WebPlayer.baseline initialPosition past

theorem Follows.step {initialPosition duration : ℚ} {past : List WebEvent} {player : WebPlayer}
    (h : Follows initialPosition past player) (event : WebEvent) :
    Follows initialPosition (event :: past) (player.step duration event) := by
  obtain ⟨hinitial, hrestored, hbaseline⟩ := h
  have hsend (player : WebPlayer) (currentTime : ℚ) (ended : Bool)
      (h : Follows initialPosition (event :: past) player) :
      Follows initialPosition (event :: past) (player.sendProgress duration currentTime ended) := by
    unfold sendProgress
    split
    · exact ⟨h.1, h.2, h.3⟩
    · exact h
  cases event with
  | loadedMetadata currentTime now =>
    by_cases hpositive : 0 < initialPosition
    · refine ⟨hinitial, ?_, ?_⟩
      · simp [WebPlayer.step, handleLoaded, hinitial, isLoadedMetadata, hpositive]
      · simp [WebPlayer.step, handleLoaded, hrestored, hinitial, WebPlayer.baseline, hpositive]
    · refine ⟨hinitial, ?_, ?_⟩
      · simp [WebPlayer.step, handleLoaded, hrestored, hinitial, hpositive]
      · simp [WebPlayer.step, handleLoaded, hinitial, WebPlayer.baseline, hpositive]
  | pause currentTime => exact hsend _ _ _ ⟨hinitial, hrestored, hbaseline⟩
  | ended => exact hsend _ _ _ ⟨hinitial, hrestored, hbaseline⟩
  | interval currentTime =>
    simp only [WebPlayer.step]
    split
    · exact hsend _ _ _ ⟨hinitial, hrestored, hbaseline⟩
    · exact ⟨hinitial, hrestored, hbaseline⟩
  | play now =>
    exact ⟨hinitial, hrestored, congrArg (fun found => (found.1, some now)) hbaseline⟩
  | timeUpdate _ _ _ | seeked _ _ => exact ⟨hinitial, hrestored, rfl⟩
  | error | unmount => exact ⟨hinitial, hrestored, hbaseline⟩

/-- Whatever the events are, the baseline of the next update is the one that they set last. -/
theorem baseline_foldl (duration initialPosition totalWatched : ℚ) (events : List WebEvent) :
    let player := events.foldl (step duration) { initialPosition, totalWatched }
    (player.lastTime, player.lastTickAt) = baseline initialPosition events.reverse := by
  have hfollows (past : List WebEvent) (player : WebPlayer)
      (h : Follows initialPosition past player) :
      Follows initialPosition (events.reverse ++ past) (events.foldl (step duration) player) := by
    induction events generalizing past player with
    | nil => exact h
    | cons event events ih =>
      rw [List.reverse_cons, List.append_assoc]
      exact ih _ _ (h.step event)
  simpa using (hfollows [] { initialPosition, totalWatched } ⟨rfl, by simp, rfl⟩).baseline

/-- Each update of a sequence of events is credited with at most the seconds that could have been
played if and only if no update moves further than that while these seconds are less than two; the
credits are what the sequence adds to the watched total. -/
theorem credited_within_elapsed_iff (duration : ℚ) (player : WebPlayer) (events : List WebEvent) :
    (events.foldl (step duration) player).totalWatched =
        player.totalWatched + ((updates duration player events).map WebUpdate.credit).sum ∧
      ((∀ update ∈ updates duration player events, update.credit ≤ update.plausibleSeconds) ↔
        ∀ update ∈ updates duration player events,
          max 0 update.advance ≤ update.plausibleSeconds ∨ 2 ≤ update.plausibleSeconds) := by
  constructor
  · rw [foldl_eq_add_sum totalWatched (fun visit => ((update? visit).map WebUpdate.credit).getD 0)
      (totalWatched_step duration), updates]
    exact congrArg _ (sum_filterMap (fun _ => rfl) _)
  · exact forall₂_congr fun update _ => update.credit_le_plausibleSeconds_iff

end WebPlayer

namespace WebCreditExample

/-- A jump of two seconds is reported a tenth of a second after the baseline, before the seek
completes. -/
def jump : List WebEvent :=
  [.loadedMetadata 0 1000, .play 1000, .timeUpdate 2 1 1100, .seeked 2 1200]

theorem jump_credited_in_full :
    (jump.foldl (WebPlayer.step 60) {}).totalWatched = 2 ∧
      ∃ update ∈ WebPlayer.updates 60 {} jump,
        update.plausibleSeconds = 3 / 5 ∧ ¬ update.credit ≤ update.plausibleSeconds := by
  refine ⟨by decide +kernel, _, List.mem_singleton.mpr rfl, by decide +kernel, by decide +kernel⟩

end WebCreditExample

end LearningPlatform
