import LearningPlatform.Model.Video
import Mathlib.Data.Rat.Floor

/-! # Video players

The web and the mobile player as state machines over the events of the media element. Media
times are in seconds and clock times in milliseconds. The duration of the video is fixed, and a
player knows it once the metadata is loaded. -/

namespace LearningPlatform

/-! ## The web player -/

/-- The refs of `VideoPlayer`, and the reports it has passed to `onSaveProgress`; `loaded` says that
the media element is there and has its metadata. -/
structure WebPlayer where
  initialPosition : ℚ := 0
  totalWatched : ℚ := 0
  lastTime : ℚ := 0
  lastTickAt : Option ℚ := none
  hasRestoredInitialPosition : Bool := false
  loaded : Bool := false
  playing : Bool := false
  reports : List Ping := []
  deriving DecidableEq

/-- An event with the attributes of the media element and the clock that its handler reads. -/
inductive WebEvent where
  | loadedMetadata (currentTime now : ℚ)
  | timeUpdate (currentTime playbackRate now : ℚ)
  | play (now : ℚ)
  | pause (currentTime : ℚ)
  | seeked (currentTime now : ℚ)
  | error
  | ended
  /-- The interval that runs while the video plays. -/
  | interval (currentTime : ℚ)
  | unmount
  deriving DecidableEq

namespace WebPlayer

/-- `sendProgress`. The duration is `NaN` before the metadata is loaded, and `videoRef.current` is
`null` without the media element. -/
def sendProgress (duration : ℚ) (player : WebPlayer) (currentTime : ℚ) (ended : Bool) : WebPlayer :=
  if player.loaded && duration != 0 then
    let watched := if ended then max player.totalWatched ⌊duration⌋ else player.totalWatched
    { player with
      reports := player.reports ++
        [{ lastPositionSeconds := ⌊if ended then duration else currentTime⌋
           totalWatchedSeconds := ⌊watched⌋
           durationSeconds := ⌊duration⌋ }] }
  else player

def handleLoaded (player : WebPlayer) (currentTime now : ℚ) : WebPlayer :=
  let restores := !player.hasRestoredInitialPosition && decide (0 < player.initialPosition)
  { player with
    loaded := true
    hasRestoredInitialPosition := player.hasRestoredInitialPosition || restores
    lastTime := if restores then player.initialPosition else currentTime
    lastTickAt := some now }

/-- The seconds that a `timeupdate` adds to the watched total. -/
def credit (player : WebPlayer) (currentTime playbackRate now : ℚ) : ℚ :=
  let delta := currentTime - player.lastTime
  let elapsed := match player.lastTickAt with
    | some tickAt => if tickAt = 0 then 0 else (now - tickAt) / 1000
    | none => 0
  if 0 < delta then min delta (max 2 (elapsed * max playbackRate 0 + 1 / 2)) else 0

def handleTimeUpdate (player : WebPlayer) (currentTime playbackRate now : ℚ) : WebPlayer :=
  { player with
    totalWatched := player.totalWatched + player.credit currentTime playbackRate now
    lastTime := currentTime
    lastTickAt := some now }

def step (duration : ℚ) (player : WebPlayer) : WebEvent → WebPlayer
  | .loadedMetadata currentTime now => player.handleLoaded currentTime now
  | .timeUpdate currentTime playbackRate now =>
    player.handleTimeUpdate currentTime playbackRate now
  | .play now => { player with lastTickAt := some now, playing := true }
  | .pause currentTime => sendProgress duration { player with playing := false } currentTime false
  | .seeked currentTime now => { player with lastTime := currentTime, lastTickAt := some now }
  -- the message is shown in place of the media element
  | .error => { player with playing := false, loaded := false }
  | .ended => sendProgress duration { player with playing := false } duration true
  | .interval currentTime =>
    if player.playing then sendProgress duration player currentTime false else player
  -- the element is gone when the effect is cleaned up
  | .unmount => { player with loaded := false }

end WebPlayer

/-! ## The mobile player -/

def creditedPlaybackSeconds (previousTime currentTime elapsedWallSeconds playbackRate : ℚ)
    (playing : Bool) : ℚ :=
  if !playing || decide (elapsedWallSeconds ≤ 0) then 0
  else
    let mediaDelta := currentTime - previousTime
    if mediaDelta ≤ 0 then 0
    else
      let limit := elapsedWallSeconds * max playbackRate 1 + 3 / 4
      if mediaDelta ≤ limit then mediaDelta else 0

def normalizedProgress (position totalWatched duration : ℚ) (ended : Bool) : Option Ping :=
  if duration ≤ 0 then none
  else
    let safeDuration := ⌊duration⌋
    let watched := if ended then max totalWatched duration else totalWatched
    some
      { lastPositionSeconds := min safeDuration (max 0 ⌊if ended then duration else position⌋)
        totalWatchedSeconds := min safeDuration (max 0 ⌊watched⌋)
        durationSeconds := safeDuration }

def resumePosition (position duration : ℚ) : ℚ :=
  if position ≤ 0 ∨ duration ≤ 0 then 0 else min position (max 0 (duration - 1 / 2))

structure PendingRestore where
  position : ℚ
  shouldPlay : Bool
  deriving DecidableEq

/-- The refs of `NativeVideoPlayer`, and the payloads it has passed to `drainSaves`. -/
structure MobilePlayer where
  initialPosition : ℚ := 0
  totalWatched : ℚ := 0
  currentTime : ℚ := 0
  duration : ℚ := 0
  playing : Bool := false
  rate : ℚ := 1
  lastTime : ℚ := 0
  lastTickAt : ℚ := 0
  lastSavedAt : ℚ := 0
  pendingRestore : Option PendingRestore := none
  reports : List Ping := []
  deriving DecidableEq

inductive MobileEvent where
  /-- `loadSource`, with its options or with the defaults of the retry button. -/
  | loadSource (options : Option PendingRestore)
  | sourceLoad (now : ℚ)
  | playingChange (isPlaying : Bool) (now : ℚ)
  | playbackRateChange (playbackRate : ℚ)
  | timeUpdate (currentTime now : ℚ)
  | playToEnd
  | appActive (now : ℚ)
  | appInactive
  | pictureInPictureStop
  | unmount
  deriving DecidableEq

namespace MobilePlayer

def progressSaveInterval : ℚ := 10000

variable (player : MobilePlayer)

/-- `enqueueProgress`. A later payload may replace one that is not saved yet. -/
def enqueueProgress (ended : Bool) : MobilePlayer :=
  match normalizedProgress player.currentTime player.totalWatched player.duration ended with
  | some payload => { player with reports := player.reports ++ [payload] }
  | none => player

def loadSource (options : Option PendingRestore) : MobilePlayer :=
  { player with
    pendingRestore := some (options.getD
      { position := if 0 < player.duration then player.currentTime else player.initialPosition
        shouldPlay := player.playing }) }

def handleSourceLoad (duration : ℚ) (player : MobilePlayer) (now : ℚ) : MobilePlayer :=
  let position := resumePosition
    ((player.pendingRestore.map (·.position)).getD player.initialPosition) duration
  { player with
    duration
    currentTime := position
    lastTime := position
    lastTickAt := now
    pendingRestore := none }

def handlePlayingChange (isPlaying : Bool) (now : ℚ) : MobilePlayer :=
  let changed :=
    { player with playing := isPlaying, lastTime := player.currentTime, lastTickAt := now }
  if isPlaying then changed else changed.enqueueProgress false

/-- The seconds that a `timeUpdate` adds to the watched total. -/
def credit (currentTime now : ℚ) : ℚ :=
  creditedPlaybackSeconds player.lastTime currentTime
    (max 0 ((now - player.lastTickAt) / 1000)) player.rate player.playing

def handleTimeUpdate (currentTime now : ℚ) : MobilePlayer :=
  let updated :=
    { player with
      totalWatched := player.totalWatched + player.credit currentTime now
      lastTime := currentTime
      currentTime
      lastTickAt := now }
  if progressSaveInterval ≤ now - player.lastSavedAt then
    { updated with lastSavedAt := now }.enqueueProgress false
  else updated

def step (duration : ℚ) (player : MobilePlayer) : MobileEvent → MobilePlayer
  | .loadSource options => player.loadSource options
  | .sourceLoad now => player.handleSourceLoad duration now
  | .playingChange isPlaying now => player.handlePlayingChange isPlaying now
  | .playbackRateChange playbackRate => { player with rate := playbackRate }
  | .timeUpdate currentTime now => player.handleTimeUpdate currentTime now
  | .playToEnd => player.enqueueProgress true
  | .appActive now => { player with lastTime := player.currentTime, lastTickAt := now }
  | .appInactive => player.enqueueProgress false
  | .pictureInPictureStop => player.enqueueProgress false
  | .unmount => player.enqueueProgress false

end MobilePlayer

end LearningPlatform
