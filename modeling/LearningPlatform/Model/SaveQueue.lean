import LearningPlatform.Model.Player
import LearningPlatform.Shared.Process

/-! # The save queue of the mobile player

`enqueueProgress` and `drainSaves` of `NativeVideoPlayer`. A call runs without interruption until
`drainSaves` awaits a save or returns. What stands behind the `await` runs some time after the save
is complete, so calls, completions and continuations come in any order. -/

namespace LearningPlatform

open Shared

structure ProgressCall where
  currentTime : ℚ
  totalWatched : ℚ
  /-- `none` if it is not finite. -/
  duration : Option ℚ
  ended : Bool := false
  deriving DecidableEq

def ProgressCall.payload (call : ProgressCall) : Option Ping :=
  call.duration.bind fun duration =>
    normalizedProgress call.currentTime call.totalWatched duration call.ended

namespace SaveQueue

variable {ι : Type*}

/-- A payload and the call that made it. -/
structure Payload (ι : Type*) where
  call : ι
  progress : Ping
  deriving DecidableEq

/-- The refs and the state of the component, with the payloads that were enqueued, passed to
`saveProgress` and passed to `onProgressSaved` so far. -/
structure Store (ι : Type*) where
  pendingSave : Option (Payload ι) := none
  saving : Bool := false
  syncError : Bool := false
  enqueued : List (Payload ι) := []
  sent : List (Payload ι) := []
  reported : List (Payload ι) := []
  deriving DecidableEq

/-- Where a call stands, with the `drainSaves` that it started. -/
inductive Phase (ι : Type*) where
  | ready
  | awaiting (payload : Payload ι)
  /-- The save is complete, and the code behind the `await` has not run. -/
  | settled (payload : Payload ι) (succeeded : Bool)
  /-- Before the condition of the loop. -/
  | looping
  | finished
  deriving DecidableEq

inductive Action where
  | enqueueProgress
  /-- `saveProgress` resolves or rejects. -/
  | complete (succeeded : Bool)
  /-- The code behind the `await`, if the component is mounted or not, and with
  `onProgressSaved`, if it is given: it throws or not. -/
  | resume (mounted : Bool) (callbackThrows : Option Bool)
  | loop
  deriving DecidableEq

/-- The condition of the loop with what follows it up to the `await`, or the `finally` block. -/
def drainLoop (store : Store ι) : Store ι × Phase ι :=
  match store.pendingSave with
  | some next => ({ store with pendingSave := none, sent := store.sent ++ [next] }, .awaiting next)
  | none => ({ store with saving := false }, .finished)

def drainSaves (store : Store ι) : Store ι × Phase ι :=
  if store.saving then (store, .finished) else drainLoop { store with saving := true }

def enqueueProgress (call : ProgressCall) (i : ι) (store : Store ι) : Store ι × Phase ι :=
  match call.payload with
  | none => (store, .finished)
  | some progress =>
    drainSaves
      { store with
        pendingSave := some ⟨i, progress⟩
        enqueued := store.enqueued ++ [⟨i, progress⟩] }

/-- `setSyncError`, if the component is mounted. -/
def Store.setSyncError (store : Store ι) (mounted syncError : Bool) : Store ι :=
  if mounted then { store with syncError } else store

/-- The code behind the `await` and the `catch` block, in which an exception of `onProgressSaved`
ends as well. -/
def afterSave (payload : Payload ι) (succeeded mounted : Bool) (callbackThrows : Option Bool)
    (store : Store ι) : Store ι :=
  if succeeded then
    let store := store.setSyncError mounted false
    match callbackThrows with
    | none => store
    | some throws =>
      let store := { store with reported := store.reported ++ [payload] }
      if throws then store.setSyncError mounted true else store
  else store.setSyncError mounted true

def act (calls : ι → ProgressCall) : Processes.Statement ι (Store ι) (Phase ι) Action
  | i, .enqueueProgress, store, .ready => some (enqueueProgress (calls i) i store)
  | _, .complete succeeded, store, .awaiting payload => some (store, .settled payload succeeded)
  | _, .resume mounted callbackThrows, store, .settled payload succeeded =>
    some (afterSave payload succeeded mounted callbackThrows store, .looping)
  | _, .loop, store, .looping => some (drainLoop store)
  | _, _, _, _ => none

def initial (ι : Type*) : Processes ι (Store ι) (Phase ι) where
  store := {}
  phase _ := .ready

end SaveQueue

end LearningPlatform
