import LearningPlatform.Shared.JsText
import Mathlib.Data.Int.Notation

/-! # Voice drafts

`mobile/src/lib/voice-draft.ts`: a transcript is inserted at the selection of a draft and may be
replaced by the raw transcript later. -/

namespace LearningPlatform.VoiceDraft

open Shared JsText

structure Selection where
  start : ℤ
  stop : ℤ
  deriving DecidableEq, Repr

/-- `VoiceDraftReview`; `before` and `after` are its prefix and its suffix. -/
structure Review where
  rawText : JsString
  suggestedText : JsString
  before : JsString
  after : JsString
  deriving DecidableEq, Repr

/-- What `insertVoiceDraft` returns. -/
structure Inserted where
  value : JsString
  selection : Selection
  before : JsString
  after : JsString
  deriving DecidableEq, Repr

structure Restored where
  value : JsString
  selection : Selection
  deriving DecidableEq, Repr

def selectionStart (draft : JsString) (selection : Selection) : ℕ :=
  (max 0 (min selection.start draft.length)).toNat

def selectionStop (draft : JsString) (selection : Selection) : ℕ :=
  (max (selectionStart draft selection : ℤ) (min selection.stop draft.length)).toNat

/-- The pattern `/\n\n$/` for several lines, `/\s$/` for one. -/
def endsSeparated (multiline : Bool) (before : JsString) : Bool :=
  if multiline then [newline, newline].isSuffixOf before
  else before.getLast?.any isWhitespace

/-- The pattern `/^\n\n/` for several lines, `/^\s/` for one. -/
def startsSeparated (multiline : Bool) (after : JsString) : Bool :=
  if multiline then [newline, newline].isPrefixOf after
  else after.head?.any isWhitespace

def separator (multiline : Bool) : JsString :=
  if multiline then [newline, newline] else ascii " "

def insertVoiceDraft (draft : JsString) (selection : Selection) (text : JsString) : Inserted :=
  let before := draft.take (selectionStart draft selection)
  let after := draft.drop (selectionStop draft selection)
  let multiline := text.contains newline
  let leading :=
    if before = [] ∨ endsSeparated multiline before then [] else separator multiline
  let trailing :=
    if after = [] ∨ startsSeparated multiline after then [] else separator multiline
  let inserted := leading ++ text ++ trailing
  let cursor : ℤ := before.length + inserted.length
  { value := before ++ inserted ++ after
    selection := ⟨cursor, cursor⟩
    before := before ++ leading
    after := trailing ++ after }

/-- The review that `transcribe` keeps. -/
def Inserted.review (inserted : Inserted) (rawText suggestedText : JsString) : Review :=
  { rawText, suggestedText, before := inserted.before, after := inserted.after }

def voiceDraftSegment (draft : JsString) (review : Review) : Option JsString :=
  if !review.before.isPrefixOf draft || !review.after.isSuffixOf draft then none
  else
    -- the end of the slice is `undefined` if the difference is 0
    match draft.length - review.after.length with
    | 0 => some (draft.drop review.before.length)
    | stop => some ((draft.take stop).drop review.before.length)

def restoreRawVoiceDraft (draft : JsString) (review : Review) : Option Restored :=
  match voiceDraftSegment draft review with
  | none => none
  | some _ =>
    let cursor : ℤ := review.before.length + review.rawText.length
    some
      { value := review.before ++ review.rawText ++ review.after, selection := ⟨cursor, cursor⟩ }

end LearningPlatform.VoiceDraft
