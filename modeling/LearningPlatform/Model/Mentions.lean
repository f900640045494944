import LearningPlatform.Shared.JsText
import LearningPlatform.Shared.Scan
import LearningPlatform.Shared.Window

/-! # Mentions

How the web page (`Messages.tsx`) and the mobile app (`lib/mentions.ts`) find the names of users in
the body of a message. -/

namespace LearningPlatform.Mentions

open Shared JsText

def atSign : UInt16 := 64

/-- The rules of the platform for letters. -/
structure CaseRules where
  /-- `toLowerCase`. -/
  toLowerCase : JsString → JsString
  /-- The code units that a pattern with the flag `i` takes for one. -/
  canonicalize : UInt16 → UInt16
  /-- The characters that a pattern with the flags `iu` takes for one. -/
  fold : JsString → JsString
  /-- The characters of `[\p{L}\p{N}_’'-]`. -/
  isNameCharacter : JsString → Bool
  toLowerCase_eq_nil : ∀ text, toLowerCase text = [] → text = []
  toLowerCase_atSign : ∀ text, toLowerCase (atSign :: text) = atSign :: toLowerCase text
  toLowerCase_append_space : ∀ text rest, toLowerCase (text ++ 32 :: rest) ≠ toLowerCase text
  length_fold : ∀ character, (fold character).length = character.length
  isNameCharacter_space : isNameCharacter [32] = false

/-- The rules for texts of ASCII characters. -/
def asciiRules : CaseRules where
  toLowerCase := List.map asciiLower
  canonicalize := asciiLower
  fold := List.map asciiLower
  isNameCharacter character :=
    character.any fun c => isDigit c || (97 ≤ asciiLower c && asciiLower c ≤ 122) ||
      (ascii "_'-").contains c
  toLowerCase_eq_nil _ := List.map_eq_nil_iff.mp
  toLowerCase_atSign _ := rfl
  toLowerCase_append_space text rest h := by
    have hlength := congrArg List.length h
    simp at hlength
  length_fold _ := List.length_map _
  isNameCharacter_space := by decide

structure User where
  id : ℕ
  fullName : JsString
  deriving DecidableEq, Repr

namespace Web

inductive MentionKind
  | channel
  | user
  deriving DecidableEq, Repr

structure MentionPattern where
  label : JsString
  normalized : JsString
  kind : MentionKind
  deriving DecidableEq, Repr

/-- The kind and the text of a match; its bounds are those of its span. -/
structure Mention where
  kind : MentionKind
  text : JsString
  deriving DecidableEq, Repr

/-- `/[\s([{'"“‘>]/`. -/
def isStartMark (c : UInt16) : Bool :=
  isWhitespace c || (ascii "([\x7b'\">" ++ [0x201c, 0x2018]).contains c

/-- `/[\s)\]}.,!?;:'"”’]/`. -/
def isEndMark (c : UInt16) : Bool :=
  isWhitespace c || (ascii ")]\x7d.,!?;:'\"" ++ [0x201d, 0x2019]).contains c

/-- `/\w/`. -/
def isWordUnit (c : UInt16) : Bool :=
  isDigit c || (65 ≤ c && c ≤ 90) || (97 ≤ c && c ≤ 122) || c == 95

def isMentionStartBoundary (text : JsString) (index : ℕ) : Bool :=
  index == 0 || text[index - 1]?.any isStartMark

def isMentionEndBoundary (char : Option UInt16) : Bool :=
  char.all isEndMark

section Rules

variable (rules : CaseRules)

/-! ## Notified users -/

/-- The part of the pattern behind the first group, at the at-sign. -/
def namesAt (body name : JsString) (index : ℕ) : Bool :=
  body[index]? == some atSign &&
    (between body (index + 1) (index + 1 + name.length)).map rules.canonicalize ==
      name.map rules.canonicalize &&
    isMentionEndBoundary body[index + 1 + name.length]?

/-- The pattern is tried at every index; its first group is the start of the body or a code unit
that is not in a word. -/
def messageContainsMention (body fullName : JsString) : Bool :=
  let trimmed := trim fullName
  !trimmed.isEmpty && (List.range (body.length + 1)).any fun index =>
    (index == 0 && namesAt rules body trimmed index) ||
      (body[index]?.any (!isWordUnit ·) && namesAt rules body trimmed (index + 1))

def normalizedName (user : User) : JsString :=
  rules.toLowerCase (trim user.fullName)

def nameCount (users : List User) (normalized : JsString) : ℕ :=
  (users.filter fun user => normalizedName rules user = normalized ∧ normalized ≠ []).length

/-- The body of `mentionableUsers.forEach`. -/
def addMentioned (body : JsString) (users : List User) (resolved : List ℕ) (user : User) : List ℕ :=
  let normalized := normalizedName rules user
  if normalized = [] then resolved
  else if 1 < nameCount rules users normalized then resolved
  else if !messageContainsMention rules body user.fullName then resolved
  else if resolved.contains user.id then resolved
  else resolved ++ [user.id]

def resolveMentionedUserIds (body : JsString) (users : List User) (selectedIds : List ℕ) :
    List ℕ :=
  if trim body = [] then []
  else
    let resolved := selectedIds.filter fun id =>
      (users.reverse.find? (·.id == id)).any fun user =>
        !user.fullName.isEmpty && messageContainsMention rules body user.fullName
    users.foldl (addMentioned rules body users) resolved

/-! ## Highlighted names -/

/-- A label that is added unless it was seen. -/
def addPattern (patterns : List MentionPattern) (label : JsString) : List MentionPattern :=
  let normalized := rules.toLowerCase label
  if patterns.any (·.normalized == normalized) then patterns
  else patterns ++ [⟨label, normalized, .user⟩]

def buildMentionPatterns (names : List JsString) (includeChannel : Bool) : List MentionPattern :=
  let channel : List MentionPattern :=
    if includeChannel then
      [⟨ascii "@everyone", rules.toLowerCase (ascii "@everyone"), .channel⟩]
    else []
  let labels := ((names.map trim).filter (· ≠ [])).map (atSign :: ·)
  (labels.foldl (addPattern rules) channel).insertionSort fun left right =>
    right.label.length ≤ left.label.length

/-- A pattern stands at an index. -/
def fits (text : JsString) (index : ℕ) (pattern : MentionPattern) : Bool :=
  rules.toLowerCase (between text index (index + pattern.label.length)) == pattern.normalized &&
    isMentionEndBoundary text[index + pattern.label.length]?

/-- One turn of the loop of `findMentionMatches`. -/
def readMention (patterns : List MentionPattern) (text : JsString) (index : ℕ) :
    Option (ℕ × Mention) :=
  if text[index]? ≠ some atSign ∨ !isMentionStartBoundary text index then none
  else
    (patterns.find? (fits rules text index)).map fun pattern =>
      (index + pattern.label.length,
        ⟨pattern.kind, between text index (index + pattern.label.length)⟩)

def findMentionMatches (patterns : List MentionPattern) (text : JsString) :
    Option (List (Span Mention)) :=
  scanAll (readMention rules patterns text) text.length

/-- The spans that `renderTextWithMentions` puts around texts; mentions have a kind. -/
def renderTextWithMentions (patterns : List MentionPattern) (text : JsString) :
    Option (List (Option MentionKind × JsString)) :=
  (findMentionMatches rules patterns text).map fun spans =>
    if spans = [] then [(none, text)]
    else
      (pieces text.length 0 spans).map fun piece =>
        (piece.value.map (·.kind), (piece.value.map (·.text)).getD (piece.text text))

end Rules

end Web

namespace Mobile

/-! ## Characters -/

def isHighSurrogate (c : UInt16) : Bool :=
  0xd800 ≤ c && c ≤ 0xdbff

def isLowSurrogate (c : UInt16) : Bool :=
  0xdc00 ≤ c && c ≤ 0xdfff

/-- The characters that a pattern with the flag `u` sees, as the code units of each. -/
def characters : JsString → List JsString
  | [] => []
  | [c] => [[c]]
  | c :: d :: rest =>
    if isHighSurrogate c && isLowSurrogate d then [c, d] :: characters rest
    else [c] :: characters (d :: rest)

/-! ## The composer -/

structure MentionTrigger where
  start : ℕ
  stop : ℕ
  query : JsString
  deriving DecidableEq, Repr

/-- What `@([^@\n]*)$` matches at an index. -/
def queryAt (text : JsString) (index : ℕ) : Option JsString :=
  let query := text.drop (index + 1)
  if text[index]? = some atSign ∧ query.all fun c => c != atSign && c != newline then some query
  else none

/-- `/(?:^|\s)@([^@\n]*)$/`. -/
def triggerQuery (beforeCursor : JsString) : Option JsString :=
  (List.range (beforeCursor.length + 1)).findSome? fun index =>
    (if index = 0 then queryAt beforeCursor index else none) <|>
      if beforeCursor[index]?.any isWhitespace then queryAt beforeCursor (index + 1) else none

def mentionTriggerAt (body : JsString) (cursor : ℕ) : Option MentionTrigger :=
  (triggerQuery (body.take cursor)).bind fun query =>
    if 60 < query.length then none
    else some ⟨cursor - query.length - 1, cursor, query⟩

/-- The `value` of `insertMention`. -/
def insertMention (body : JsString) (trigger : MentionTrigger) (user : User) : JsString :=
  body.take trigger.start ++ atSign :: user.fullName ++ 32 :: body.drop trigger.stop

section Rules

variable (rules : CaseRules)

/-! ## Names in a body -/

def sortedNames (users : List User) : List JsString :=
  ((users.map (·.fullName)).filter (· ≠ [])).insertionSort fun left right =>
    right.length ≤ left.length

/-- A name stands at an index of the characters and is not continued. -/
def standsAt (text : List JsString) (index : ℕ) (name : JsString) : Bool :=
  let stop := index + (characters name).length
  (between text index stop).map rules.fold == (characters name).map rules.fold &&
    !text[stop]?.any rules.isNameCharacter

/-- An at-sign and the first of the names, `@(…|…)(?![\p{L}\p{N}_’'-])`; the end and the name as
it is written. -/
def mentionAt (names : List JsString) (text : List JsString) (index : ℕ) :
    Option (ℕ × JsString) :=
  if text[index]? = some [atSign] then
    (names.find? (standsAt rules text (index + 1))).map fun name =>
      let stop := index + 1 + (characters name).length
      (stop, (between text (index + 1) stop).flatten)
  else none

/-- `[\s([{]`. -/
def isOpening : JsString → Bool
  | [c] => isWhitespace c || (ascii "([\x7b").contains c
  | _ => false

/-- The pattern of `resolveMentionUserIds` at an index. -/
def readMention (names : List JsString) (text : List JsString) (index : ℕ) :
    Option (ℕ × JsString) :=
  (if index = 0 then mentionAt rules names text index else none) <|>
    if text[index]?.any isOpening then mentionAt rules names text (index + 1) else none

def resolveMentionUserIds (body : JsString) (users : List User) : Option (List ℕ) :=
  let names := sortedNames users
  if names = [] then some []
  else
    let text := characters body
    (scanAll (readMention rules names text) text.length).map fun spans =>
      let mentionedNames := spans.map fun span => rules.toLowerCase span.value
      (users.filter fun user =>
        mentionedNames.contains (rules.toLowerCase user.fullName)).map (·.id)

structure MessageSegment where
  text : JsString
  mention : Bool
  deriving DecidableEq, Repr

def messageSegments (body : JsString) (users : List User) : Option (List MessageSegment) :=
  let names := sortedNames users
  if names = [] then some [⟨body, false⟩]
  else
    let text := characters body
    (scanAll (mentionAt rules names text) text.length).map fun spans =>
      (pieces text.length 0 spans).map fun piece =>
        let value := (piece.text text).flatten
        ⟨value, value.head? == some atSign⟩

end Rules

end Mobile

end LearningPlatform.Mentions
