import LearningPlatform.Shared.JsText
import LearningPlatform.Shared.Pattern

/-! # Formats of messages

`web/src/lib/messageFormat.ts` and the parser of `mobile/src/lib/message-format.ts`: the document
of the editor is written as Markdown, normalized, and parsed into the blocks that a reader sees. -/

namespace LearningPlatform.MessageFormat

open Shared JsText

def backtick : UInt16 := 96

/-- What stands around code. -/
def fence : JsString :=
  [backtick, backtick, backtick]

inductive MessageBlock
  | paragraph (text : JsString)
  | bulletList (items : List JsString)
  | orderedList (items : List JsString)
  | blockquote (text : JsString)
  | code (code language : JsString)
  | spacer
  deriving DecidableEq, Repr

/-! ## The line machine -/

inductive ListType
  | bulletList
  | orderedList
  deriving DecidableEq, Repr

def ListType.block : ListType → List JsString → MessageBlock
  | bulletList, items => .bulletList items
  | orderedList, items => .orderedList items

/-- A match of the fence pattern, with what follows it. -/
structure FenceMatch where
  language : JsString
  code : JsString
  rest : JsString
  deriving DecidableEq, Repr

/-- The regular expressions of a parser: for fences at the start of a text, and for lines, with the
group of a line that is matched. -/
structure Patterns where
  fence : JsString → Option FenceMatch
  bullet : JsString → Option JsString
  ordered : JsString → Option JsString
  quote : JsString → Option JsString

/-- The blocks and the buffers of `appendTextBlocks`. -/
structure LineState where
  blocks : List MessageBlock
  paragraph : List JsString := []
  listType : Option ListType := none
  listItems : List JsString := []
  quoteLines : List JsString := []

namespace LineState

variable (s : LineState)

def flushParagraph : LineState :=
  let value := trim (unlines s.paragraph)
  { s with
    blocks := if value = [] then s.blocks else s.blocks ++ [.paragraph value]
    paragraph := [] }

def flushList : LineState :=
  { s with
    blocks :=
      match s.listType with
      | none => s.blocks
      | some listType =>
        if s.listItems = [] then s.blocks else s.blocks ++ [listType.block s.listItems]
    listType := none
    listItems := [] }

def flushQuote : LineState :=
  let value := trim (unlines s.quoteLines)
  { s with
    blocks := if value = [] then s.blocks else s.blocks ++ [.blockquote value]
    quoteLines := [] }

def flushAll : LineState :=
  s.flushParagraph.flushList.flushQuote

def pushSpacer : LineState :=
  if s.blocks = [] ∨ s.blocks.getLast? = some .spacer then s
  else { s with blocks := s.blocks ++ [.spacer] }

/-- An item of a list, which ends a list of the other type. -/
def pushItem (listType : ListType) (item : JsString) : LineState :=
  let s := s.flushParagraph.flushQuote
  let s := if s.listType.isSome && s.listType != some listType then s.flushList else s
  { s with listType := some listType, listItems := s.listItems ++ [trim item] }

def pushQuote (text : JsString) : LineState :=
  let s := s.flushParagraph.flushList
  { s with quoteLines := s.quoteLines ++ [text] }

def pushParagraph (line : JsString) : LineState :=
  let s := s.flushList.flushQuote
  { s with paragraph := s.paragraph ++ [line] }

/-- The body of `lines.forEach`. -/
def appendLine (patterns : Patterns) (s : LineState) (line : JsString) : LineState :=
  if trim line = [] then s.flushAll.pushSpacer
  else
    match patterns.bullet line with
    | some item => s.pushItem .bulletList item
    | none =>
      match patterns.ordered line with
      | some item => s.pushItem .orderedList item
      | none =>
        match patterns.quote line with
        | some text => s.pushQuote text
        | none => s.pushParagraph line

end LineState

def appendTextBlocks (patterns : Patterns) (blocks : List MessageBlock) (text : JsString) :
    List MessageBlock :=
  ((lines (stripNewlines text)).foldl (LineState.appendLine patterns) { blocks }).flushAll.blocks

/-! ## The parser -/

/-- Text between matches, if there is any. -/
def appendGap (patterns : Patterns) (blocks : List MessageBlock) (text : JsString) :
    List MessageBlock :=
  if text = [] then blocks else appendTextBlocks patterns blocks text

def FenceMatch.block (found : FenceMatch) : MessageBlock :=
  .code (stripNewlines found.code) (trim found.language)

/-- The loop of `parseMessageBlocks` over what is behind the cursor; `none` if `fuel` iterations do
not suffice. -/
def parseLoop (patterns : Patterns) : ℕ → List MessageBlock → JsString →
    Option (List MessageBlock)
  | 0, _, _ => none
  | fuel + 1, blocks, rest =>
    match Pattern.exec patterns.fence rest with
    | some (before, found) =>
      parseLoop patterns fuel (appendGap patterns blocks before ++ [found.block]) found.rest
    | none => some (appendGap patterns blocks rest)

/-- The end of `parseMessageBlocks`. -/
def finishBlocks (body : JsString) (blocks : List MessageBlock) : List MessageBlock :=
  match blocks.rdropWhile (· == .spacer) with
  | [] => [.paragraph body]
  | block :: blocks => block :: blocks

def parseBlocks (patterns : Patterns) (fuel : ℕ) (body : JsString) : Option (List MessageBlock) :=
  (parseLoop patterns fuel [] body).map (finishBlocks body)

def isOneOf (text : String) (c : UInt16) : Bool :=
  (ascii text).contains c

namespace Web

/-- The pattern of fences: three backticks, a language, and code up to three backticks or the end
of the text. -/
def fencePattern : JsString → Option FenceMatch :=
  Pattern.literal fence (Pattern.many (fun c => c != newline && c != backtick) fun language =>
    Pattern.optional (· == newline) (Pattern.fewest fun code =>
      Pattern.either (Pattern.literal fence fun rest => some ⟨language, code, rest⟩)
        (Pattern.atEnd ⟨language, code, []⟩)))

/-- `/^\s*[-*]\s+(.+)$/`. -/
def bulletPattern : JsString → Option JsString :=
  Pattern.many isWhitespace fun _ => Pattern.one (isOneOf "-*")
    (Pattern.several isWhitespace fun _ =>
      Pattern.several (!isLineTerminator ·) fun item => Pattern.atEnd item)

/-- `/^\s*\d+[.)]\s+(.+)$/`. -/
def orderedPattern : JsString → Option JsString :=
  Pattern.many isWhitespace fun _ => Pattern.several isDigit fun _ =>
    Pattern.one (isOneOf ".)") (Pattern.several isWhitespace fun _ =>
      Pattern.several (!isLineTerminator ·) fun item => Pattern.atEnd item)

/-- `/^\s*>\s?(.*)$/`. -/
def quotePattern : JsString → Option JsString :=
  Pattern.many isWhitespace fun _ => Pattern.one (isOneOf ">") (Pattern.optional isWhitespace
    (Pattern.many (!isLineTerminator ·) fun text => Pattern.atEnd text))

def patterns : Patterns :=
  ⟨fencePattern, bulletPattern, orderedPattern, quotePattern⟩

def parseMessageBlocks : ℕ → JsString → Option (List MessageBlock) :=
  parseBlocks patterns

end Web

namespace Mobile

/-- The pattern of fences: three backticks, a language, and code up to three backticks or the end
of the text. -/
def fencePattern : JsString → Option FenceMatch :=
  Pattern.literal fence (Pattern.many (fun c => c != newline && c != backtick) fun language =>
    Pattern.optional (· == newline) (Pattern.fewest fun code =>
      Pattern.either (Pattern.literal fence fun rest => some ⟨language, code, rest⟩)
        (Pattern.atEnd ⟨language, code, []⟩)))

/-- `/^\s*[-*]\s+(.+)$/`. -/
def bulletPattern : JsString → Option JsString :=
  Pattern.many isWhitespace fun _ => Pattern.one (isOneOf "-*")
    (Pattern.several isWhitespace fun _ =>
      Pattern.several (!isLineTerminator ·) fun item => Pattern.atEnd item)

/-- `/^\s*\d+[.)]\s+(.+)$/`. -/
def orderedPattern : JsString → Option JsString :=
  Pattern.many isWhitespace fun _ => Pattern.several isDigit fun _ =>
    Pattern.one (isOneOf ".)") (Pattern.several isWhitespace fun _ =>
      Pattern.several (!isLineTerminator ·) fun item => Pattern.atEnd item)

/-- `/^\s*>\s?(.*)$/`. -/
def quotePattern : JsString → Option JsString :=
  Pattern.many isWhitespace fun _ => Pattern.one (isOneOf ">") (Pattern.optional isWhitespace
    (Pattern.many (!isLineTerminator ·) fun text => Pattern.atEnd text))

def patterns : Patterns :=
  ⟨fencePattern, bulletPattern, orderedPattern, quotePattern⟩

def parseMessageBlocks : ℕ → JsString → Option (List MessageBlock) :=
  parseBlocks patterns

end Mobile

/-! ## Normalization -/

/-- A line that starts or ends code, by the pattern of spaces and three backticks. -/
def isFenceLine (line : JsString) : Bool :=
  (Pattern.many isWhitespace (fun _ => Pattern.literal fence fun _ => some ()) line).isSome

/-- `/^\s*(?:[-*]|\d+[.)])\s*$/`. -/
def isEmptyMarker (line : JsString) : Bool :=
  let toEnd : JsString → Option Unit := Pattern.many isWhitespace fun _ => Pattern.atEnd ()
  (Pattern.many isWhitespace (fun _ => Pattern.either (Pattern.one (isOneOf "-*") toEnd)
    (Pattern.several isDigit fun _ => Pattern.one (isOneOf ".)") toEnd)) line).isSome

/-- The lines that the filter keeps, in or outside a fence. -/
def keptLines : Bool → List JsString → List JsString
  | _, [] => []
  | insideCodeFence, line :: rest =>
    if isFenceLine line then line :: keptLines (!insideCodeFence) rest
    else if insideCodeFence || !isEmptyMarker line then line :: keptLines insideCodeFence rest
    else keptLines insideCodeFence rest

def normalizeMessageMarkdown (body : JsString) : JsString :=
  trim (collapseNewlines (unlines (keptLines false (lines (joinLineEnds body)))))

/-! ## Documents of the editor -/

/-- The marks of a text; an `href` that is missing is empty. -/
inductive Mark
  | bold
  | italic
  | underline
  | strike
  | code
  | link (href : JsString)
  | other
  deriving DecidableEq, Repr

inductive NodeType
  | doc
  | paragraph
  | hardBreak
  | codeBlock
  | blockquote
  | bulletList
  | orderedList
  | listItem
  | other
  deriving DecidableEq, Repr

/-- `JSONContent`; fields that are missing are empty. -/
inductive JSONContent
  | text (text : JsString) (marks : List Mark)
  | node (type : NodeType) (content : List JSONContent)

def Mark.apply (value : JsString) : Mark → JsString
  | bold => ascii "**" ++ value ++ ascii "**"
  | italic => ascii "_" ++ value ++ ascii "_"
  | underline => ascii "++" ++ value ++ ascii "++"
  | strike => ascii "~~" ++ value ++ ascii "~~"
  | code => [backtick] ++ value ++ [backtick]
  | link href =>
    ascii "[" ++ value ++ ascii "](" ++ (if href = [] then value else href) ++ ascii ")"
  | other => value

def applyMarks (text : JsString) (marks : List Mark) : JsString :=
  marks.foldl Mark.apply text

/-- The children of an item behind the first, on indented lines. -/
def continuationText (remaining : List JsString) : JsString :=
  unlines ((remaining.filter (· ≠ [])).map fun value =>
    unlines ((lines value).map (ascii "  " ++ ·)))

/-- An item of a list, from what its children are written as. -/
def itemText : List JsString → JsString
  | [] => []
  | firstLine :: remaining =>
    if continuationText remaining = [] then trimEnd firstLine
    else trimEnd (firstLine ++ [newline] ++ continuationText remaining)

def decimal (n : ℕ) : JsString :=
  ascii (toString n)

/-- The lines of a list whose items are not blank. -/
def listText (ordered : Bool) (items : List JsString) : JsString :=
  unlines ((items.filter fun item => trim item ≠ []).mapIdx fun index item =>
    (if ordered then decimal (index + 1) ++ ascii "." else ascii "-") ++ ascii " " ++ item)

/-- A node, from what its children are written as. -/
def nodeText (children : List JsString) : NodeType → JsString
  | .doc => trim ((ascii "\n\n").intercalate children)
  | .hardBreak => [newline]
  | .codeBlock => fence ++ [newline] ++ children.flatten ++ [newline] ++ fence
  | .blockquote => unlines ((lines (unlines children)).map (ascii "> " ++ ·))
  | _ => children.flatten

mutual

/-- `editorJsonToMarkdown` of a node. -/
def nodeMarkdown : JSONContent → JsString
  | .text text marks => applyMarks text marks
  | .node .bulletList content => listText false (itemsMarkdown content)
  | .node .orderedList content => listText true (itemsMarkdown content)
  | .node type content => nodeText (contentMarkdown content) type

def contentMarkdown : List JSONContent → List JsString
  | [] => []
  | child :: rest => nodeMarkdown child :: contentMarkdown rest

/-- The items of `serializeList`. -/
def itemsMarkdown : List JSONContent → List JsString
  | [] => []
  | .text _ _ :: rest => itemText [] :: itemsMarkdown rest
  | .node _ content :: rest => itemText (contentMarkdown content) :: itemsMarkdown rest

end

def editorJsonToMarkdown : Option JSONContent → JsString
  | none => []
  | some node => nodeMarkdown node

end LearningPlatform.MessageFormat
