import LearningPlatform.Model.Mentions
import LearningPlatform.Model.MessageFormat

/-! # Inline formats

`formatInline` of the web page (`Messages.tsx`) and of the mobile app (`formatted-message.tsx`), and
the links that they make. -/

namespace LearningPlatform.InlineFormat

open Shared JsText Mentions

inductive Style
  | strong
  | em
  | del
  | u
  deriving DecidableEq, Repr

/-- What is shown; a link whose target is refused is shown without one. -/
inductive InlineNode
  | text (text : JsString)
  | mention (text : JsString)
  | code (text : JsString)
  | styled (style : Style) (children : List InlineNode)
  | link (href : JsString) (children : List InlineNode)
  | unlinked (children : List InlineNode)

/-- A link in a text: the label and the target of a Markdown link, or an address. -/
inductive InlineLink
  | markdown (label target : JsString)
  | bare (href : JsString)
  deriving DecidableEq, Repr

/-! ## Tokens -/

/-- A text that is not empty and has no `mark`, between two delimiters; the end and the text. -/
def delimitedAt (delimiter : JsString) (mark : UInt16) (text : JsString) (index : ℕ) :
    Option (ℕ × JsString) :=
  let rest := text.drop index
  let inner := (rest.drop delimiter.length).takeWhile (· != mark)
  if delimiter.isPrefixOf rest ∧ inner ≠ [] ∧
      delimiter.isPrefixOf (rest.drop (delimiter.length + inner.length)) then
    some (index + (delimiter.length + inner.length + delimiter.length), inner)
  else none

variable (text : JsString)

/-- The pattern of code: a text between backticks. -/
def codeAt (index : ℕ) : Option (ℕ × JsString) :=
  delimitedAt [MessageFormat.backtick] MessageFormat.backtick text index

def Style.delimiter : Style → JsString
  | strong => ascii "**"
  | em => ascii "_"
  | del => ascii "~~"
  | u => ascii "++"

def Style.mark : Style → UInt16
  | strong => 42
  | em => 95
  | del => 126
  | u => 43

def styledAt (index : ℕ) (style : Style) : Option (ℕ × Style × JsString) :=
  (delimitedAt style.delimiter style.mark text index).map fun (stop, inner) => (stop, style, inner)

/-- `/(\*\*[^*]+\*\*|_[^_]+_|~~[^~]+~~|\+\+[^+]+\+\+)/`. -/
def formatAt (index : ℕ) : Option (ℕ × Style × JsString) :=
  [.strong, .em, .del, .u].findSome? (styledAt text index)

/-- A text of ASCII characters in either case. -/
def startsWithIgnoringCase (front : String) (text : JsString) : Bool :=
  (ascii front).isPrefixOf (text.map asciiLower)

/-- The length of `https?:\/\/` or `www\.` at the start of a text. -/
def addressStart : Option ℕ :=
  if startsWithIgnoringCase "https://" text then some 8
  else if startsWithIgnoringCase "http://" text then some 7
  else if startsWithIgnoringCase "www." text then some 4
  else none

/-- `/https?:\/\/[^\s<]+|www\.[^\s<]+/i`. -/
def addressAt (index : ℕ) : Option (ℕ × InlineLink) :=
  (addressStart (text.drop index)).bind fun length =>
    let rest := (text.drop (index + length)).takeWhile fun c => !isWhitespace c && c != 60
    if rest = [] then none
    else
      let stop := index + length + rest.length
      some (stop, .bare (between text index stop))

/-- `/\[([^\]]+)\]\(/`; the end and the label. -/
def openerAt (index : ℕ) : Option (ℕ × JsString) :=
  let label := (text.drop (index + 1)).takeWhile (· != 93)
  let stop := index + 1 + label.length
  if text[index]? = some 91 ∧ label ≠ [] ∧ (ascii "](").isPrefixOf (text.drop stop) then
    some (stop + 2, label)
  else none

/-- `/\[([^\]]+)\]\(([^)\s]+)\)/`. -/
def plainLinkAt (index : ℕ) : Option (ℕ × InlineLink) :=
  (openerAt text index).bind fun (start, label) =>
    let target := (text.drop start).takeWhile fun c => c != 41 && !isWhitespace c
    if target ≠ [] ∧ text[start + target.length]? = some 41 then
      some (start + target.length + 1, .markdown label target)
    else none

/-- `nestedFormatPattern.test`. -/
def testNestedFormat : Bool :=
  (List.range text.length).any fun index =>
    (formatAt text index).isSome || (codeAt text index).isSome ||
      (plainLinkAt text index).isSome || (addressStart (text.drop index)).isSome

/-! ## Targets of links -/

/-- The loop of `splitTrailingUrlPunctuation`, from the end. -/
def stripPunctuation : JsString → JsString → JsString × JsString
  | [], trailing => ([], trailing)
  | c :: rest, trailing =>
    if (ascii ".,!?;:").contains c then stripPunctuation rest (c :: trailing)
    else ((c :: rest).reverse, trailing)

/-- The address and what is behind it. -/
def splitTrailingUrlPunctuation (value : JsString) : JsString × JsString :=
  let (href, trailing) := stripPunctuation value.reverse []
  if href.getLast? = some 41 ∧ !href.contains 40 then (href.dropLast, 41 :: trailing)
  else (href, trailing)

def isAlphanumeric (c : UInt16) : Bool :=
  isDigit c || (97 ≤ asciiLower c && asciiLower c ≤ 122)

/-- `[a-z0-9](?:[a-z0-9-]{0,61}[a-z0-9])?`. -/
def isDomainLabel (label : JsString) : Bool :=
  label ≠ [] && label.length ≤ 63 && label.all (fun c => isAlphanumeric c || c == 45) &&
    label.head?.all isAlphanumeric && label.getLast?.all isAlphanumeric

/-- The first group of the pattern of bare domains. -/
def bareDomain : Option JsString :=
  let domain := text.takeWhile (!(ascii "/?#").contains ·)
  let labels := domain.splitOn 46
  if 2 ≤ labels.length ∧ labels.all isDomainLabel ∧
      (text.drop domain.length).all (!isLineTerminator ·) then
    some domain
  else none

/-- The last label of a domain does not look like the extension of a file. -/
def hasTopLevelDomain (extensions : List String) (domain : JsString) : Bool :=
  let tld := ((domain.splitOn 46).getLast?.getD []).map asciiLower
  2 ≤ tld.length && tld.length ≤ 24 && tld.all (fun c => 97 ≤ c && c ≤ 122) &&
    !(extensions.map ascii).contains tld

/-! ## The renderer -/

/-- What the two renderers do differently. -/
structure InlineRules where
  /-- The links of a chunk. -/
  links : JsString → Option (List (Span InlineLink))
  /-- The address that a target stands for, if it is accepted. -/
  normalize : JsString → Option (Option JsString)
  /-- A text outside formats. -/
  plain : JsString → Option (List InlineNode)
  /-- `formatInline` is called for a text inside a format or a label. -/
  isNested : JsString → Option Bool
  /-- A text inside a format for which it is not called. -/
  leaf : JsString → Option (List InlineNode)

/-- The nodes of a list of parts. -/
def collect {α : Type} (nodes : α → Option (List InlineNode)) (parts : List α) :
    Option (List InlineNode) :=
  (parts.mapM nodes).map List.flatten

/-- A piece that starts and ends with the delimiters of a style, and `slice` of it. -/
def classify (piece : JsString) : Option (Style × JsString) :=
  [Style.strong, .em, .del, .u].findSome? fun style =>
    if style.delimiter.isPrefixOf piece && style.delimiter.isSuffixOf piece then
      some (style, between piece style.delimiter.length (piece.length - style.delimiter.length))
    else none

section Renderer

variable (rules : InlineRules) (nested : JsString → Option (List InlineNode))

def formatPiece (piece : JsString) : Option (List InlineNode) :=
  match classify piece with
  | some (style, inner) => (nested inner).map fun children => [.styled style children]
  | none => rules.plain piece

def appendFormattedText (chunk : JsString) : Option (List InlineNode) :=
  (scanAll (formatAt chunk) chunk.length).bind fun spans =>
    collect (fun piece => formatPiece rules nested (piece.text chunk)) (pieces chunk.length 0 spans)

/-- `renderLinkNode` and `appendLink`. -/
def linkNode (target : JsString) (children : List InlineNode) : Option InlineNode :=
  (rules.normalize target).map fun href =>
    match href with
    | some href => .link href children
    | none => .unlinked children

def linkNodes : InlineLink → Option (List InlineNode)
  | .markdown label target => do
    let children ← nested label
    let node ← linkNode rules target children
    return [node]
  | .bare address => do
    let (href, trailing) := splitTrailingUrlPunctuation address
    let node ← linkNode rules href [.text href]
    return if trailing = [] then [node] else [node, .text trailing]

def appendTextWithLinks (chunk : JsString) : Option (List InlineNode) :=
  (rules.links chunk).bind fun spans =>
    collect (fun piece =>
      match piece.value with
      | some link => linkNodes rules nested link
      | none => appendFormattedText rules nested (piece.text chunk)) (pieces chunk.length 0 spans)

/-- The loop of `formatInline` over code. -/
def appendTextWithCode (text : JsString) : Option (List InlineNode) :=
  (scanAll (codeAt text) text.length).bind fun spans =>
    collect (fun piece =>
      match piece.value with
      | some code => some [.code code]
      | none => appendTextWithLinks rules nested (piece.text text)) (pieces text.length 0 spans)

/-- The body of `formatInline`. -/
def formatText (text : JsString) : Option (List InlineNode) :=
  (appendTextWithCode rules nested text).bind fun nodes =>
    if nodes.isEmpty then rules.plain text else some nodes

end Renderer

/-- `renderNestedInline`, where `format` is `formatInline`. -/
def renderNestedInline (rules : InlineRules) (format : JsString → Option (List InlineNode))
    (value : JsString) : Option (List InlineNode) :=
  (rules.isNested value).bind fun nested => if nested then format value else rules.leaf value

/-- `formatInline`; `none` if it is nested more than `fuel` times. -/
def formatInline (rules : InlineRules) : ℕ → JsString → Option (List InlineNode)
  | 0, _ => none
  | fuel + 1, text =>
    formatText rules (renderNestedInline rules (formatInline rules fuel)) text

def blockTexts : MessageFormat.MessageBlock → List JsString
  | .paragraph text | .blockquote text => [text]
  | .bulletList items | .orderedList items => items
  | .code _ _ | .spacer => []

/-- The inline nodes of a message, from its blocks. -/
def formatMessage (rules : InlineRules)
    (parse : ℕ → JsString → Option (List MessageFormat.MessageBlock)) (fuel : ℕ) (body : JsString) :
    Option (List InlineNode) :=
  if body = [] then some []
  else
    (parse fuel body).bind fun blocks =>
      collect (formatInline rules fuel) (blocks.flatMap blockTexts)

namespace Web

/-- `COMMON_FILE_EXTENSIONS`. -/
def fileExtensions : List String :=
  ["css", "gif", "htm", "html", "jpeg", "jpg", "js", "json", "md", "pdf", "php", "png", "py", "rb",
    "svg", "ts", "tsx", "txt", "webp", "yaml", "yml", "zip"]

/-- `normalizeLinkHref`; nothing where it returns the empty string. -/
def normalizeLinkHref (value : JsString) : Option JsString :=
  let trimmed := trim value
  if trimmed = [] then none
  else if startsWithIgnoringCase "http://" trimmed || startsWithIgnoringCase "https://" trimmed ||
      startsWithIgnoringCase "mailto:" trimmed then
    some trimmed
  else if startsWithIgnoringCase "www." trimmed then some (ascii "https://" ++ trimmed)
  else
    (bareDomain trimmed).bind fun domain =>
      if hasTopLevelDomain fileExtensions domain then some (ascii "https://" ++ trimmed) else none

/-- `linkPattern`. -/
def linkAt (text : JsString) (index : ℕ) : Option (ℕ × InlineLink) :=
  plainLinkAt text index <|> addressAt text index

def textNode : Option Mentions.Web.MentionKind × JsString → InlineNode
  | (some _, text) => .mention text
  | (none, text) => .text text

/-- The nodes of `renderTextWithMentions`. -/
def textNodes (rules : CaseRules) (patterns : List Mentions.Web.MentionPattern) (text : JsString) :
    Option (List InlineNode) :=
  (Mentions.Web.renderTextWithMentions rules patterns text).map (List.map textNode)

def rules (case : CaseRules) (patterns : List Mentions.Web.MentionPattern) : InlineRules where
  links chunk := scanAll (linkAt chunk) chunk.length
  normalize target := some (normalizeLinkHref target)
  plain := textNodes case patterns
  isNested value := (Mentions.Web.findMentionMatches case patterns value).map fun found =>
    testNestedFormat value || !found.isEmpty
  leaf value := some [.text value]

end Web

namespace Mobile

/-- `COMMON_FILE_EXTENSIONS`. -/
def fileExtensions : List String :=
  ["css", "csv", "doc", "docx", "gif", "html", "jpeg", "jpg", "js", "json", "md", "pdf", "php",
    "png", "py", "rb", "svg", "ts", "tsx", "txt", "webp", "yaml", "yml", "zip"]

/-- What `new URL` gives. -/
structure Url where
  protocol : JsString
  href : JsString
  deriving DecidableEq, Repr

variable (text : JsString)

/-- `/^mailto:[^\s@]+@[^\s@]+$/i`. -/
def isMailAddress : Bool :=
  let address := text.drop 7
  let user := address.takeWhile fun c => !isWhitespace c && c != atSign
  let host := address.drop (user.length + 1)
  startsWithIgnoringCase "mailto:" text && user ≠ [] && address[user.length]? == some atSign &&
    host ≠ [] && host.all fun c => !isWhitespace c && c != atSign

/-- `normalizeMessageLink`; `none` if it calls itself more than `fuel` times. -/
def normalizeMessageLink (newURL : JsString → Option Url) : ℕ → JsString → Option (Option JsString)
  | 0, _ => none
  | fuel + 1, value =>
    let trimmed := trim value
    if trimmed = [] then some none
    else if isMailAddress trimmed then some (some trimmed)
    else if startsWithIgnoringCase "http://" trimmed ||
        startsWithIgnoringCase "https://" trimmed then
      some ((newURL trimmed).bind fun url =>
        if url.protocol = ascii "https:" ∨ url.protocol = ascii "http:" then some url.href
        else none)
    else if startsWithIgnoringCase "www." trimmed then
      normalizeMessageLink newURL fuel (ascii "https://" ++ trimmed)
    else
      match bareDomain trimmed with
      | none => some none
      | some domain =>
        if hasTopLevelDomain fileExtensions domain then
          normalizeMessageLink newURL fuel (ascii "https://" ++ trimmed)
        else some none

/-- The inner loop of `nextMarkdownLink`: the target up to the parenthesis that closes the first. -/
def targetFrom : ℕ → JsString → JsString → Option JsString
  | _, _, [] => none
  | depth, target, c :: rest =>
    if isWhitespace c then none
    else if c = 40 then targetFrom (depth + 1) (target ++ [c]) rest
    else if c = 41 then
      if depth = 1 then some target else targetFrom (depth - 1) (target ++ [c]) rest
    else targetFrom depth (target ++ [c]) rest

/-- A Markdown link whose opener stands at an index. -/
def markdownLinkAt (index : ℕ) : Option (ℕ × InlineLink) :=
  (openerAt text index).bind fun (start, label) =>
    (targetFrom 1 [] (text.drop start)).map fun target =>
      (start + target.length + 1, .markdown label target)

/-- The first position from a start on at which something is found. -/
def nextFrom (linkAt : ℕ → Option (ℕ × InlineLink)) (size start : ℕ) : Option (Span InlineLink) :=
  ((List.range' start (size - start)).find? fun index => (linkAt index).isSome).bind fun index =>
    (linkAt index).map fun (stop, link) => ⟨index, stop, link⟩

/-- `nextMarkdownLink`, which tries every opener in turn. -/
def nextMarkdownLink (start : ℕ) : Option (Span InlineLink) :=
  nextFrom (markdownLinkAt text) text.length start

/-- `opener.exec`: the first opener from `lastIndex` on, with its end and its label. -/
def execOpener (lastIndex : ℕ) : Option (ℕ × ℕ × JsString) :=
  (List.range' lastIndex (text.length - lastIndex)).findSome? fun index =>
    (openerAt text index).map fun (stop, label) => (index, stop, label)

/-- The outer loop of `nextMarkdownLink`, which goes back to the character behind an opener without
a target; `none` if `fuel` turns do not suffice. -/
def markdownLinkLoop (text : JsString) : ℕ → ℕ → Option (Option (Span InlineLink))
  | 0, _ => none
  | fuel + 1, lastIndex =>
    match execOpener text lastIndex with
    | none => some none
    | some (index, start, label) =>
      match targetFrom 1 [] (text.drop start) with
      | some target => some (some ⟨index, start + target.length + 1, .markdown label target⟩)
      | none => markdownLinkLoop text fuel (index + 1)

def nextInlineLink (start : ℕ) : Option (Span InlineLink) :=
  match nextMarkdownLink text start, nextFrom (addressAt text) text.length start with
  | some markdown, some bare => if markdown.start ≤ bare.start then some markdown else some bare
  | some markdown, none => some markdown
  | none, bare => bare

/-- The loop of `appendTextWithLinks` over the links; `none` if `fuel` turns do not suffice. -/
def linkLoop (chunk : JsString) : ℕ → ℕ → Option (List (Span InlineLink))
  | 0, _ => none
  | fuel + 1, cursor =>
    match nextInlineLink chunk cursor with
    | none => some []
    | some link => (linkLoop chunk fuel link.stop).map (link :: ·)

/-- `/@everyone(?![\p{L}\p{N}_’'-])/iu`. -/
def everyoneAt (rules : CaseRules) (text : List JsString) (index : ℕ) : Option (ℕ × Unit) :=
  if Mentions.Mobile.standsAt rules text index (ascii "@everyone") then some (index + 9, ())
  else none

def partNode (rules : CaseRules) (part : JsString) : InlineNode :=
  if rules.toLowerCase part = ascii "@everyone" then .mention part else .text part

/-- A segment that is not flagged, split at `@everyone`. -/
def segmentNodes (rules : CaseRules) (segment : JsString) : Option (List InlineNode) :=
  let text := Mentions.Mobile.characters segment
  (scanAll (everyoneAt rules text) text.length).map fun spans =>
    (pieces text.length 0 spans).map fun piece => partNode rules (piece.text text).flatten

def renderSegment (rules : CaseRules) (segment : Mentions.Mobile.MessageSegment) :
    Option (List InlineNode) :=
  if segment.mention then some [.mention segment.text] else segmentNodes rules segment.text

def renderMentions (rules : CaseRules) (users : List Mentions.User) (text : JsString) :
    Option (List InlineNode) :=
  (Mentions.Mobile.messageSegments rules text users).bind fun segments =>
    collect (renderSegment rules) segments

def rules (case : CaseRules) (newURL : JsString → Option Url) (users : List Mentions.User) :
    InlineRules where
  links chunk := linkLoop chunk (chunk.length + 1) 0
  normalize target := normalizeMessageLink newURL 2 target
  plain := renderMentions case users
  isNested value := some (testNestedFormat value)
  leaf := renderMentions case users

end Mobile

end LearningPlatform.InlineFormat
