import Mathlib.Data.List.DropRight
import Mathlib.Data.Nat.Notation

/-! # Texts of ECMAScript

Strings as sequences of UTF-16 code units. -/

namespace LearningPlatform.Shared

abbrev JsString := List UInt16

namespace JsText

def ascii (text : String) : JsString :=
  text.toList.map fun c => UInt16.ofNat c.toNat

def newline : UInt16 := 10

/-- The code units that `\s` matches and that `trim` removes. -/
def isWhitespace (c : UInt16) : Bool :=
  (9 ≤ c && c ≤ 13) || c == 32 || c == 0xa0 || c == 0x1680 || (0x2000 ≤ c && c ≤ 0x200a) ||
    c == 0x2028 || c == 0x2029 || c == 0x202f || c == 0x205f || c == 0x3000 || c == 0xfeff

/-- The code units that end a line, which `.` does not match. -/
def isLineTerminator (c : UInt16) : Bool :=
  c == newline || c == 13 || c == 0x2028 || c == 0x2029

/-- The code units that `\d` matches. -/
def isDigit (c : UInt16) : Bool :=
  48 ≤ c && c ≤ 57

/-- A capital letter of ASCII as a small one. -/
def asciiLower (c : UInt16) : UInt16 :=
  if 65 ≤ c && c ≤ 90 then c + 32 else c

variable (text : JsString)

def trimStart : JsString :=
  text.dropWhile isWhitespace

def trimEnd : JsString :=
  text.rdropWhile isWhitespace

def trim : JsString :=
  trimEnd (trimStart text)

/-- `split('\n')`. -/
def lines : List JsString :=
  text.splitOn newline

/-- `join('\n')`. -/
def unlines (texts : List JsString) : JsString :=
  [newline].intercalate texts

/-- `replace(/^\n+|\n+$/g, '')`. -/
def stripNewlines : JsString :=
  (text.dropWhile (· == newline)).rdropWhile (· == newline)

/-- `replace(/\r\n/g, '\n')`. -/
def joinLineEnds : JsString → JsString
  | [] => []
  | [c] => [c]
  | c :: d :: rest =>
    if c = 13 ∧ d = newline then newline :: joinLineEnds rest else c :: joinLineEnds (d :: rest)

/-- Runs of newlines cut after the second, behind `run` newlines. -/
def cutRuns : ℕ → JsString → JsString
  | _, [] => []
  | run, c :: rest =>
    if c = newline then
      if run < 2 then newline :: cutRuns (run + 1) rest else cutRuns run rest
    else c :: cutRuns 0 rest

/-- `replace(/\n{3,}/g, '\n\n')`. -/
def collapseNewlines : JsString :=
  cutRuns 0 text

end JsText

end LearningPlatform.Shared
