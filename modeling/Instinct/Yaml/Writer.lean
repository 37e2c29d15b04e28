import Instinct.Yaml.Source

/-! # Writing YAML

* **`Block`** — what is written: integers, and mappings from texts.
* **`Block.text`** — one entry on a line, deeper mappings two blanks further in.
* **`keyStyle`** — how a key is written: as it stands if it then reads back as a text, otherwise in
  quotes; a key with line breaks keeps its lines where it can. -/

namespace Instinct.Yaml

/-- **What is written as YAML.** -/
inductive Block where
  | number (n : Int)
  | mapping (entries : List (String × Block))

/-! ## Keys -/

/-- Whether a character can be shown as it is. A tab cannot. -/
def isShown (c : Char) : Bool :=
  let n := c.toNat
  n = 10 || (0x20 ≤ n && n ≤ 0x7E) || (0xA0 ≤ n && n ≤ 0xFFFD && n ≠ 0xFEFF) || 0x10000 ≤ n

/-- Whether `p` holds of two neighbours, in their order. -/
def anyNeighbours (p : Char → Char → Bool) : List Char → Bool
  | c :: d :: cs => p c d || anyNeighbours p (d :: cs)
  | _ => false

/-- Whether a blank stands in front of a line break. -/
def hasBlankBeforeBreak (cs : List Char) : Bool :=
  anyNeighbours (fun c d => c = ' ' && isBreak d) cs

/-- Whether a line starts with a blank, the first one apart. -/
def hasBlankAfterBreak (cs : List Char) : Bool := anyNeighbours (fun c d => isBreak c && d = ' ') cs

/-- Whether the first character of a text would be taken for an indicator. -/
def startsWithIndicator : List Char → Bool
  | [] => false
  | c :: cs =>
    if c = '?' || c = ':' || c = '-' then blankFollows cs else Scan.isIndicator c

/-- Whether a text starts like the mark between documents. -/
def startsWithMark (cs : List Char) : Bool :=
  ['-', '-', '-'].isPrefixOf cs || ['.', '.', '.'].isPrefixOf cs

/-- Whether a colon with nothing behind it, or a number sign with a blank in front, stands behind
the first character. -/
def hasInnerIndicator : List Char → Bool
  | [] => false
  | c :: cs => cs.getLast? = some ':' ||
      anyNeighbours (fun c d => (isBlank c || isBreak c) && d = '#') (c :: cs) ||
      anyNeighbours (fun c d => c = ':' && (isBlank d || isBreak d)) cs

/-- Whether a text can be written as it stands. -/
def canBePlain (cs : List Char) : Bool :=
  cs.all isShown && !cs.any isBreak && cs.head? ≠ some ' ' && cs.getLast? ≠ some ' ' &&
    !startsWithMark cs && !startsWithIndicator cs && !hasInnerIndicator cs

/-- Whether a text can be written in single quotes. -/
def canBeSingle (cs : List Char) : Bool :=
  cs.all isShown && !hasBlankBeforeBreak cs && !hasBlankAfterBreak cs

/-- Whether a text can be written line by line. -/
def canBeLiteral (cs : List Char) : Bool :=
  cs.all isShown && !hasBlankBeforeBreak cs && cs.getLast? ≠ some ' '

/-- How a key is written. -/
inductive KeyStyle where
  | plain
  | single
  | double
  | literal
deriving DecidableEq, Inhabited

/-- **How a key is written.** A text that would be read as something else is quoted. -/
def keyStyle (s : String) : KeyStyle :=
  let cs := s.toList
  if cs.contains '\n' then (if canBeLiteral cs then .literal else .double)
  else if !isTyped s && canBePlain cs then .plain
  else if canBeSingle cs then .single
  else .double

/-- The letter that stands for a character behind a backslash. -/
def escapeLetter (c : Char) : Option Char :=
  ['0', 'a', 'b', 't', 'n', 'v', 'f', 'r', 'e', '"', '\\', 'N', '_', 'L', 'P'].find?
    fun d => escapedChar d = some c

/-- The hexadecimal digits of a code point, filled up with zeros to a width. -/
def codeDigits (width n : Nat) : List Char :=
  let digits := (Nat.toDigits 16 n).map Char.toUpper
  List.replicate (width - digits.length) '0' ++ digits

/-- A character in double quotes. -/
def doubleChar (c : Char) : List Char :=
  if isShown c && !isBreak c && c ≠ '"' && c ≠ '\\' then [c]
  else
    match escapeLetter c with
    | some d => ['\\', d]
    | none =>
      let n := c.toNat
      if n ≤ 0xFF then '\\' :: 'x' :: codeDigits 2 n
      else if n ≤ 0xFFFF then '\\' :: 'u' :: codeDigits 4 n
      else '\\' :: 'U' :: codeDigits 8 n

/-- Blanks up to a column. -/
def blanks (n : Nat) : List Char := List.replicate n ' '

/-- The lines of a text, each moved in to a column; empty lines stay empty. `fresh` says that a line
is about to start. -/
def movedIn (column : Nat) (write : Char → List Char) : (fresh : Bool) → List Char → List Char
  | _, [] => []
  | fresh, c :: cs =>
    if isBreak c then c :: movedIn column write true cs
    else (if fresh then blanks column else []) ++ write c ++ movedIn column write false cs

/-- A character in single quotes. -/
def singleChar (c : Char) : List Char := if c = '\'' then ['\'', '\''] else [c]

/-- The mark that says how many line breaks at the end of a text count. -/
def chompMark (cs : List Char) : List Char :=
  match cs.reverse with
  | [] => ['-']
  | c :: rest =>
    if !isBreak c then ['-']
    else
      match rest with
      | [] => ['+']
      | d :: _ => if isBreak d then ['+'] else []

/-- The mark that gives the width of the margin, for a text that starts with a blank. -/
def marginMark (cs : List Char) : List Char :=
  if cs.head?.any (fun c => c = ' ' || isBreak c) then ['2'] else []

/-- **A key as it is written**, its further lines moved in to a column. -/
def keyChars (column : Nat) (s : String) : List Char :=
  let cs := s.toList
  match keyStyle s with
  | .plain => cs
  | .single =>
    let closing := if cs.getLast?.any isBreak then blanks column else []
    '\'' :: (movedIn column singleChar false cs ++ closing ++ ['\''])
  | .double => '"' :: (cs.flatMap doubleChar ++ ['"'])
  | .literal =>
    '|' :: (marginMark cs ++ chompMark cs ++ '\n' :: movedIn column (fun c => [c]) true cs)

/-- Whether a key and its value can share a line. -/
def isShortKey (s : String) : Bool := !s.toList.any isBreak && s.utf8ByteSize ≤ 128

/-- The line break behind a long key, unless the key ends its line already. -/
def lineEnd (s : String) : List Char :=
  if keyStyle s = .literal && s.toList.getLast?.any isBreak then [] else ['\n']

/-! ## Blocks -/

/-- One entry of a mapping at a column, given the lines of its value at a deeper column. Behind a
long key the value starts on the line of its colon. -/
def entryChars (column : Nat) (key : String) (value : List Char) (inline : Bool) : List Char :=
  if isShortKey key then
    blanks column ++ keyChars (column + 2) key ++
      ':' :: (if inline then ' ' :: value else '\n' :: value)
  else
    blanks column ++ '?' :: ' ' :: (keyChars (column + 2) key ++ lineEnd key ++ blanks column ++
      ':' :: (if inline then ' ' :: value else value.drop (column + 1)))

namespace Block

/-- Whether a value stands on the line of its key. -/
def isInline : Block → Bool
  | number _ => true
  | mapping entries => entries.isEmpty

mutual

/-- The lines of a value whose mapping starts at a column. -/
def chars (column : Nat) : Block → List Char
  | number n => Decimal.intDigits n ++ ['\n']
  | mapping [] => ['{', '}', '\n']
  | mapping (e :: es) => charsOfEntry column e ++ charsOfEntries column es

/-- The lines of an entry. -/
def charsOfEntry (column : Nat) : String × Block → List Char
  | (key, value) => entryChars column key (chars (column + 2) value) value.isInline

/-- The lines of several entries. -/
def charsOfEntries (column : Nat) : List (String × Block) → List Char
  | [] => []
  | e :: es => charsOfEntry column e ++ charsOfEntries column es

end

/-- **The text of a value.** -/
def text (b : Block) : String := String.ofList (b.chars 0)

end Block

end Instinct.Yaml
