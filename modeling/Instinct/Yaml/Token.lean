import Instinct.Yaml.Tag

/-! # YAML tokens

A YAML text is first cut into tokens. Indentation is turned into tokens that open and close blocks,
and a colon behind a value turns that value into a key after the fact.

* **`Yaml.Token`** — the tokens.
* **`Cursor`** — a place in the text.
* **`Folding`** — text under construction, with the blanks and line breaks that are still to be kept
  or folded.
* **`Scan`** — the state of the cutting: tokens so far, indentation, brackets, and which tokens may
  still turn out to be keys.
* **`Token.scan?`** — the tokens of a text; nothing if it cannot be cut. -/

namespace Instinct.Yaml

/-- How a scalar is written. -/
inductive ScalarStyle where
  | plain
  | quoted
  | literal
  | folded
deriving DecidableEq, Inhabited

/-- **The tokens of a YAML text.** -/
inductive Token where
  | streamEnd
  | version (major minor : Nat)
  | tagDirective (handle : String) (stem : Octets)
  | documentStart
  | documentEnd
  | blockSequenceStart
  | blockMappingStart
  | blockEnd
  | flowSequenceStart
  | flowSequenceEnd
  | flowMappingStart
  | flowMappingEnd
  | blockEntry
  | flowEntry
  | key
  | value
  | alias (name : String)
  | anchor (name : String)
  | tag (handle : String) (suffix : Octets)
  | scalar (text : String) (style : ScalarStyle)
deriving DecidableEq, Inhabited

/-! ## Characters -/

/-- Whether a character is a blank or a tab. -/
def isBlank (c : Char) : Bool := c = ' ' || c = '\t'

/-- Whether a character ends a line. -/
def isBreak (c : Char) : Bool :=
  c = '\r' || c = '\n' || c.toNat = 0x85 || c.toNat = 0x2028 || c.toNat = 0x2029

/-- Whether a text ends or a blank or a line break follows. -/
def blankFollows : List Char → Bool
  | [] => true
  | c :: _ => isBlank c || isBreak c

/-- Whether a line ends. -/
def breakFollows : List Char → Bool
  | [] => true
  | c :: _ => isBreak c

/-- Whether a character may stand in a name. -/
def isWordChar (c : Char) : Bool :=
  let n := c.toNat
  (48 ≤ n && n ≤ 57) || (65 ≤ n && n ≤ 90) || (97 ≤ n && n ≤ 122) || c = '_' || c = '-'

/-- Whether a character may stand in a YAML text at all. -/
def isAllowed (c : Char) : Bool :=
  let n := c.toNat
  n = 9 || n = 10 || n = 13 || (0x20 ≤ n && n ≤ 0x7E) || n = 0x85 || (0xA0 ≤ n && n ≤ 0xFFFD) ||
    0x10000 ≤ n

/-- The mark for the order of octets, which may stand at the start of every line. -/
def orderMark : Char := Char.ofNat 0xFEFF

/-! ## Places -/

/-- **A place in the text**, with all that follows. -/
structure Cursor where
  rest : List Char
  /-- How many octets of the text in UTF-8 stand before the place. -/
  offset : Nat
  line : Nat
  /-- How many characters of the line stand before the place. -/
  column : Nat

/-- The number of octets of characters in UTF-8. -/
def octetCount (cs : List Char) : Nat := cs.foldl (fun n c => n + c.utf8Size) 0

namespace Cursor

/-- Go past several characters of the line. -/
def skipMany (c : Cursor) (n : Nat) : Cursor :=
  { c with
    rest := c.rest.drop n
    offset := c.offset + octetCount (c.rest.take n)
    column := c.column + n }

/-- Go past one character of the line. -/
def skip (c : Cursor) : Cursor := c.skipMany 1

/-- Go past a line break, a return and a newline counting as one. The break is given back as it
stands for: every break but two separators of Unicode is a newline. -/
def takeBreak (c : Cursor) : Char × Cursor :=
  let next (b : Char) (n : Nat) : Char × Cursor :=
    (b, { rest := c.rest.drop n, offset := c.offset + octetCount (c.rest.take n)
          line := c.line + 1, column := 0 })
  match c.rest with
  | '\r' :: '\n' :: _ => next '\n' 2
  | b :: _ => if b.toNat = 0x2028 || b.toNat = 0x2029 then next b 1 else next '\n' 1
  | [] => next '\n' 0

/-- Go past blanks and tabs. -/
def skipBlanks (c : Cursor) : Cursor := c.skipMany (c.rest.takeWhile isBlank).length

/-- Go on to the end of the line. -/
def skipLine (c : Cursor) : Cursor := c.skipMany (c.rest.takeWhile (!isBreak ·)).length

/-- Whether a mark that starts or ends a document stands here. -/
def atDocumentMark (c : Cursor) : Bool :=
  c.column = 0 &&
    match c.rest with
    | '-' :: '-' :: '-' :: rest => blankFollows rest
    | '.' :: '.' :: '.' :: rest => blankFollows rest
    | _ => false

end Cursor

/-! ## Folding -/

/-- **Text under construction.** Characters are kept last first. -/
structure Folding where
  text : List Char := []
  /-- Blanks since the last character. -/
  blanks : List Char := []
  /-- The first line break since the last character. -/
  firstBreak : List Char := []
  /-- The line breaks behind the first one. -/
  laterBreaks : List Char := []
  /-- Whether a line was ended since the last character. -/
  broken : Bool := false

namespace Folding

/-- Keep the blanks, or fold the line breaks: a single newline becomes a blank, and of several the
first is dropped. -/
def join (f : Folding) : Folding :=
  if f.broken then
    let kept :=
      if f.firstBreak = ['\n'] then (if f.laterBreaks.isEmpty then [' '] else f.laterBreaks)
      else f.laterBreaks ++ f.firstBreak
    { text := kept ++ f.text }
  else { text := f.blanks ++ f.text }

/-- Whether blanks or line breaks are pending. -/
def pending (f : Folding) : Bool := f.broken || !f.blanks.isEmpty

/-- Add a character. -/
def push (f : Folding) (c : Char) : Folding := { f with text := c :: f.text }

/-- Take note of a blank. Blanks in front of a line are dropped. -/
def addBlank (f : Folding) (c : Char) : Folding :=
  if f.broken then f else { f with blanks := c :: f.blanks }

/-- Take note of a line break. -/
def addBreak (f : Folding) (c : Char) : Folding :=
  if f.broken then { f with laterBreaks := c :: f.laterBreaks }
  else { f with blanks := [], firstBreak := [c], broken := true }

/-- The text that was built. -/
def result (f : Folding) : String := String.ofList f.text.reverse

end Folding

/-! ## Scalars -/

/-- Whether a character ends a plain scalar inside brackets. -/
def isFlowMark (c : Char) : Bool := c = ',' || c = '[' || c = ']' || c = '{' || c = '}'

/-- **A plain scalar.** Outside of brackets its lines are indented by at least `indent`. -/
def scanPlain (flow : Bool) (indent : Nat) : (fuel : Nat) → Cursor → Folding →
    Option (Folding × Cursor)
  | 0, _, _ => none
  | fuel + 1, at', f =>
    match at'.rest with
    | [] => some (f, at')
    | c :: rest =>
      if isBreak c then
        let (b, at') := at'.takeBreak
        scanPlain flow indent fuel at' (f.addBreak b)
      else if isBlank c then
        if f.broken && at'.column < indent && c = '\t' then none
        else scanPlain flow indent fuel at'.skip (f.addBlank c)
      else if f.pending && ((!flow && at'.column < indent) || at'.atDocumentMark || c = '#') then
        some (f, at')
      else if flow && c = ':' && rest.head?.any (fun d => isFlowMark d || d = '?') then none
      else if (c = ':' && blankFollows rest) || (flow && isFlowMark c) then some (f, at')
      else scanPlain flow indent fuel at'.skip (f.join.push c)

/-- The character that an escape of one letter stands for. -/
def escapedChar (c : Char) : Option Char :=
  match c with
  | '0' => some (Char.ofNat 0)
  | 'a' => some (Char.ofNat 7)
  | 'b' => some (Char.ofNat 8)
  | 't' => some '\t'
  | '\t' => some '\t'
  | 'n' => some '\n'
  | 'v' => some (Char.ofNat 11)
  | 'f' => some (Char.ofNat 12)
  | 'r' => some '\r'
  | 'e' => some (Char.ofNat 27)
  | ' ' => some ' '
  | '"' => some '"'
  | '/' => some '/'
  | '\\' => some '\\'
  | 'N' => some (Char.ofNat 0x85)
  | '_' => some (Char.ofNat 0xA0)
  | 'L' => some (Char.ofNat 0x2028)
  | 'P' => some (Char.ofNat 0x2029)
  | _ => none

/-- How many hexadecimal digits follow an escape letter. -/
def escapeLength (c : Char) : Option Nat :=
  match c with
  | 'x' => some 2
  | 'u' => some 4
  | 'U' => some 8
  | _ => none

/-- The character of a code point given in hexadecimal digits. -/
def codePoint? (digits : List Char) : Option Char := do
  let values ← digits.mapM hexValue
  let n := values.foldl (fun n d => 16 * n + d) 0
  if n.isValidChar then some (Char.ofNat n) else none

/-- **A quoted scalar** behind its opening quote. -/
def scanQuoted (single : Bool) : (fuel : Nat) → Cursor → Folding → Option (String × Cursor)
  | 0, _, _ => none
  | fuel + 1, at', f =>
    match at'.rest with
    | [] => none
    | c :: rest =>
      if isBreak c then
        let (b, at') := at'.takeBreak
        scanQuoted single fuel at' (f.addBreak b)
      else if isBlank c then scanQuoted single fuel at'.skip (f.addBlank c)
      else if at'.atDocumentMark then none
      else
        let f := f.join
        if single then
          if c = '\'' then
            if rest.head? = some '\'' then scanQuoted single fuel (at'.skipMany 2) (f.push '\'')
            else some (f.result, at'.skip)
          else scanQuoted single fuel at'.skip (f.push c)
        else if c = '"' then some (f.result, at'.skip)
        else if c = '\\' then
          match rest with
          | [] => none
          | d :: digits =>
            if isBreak d then
              scanQuoted single fuel at'.skip.takeBreak.2 { f with broken := true }
            else
              match escapedChar d, escapeLength d with
              | some e, _ => scanQuoted single fuel (at'.skipMany 2) (f.push e)
              | none, some n =>
                if digits.length < n then none
                else
                  match codePoint? (digits.take n) with
                  | some e => scanQuoted single fuel (at'.skipMany (2 + n)) (f.push e)
                  | none => none
              | none, none => none
        else scanQuoted single fuel at'.skip (f.push c)

/-- Go past empty lines in front of a line of a block scalar; without a known indentation the widest
one found counts. Gives the breaks, last first, the widest column and the place. -/
def skipEmptyLines (indent : Nat) : (fuel : Nat) → Cursor → (breaks : List Char) →
    (widest : Nat) → Option (List Char × Nat × Cursor)
  | 0, _, _, _ => none
  | fuel + 1, at', breaks, widest =>
    match at'.rest with
    | [] => some (breaks, max widest at'.column, at')
    | c :: _ =>
      let inside := indent = 0 || at'.column < indent
      if c = ' ' && inside then skipEmptyLines indent fuel at'.skip breaks widest
      else if c = '\t' && inside then none
      else if isBreak c then
        let widest := max widest at'.column
        let (b, at') := at'.takeBreak
        skipEmptyLines indent fuel at' (b :: breaks) widest
      else some (breaks, max widest at'.column, at')

/-- The lines of a block scalar. `text` is what was read so far, `leading` the break behind its last
line and `trailing` the breaks behind that one, all last first. -/
def scanBlockLines (literal : Bool) (indent : Nat) : (fuel : Nat) → Cursor →
    (text leading trailing : List Char) → (blankBefore : Bool) →
    Option (List Char × List Char × List Char × Cursor)
  | 0, _, _, _, _, _ => none
  | fuel + 1, at', text, leading, trailing, blankBefore =>
    if at'.rest.isEmpty || at'.column ≠ indent then some (text, leading, trailing, at')
    else
      let blank := at'.rest.head?.any isBlank
      let text :=
        if !literal && leading = ['\n'] && !blankBefore && !blank then
          if trailing.isEmpty then ' ' :: text else trailing ++ text
        else trailing ++ (leading ++ text)
      let line := at'.rest.takeWhile (!isBreak ·)
      let text := line.reverse ++ text
      let at' := at'.skipMany line.length
      if at'.rest.isEmpty then some (text, [], [], at')
      else
        let (b, at') := at'.takeBreak
        match skipEmptyLines indent (at'.rest.length + 1) at' [] 0 with
        | none => none
        | some (trailing, _, at') => scanBlockLines literal indent fuel at' text [b] trailing blank

/-- What is done with the breaks at the end of a block scalar. -/
inductive Chomp where
  | strip
  | clip
  | keep
deriving DecidableEq

/-- The marks behind the opening of a block scalar: what is done with the last breaks, and by how
much the lines are indented. -/
def scanBlockHeader (at' : Cursor) : Option (Chomp × Nat × Cursor) :=
  let chomp? (c : Char) : Option Chomp :=
    if c = '+' then some .keep else if c = '-' then some .strip else none
  let digit? (c : Char) : Option Nat :=
    if 48 ≤ c.toNat ∧ c.toNat ≤ 57 then some (c.toNat - 48) else none
  match at'.rest with
  | [] => some (.clip, 0, at')
  | c :: rest =>
    match chomp? c with
    | some chomp =>
      match rest.head?.bind digit? with
      | some 0 => none
      | some n => some (chomp, n, at'.skipMany 2)
      | none => some (chomp, 0, at'.skip)
    | none =>
      match digit? c with
      | some 0 => none
      | some n =>
        match rest.head?.bind chomp? with
        | some chomp => some (chomp, n, at'.skipMany 2)
        | none => some (.clip, n, at'.skip)
      | none => some (.clip, 0, at')

/-- **A block scalar** behind its opening mark; `parent` is the indentation around it. -/
def scanBlock (literal : Bool) (parent : Int) (at' : Cursor) : Option (String × Cursor) := do
  let (chomp, step, at') ← scanBlockHeader at'
  let at' := at'.skipBlanks
  let at' := if at'.rest.head? = some '#' then at'.skipLine else at'
  if !breakFollows at'.rest then none
  else
    let at' := if at'.rest.isEmpty then at' else at'.takeBreak.2
    let given := if step = 0 then 0 else if 0 ≤ parent then parent.toNat + step else step
    let (trailing, widest, at') ← skipEmptyLines given (at'.rest.length + 1) at' [] 0
    let indent := if given = 0 then max (max widest (parent + 1).toNat) 1 else given
    let (text, leading, trailing, at') ←
      scanBlockLines literal indent (at'.rest.length + 1) at' [] [] trailing false
    let text :=
      match chomp with
      | .strip => text
      | .clip => leading ++ text
      | .keep => trailing ++ (leading ++ text)
    some (String.ofList text.reverse, at')

/-! ## Names, tags and directives -/

/-- The name of an anchor or an alias behind its mark. -/
def scanName (at' : Cursor) : Option (String × Cursor) :=
  let name := at'.rest.takeWhile isWordChar
  let at' := at'.skipMany name.length
  let ended :=
    blankFollows at'.rest ||
      at'.rest.head?.any fun c => ['?', ':', ',', ']', '}', '%', '@', Char.ofNat 96].contains c
  if name.isEmpty || !ended then none else some (String.ofList name, at')

/-- Whether a character may stand in a tag; `wide` allows some more. -/
def isTagChar (wide : Bool) (c : Char) : Bool :=
  isWordChar c ||
    [';', '/', '?', ':', '@', '&', '=', '+', '$', '.', '%', '!', '~', '*', '\'', '(', ')'].contains
      c ||
    (wide && (c = ',' || c = '[' || c = ']'))

/-- Characters of a tag in front of a text. -/
def takeTag (wide : Bool) (cs : List Char) : List Char := cs.takeWhile (isTagChar wide)

/-- **A tag** behind its exclamation mark, as its handle and its suffix. One without a suffix is
the mark alone. -/
def scanTag (flow : Bool) (at' : Cursor) : Option (Token × Cursor) := do
  let (token, at') ←
    match at'.rest with
    | '<' :: rest =>
      let uri := takeTag true rest
      if uri.isEmpty || (rest.drop uri.length).head? ≠ some '>' then none
      else (Octets.ofSpelling? uri).map fun t => (Token.tag "" t, at'.skipMany (uri.length + 2))
    | rest =>
      let word := rest.takeWhile isWordChar
      if (rest.drop word.length).head? = some '!' then
        let suffix := takeTag false (rest.drop (word.length + 1))
        if suffix.isEmpty then none
        else
          (Octets.ofSpelling? suffix).map fun t =>
            (Token.tag ("!" ++ String.ofList word ++ "!") t,
              at'.skipMany (word.length + 1 + suffix.length))
      else
        let suffix := takeTag false rest
        (Octets.ofSpelling? suffix).map fun t =>
          (if t.isEmpty then Token.tag "" (Octets.ofText "!") else Token.tag "!" t,
            at'.skipMany suffix.length)
  if blankFollows at'.rest || (flow && at'.rest.head? = some ',') then some (token, at') else none

/-- A run of decimal digits as a number. -/
def takeNumber (cs : List Char) : Option (Nat × List Char) :=
  let digits := cs.takeWhile fun c => 48 ≤ c.toNat && c.toNat ≤ 57
  if digits.isEmpty || 9 < digits.length then none
  else some (digits.foldl (fun n c => 10 * n + (c.toNat - 48)) 0, cs.drop digits.length)

/-- The version that a directive names. -/
def scanVersion (at' : Cursor) : Option (Token × Cursor) := do
  let (major, rest) ← takeNumber at'.rest
  match rest with
  | '.' :: rest =>
    let (minor, rest) ← takeNumber rest
    return (.version major minor, at'.skipMany (at'.rest.length - rest.length))
  | _ => none

/-- The handle that a directive names: an exclamation mark, or a word between two. A blank has to
follow. -/
def scanHandle (at' : Cursor) : Option (String × Cursor) :=
  match at'.rest with
  | '!' :: rest =>
    let word := rest.takeWhile isWordChar
    let closed := (rest.drop word.length).head? = some '!'
    let handle := '!' :: (if closed then word ++ ['!'] else word)
    let at' := at'.skipMany handle.length
    if (closed || word.isEmpty) && at'.rest.head?.any isBlank then
      some (String.ofList handle, at')
    else none
  | _ => none

/-- The handle of tags that a directive names, and what it stands for. -/
def scanTagDirective (at' : Cursor) : Option (Token × Cursor) := do
  let (handle, at') ← scanHandle at'
  let at' := at'.skipBlanks
  let stem := takeTag true at'.rest
  let octets ← Octets.ofSpelling? stem
  let at' := at'.skipMany stem.length
  if !stem.isEmpty && blankFollows at'.rest then some (.tagDirective handle octets, at') else none

/-- **A directive** behind its percent sign, with the end of its line. -/
def scanDirective (at' : Cursor) : Option (Token × Cursor) := do
  let word := at'.rest.takeWhile isWordChar
  let at' := at'.skipMany word.length
  let (token, at') ←
    if !blankFollows at'.rest then none
    else if word = ['Y', 'A', 'M', 'L'] then scanVersion at'.skipBlanks
    else if word = ['T', 'A', 'G'] then scanTagDirective at'.skipBlanks
    else none
  let at' := at'.skipBlanks
  let at' := if at'.rest.head? = some '#' then at'.skipLine else at'
  if at'.rest.isEmpty then some (token, at')
  else if breakFollows at'.rest then some (token, at'.takeBreak.2)
  else none

/-! ## The cutting of a text -/

/-- A token that may still turn out to be a key. -/
structure PendingKey where
  /-- Where the token stands among the tokens. -/
  position : Nat
  /-- Where it stands in the text, counted in octets. -/
  offset : Nat
  line : Nat
  column : Nat
  /-- Whether it has to be a key, because it stands at the indentation of a mapping. -/
  required : Bool

/-- **The state of the cutting.** -/
structure Scan where
  place : Cursor
  tokens : Array Token := #[]
  /-- The present indentation; none yet if negative. -/
  indent : Int := -1
  /-- The indentations around it. -/
  outer : List Int := []
  /-- For each open bracket, and for the text outside, the token that may be a key. -/
  keys : List (Option PendingKey) := [none]
  /-- Whether a key may start here. -/
  keyAllowed : Bool := true

namespace Scan

/-- Whether the place is inside brackets. -/
def flow (s : Scan) : Bool := 1 < s.keys.length

/-- Add a token. -/
def push (s : Scan) (t : Token) : Scan := { s with tokens := s.tokens.push t }

/-- Go to another place. -/
def goTo (s : Scan) (place : Cursor) : Scan := { s with place }

/-- Close the blocks that are indented deeper than a column. -/
def unroll (s : Scan) (column : Int) : Scan :=
  if s.flow then s
  else
    let rec go : List Int → Int → Array Token → Scan
      | [], indent, tokens => { s with indent, outer := [], tokens }
      | i :: is, indent, tokens =>
        if column < indent then go is i (tokens.push .blockEnd)
        else { s with indent, outer := i :: is, tokens }
    go s.outer s.indent s.tokens

/-- Open a block at a column, unless one is open there; its token goes to a position among the
tokens. -/
def roll (s : Scan) (column : Nat) (position : Nat) (t : Token) : Scan :=
  if s.flow || column ≤ s.indent then s
  else
    { s with
      indent := column
      outer := s.indent :: s.outer
      tokens := s.tokens.insertIdxIfInBounds position t }

/-- Give up the token that may be a key; not possible if it has to be one. -/
def dropKey (s : Scan) : Option Scan :=
  match s.keys with
  | some k :: rest => if k.required then none else some { s with keys := none :: rest }
  | _ => some s

/-- The next token may be a key. -/
def saveKey (s : Scan) : Option Scan :=
  if s.keyAllowed then do
    let s ← s.dropKey
    let k : PendingKey :=
      { position := s.tokens.size
        offset := s.place.offset
        line := s.place.line
        column := s.place.column
        required := !s.flow && s.indent = s.place.column }
    some { s with keys := some k :: s.keys.drop 1 }
  else some s

/-- Give up tokens that can no longer be keys: those on an earlier line or too far back. -/
def dropStaleKeys (s : Scan) : Option Scan := do
  let keys ← s.keys.mapM fun key =>
    match key with
    | none => some none
    | some k =>
      if k.line < s.place.line || k.offset + 1024 < s.place.offset then
        if k.required then none else some none
      else some (some k)
  some { s with keys }

/-- Go past blanks, comments and line breaks, and past a mark for the order of octets at the start
of a line. Outside of brackets a tab does not count as a blank where a key may start. -/
def toNextToken : (fuel : Nat) → Scan → Scan
  | 0, s => s
  | fuel + 1, s =>
    match s.place.rest with
    | [] => s
    | c :: _ =>
      if (c = orderMark && s.place.column = 0) || c = ' ' ||
          (c = '\t' && (s.flow || !s.keyAllowed)) then
        toNextToken fuel (s.goTo s.place.skip)
      else if c = '#' then toNextToken fuel (s.goTo s.place.skipLine)
      else if isBreak c then
        let s := s.goTo s.place.takeBreak.2
        toNextToken fuel (if s.flow then s else { s with keyAllowed := true })
      else s

/-- The end of the text, which closes all blocks. -/
def finish (s : Scan) : Option Scan := do
  let s := s.unroll (-1)
  let s ← s.dropKey
  some (s.push .streamEnd)

/-- A mark at the start of a line, which closes all blocks. -/
def atMargin (s : Scan) (t : Token) (place : Cursor) : Option Scan := do
  let s := s.unroll (-1)
  let s ← s.dropKey
  some ({ s with keyAllowed := false, place }.push t)

/-- A bracket that opens. -/
def openBracket (s : Scan) (t : Token) : Option Scan := do
  let s ← s.saveKey
  some ({ s with keys := none :: s.keys, keyAllowed := true, place := s.place.skip }.push t)

/-- A bracket that closes. -/
def closeBracket (s : Scan) (t : Token) : Option Scan := do
  let s ← s.dropKey
  let keys := if s.flow then s.keys.drop 1 else s.keys
  some ({ s with keys, keyAllowed := false, place := s.place.skip }.push t)

/-- A comma between brackets. -/
def comma (s : Scan) : Option Scan := do
  let s ← s.dropKey
  some ({ s with keyAllowed := true, place := s.place.skip }.push .flowEntry)

/-- The dash in front of an item. -/
def dash (s : Scan) : Option Scan :=
  if !s.flow && !s.keyAllowed then none
  else do
    let s := s.roll s.place.column s.tokens.size .blockSequenceStart
    let s ← s.dropKey
    some ({ s with keyAllowed := true, place := s.place.skip }.push .blockEntry)

/-- The question mark in front of a key. -/
def questionMark (s : Scan) : Option Scan :=
  if !s.flow && !s.keyAllowed then none
  else do
    let s := s.roll s.place.column s.tokens.size .blockMappingStart
    let s ← s.dropKey
    some ({ s with keyAllowed := !s.flow, place := s.place.skip }.push .key)

/-- The colon in front of a value. What stands before it becomes a key, if it may be one. -/
def colon (s : Scan) : Option Scan :=
  match s.keys with
  | some k :: rest =>
    let s := { s with tokens := s.tokens.insertIdxIfInBounds k.position .key }
    let s := s.roll k.column k.position .blockMappingStart
    some ({ s with keys := none :: rest, keyAllowed := false, place := s.place.skip }.push .value)
  | _ =>
    if !s.flow && !s.keyAllowed then none
    else
      let s := s.roll s.place.column s.tokens.size .blockMappingStart
      some ({ s with keyAllowed := !s.flow, place := s.place.skip }.push .value)

/-- A token that may be a key, read by `read`. -/
def keyable (s : Scan) (read : Cursor → Option (Token × Cursor)) : Option Scan := do
  let s ← s.saveKey
  let (t, place) ← read s.place.skip
  some ({ s with keyAllowed := false, place }.push t)

/-- A plain scalar. Behind a line break a key may start again. -/
def plain (s : Scan) : Option Scan := do
  let s ← s.saveKey
  let (f, place) ←
    scanPlain s.flow (s.indent + 1).toNat (s.place.rest.length + 1) s.place {}
  some ({ s with keyAllowed := f.broken, place }.push (.scalar f.result .plain))

/-- A block scalar. -/
def block (s : Scan) (literal : Bool) : Option Scan := do
  let s ← s.dropKey
  let (text, place) ← scanBlock literal s.indent s.place.skip
  some ({ s with keyAllowed := true, place }.push
    (.scalar text (if literal then .literal else .folded)))

/-- Whether a character cannot start a plain scalar. -/
def isIndicator (c : Char) : Bool :=
  ['-', '?', ':', ',', '[', ']', '{', '}', '#', '&', '*', '!', '|', '>', '\'', '"', '%', '@',
    Char.ofNat 96].contains c

/-- **The next token**, which starts with the character `c` with `rest` behind it. -/
def token (s : Scan) (c : Char) (rest : List Char) : Option Scan :=
  if s.place.column = 0 && c = '%' then
    match scanDirective s.place.skip with
    | some (t, place) => s.atMargin t place
    | none => none
  else if s.place.atDocumentMark then
    s.atMargin (if c = '-' then .documentStart else .documentEnd) (s.place.skipMany 3)
  else if c = '[' then s.openBracket .flowSequenceStart
  else if c = '{' then s.openBracket .flowMappingStart
  else if c = ']' then s.closeBracket .flowSequenceEnd
  else if c = '}' then s.closeBracket .flowMappingEnd
  else if c = ',' then s.comma
  else if c = '-' && blankFollows rest then s.dash
  else if c = '?' && (s.flow || blankFollows rest) then s.questionMark
  else if c = ':' && (s.flow || blankFollows rest) then s.colon
  else if c = '*' then s.keyable fun p => (scanName p).map fun r => (.alias r.1, r.2)
  else if c = '&' then s.keyable fun p => (scanName p).map fun r => (.anchor r.1, r.2)
  else if c = '!' then s.keyable (scanTag s.flow)
  else if c = '|' && !s.flow then s.block true
  else if c = '>' && !s.flow then s.block false
  else if c = '\'' || c = '"' then
    s.keyable fun p =>
      (scanQuoted (c = '\'') (p.rest.length + 1) p {}).map fun r => (.scalar r.1 .quoted, r.2)
  else if (!isBlank c && !isIndicator c) || (c = '-' && !rest.head?.any isBlank) ||
      (!s.flow && (c = '?' || c = ':') && !blankFollows rest) then s.plain
  else none

/-- Cut the text up to its end. Every token takes a character away, so its length is fuel enough. -/
def run : (fuel : Nat) → Scan → Option Scan
  | 0, _ => none
  | fuel + 1, s => do
    let s := s.toNextToken (s.place.rest.length + 1)
    let s ← s.dropStaleKeys
    let s := s.unroll s.place.column
    match s.place.rest with
    | [] => s.finish
    | c :: rest => run fuel (← s.token c rest)

end Scan

/-- **The tokens of a text.** -/
def Token.scan? (text : String) : Option (List Token) :=
  let cs := text.toList
  if cs.all isAllowed then
    (Scan.run (cs.length + 2) { place := ⟨cs, 0, 0, 0⟩ }).map (·.tokens.toList)
  else none

end Instinct.Yaml
