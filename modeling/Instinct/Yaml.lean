import Instinct.Yaml.Token

/-! # YAML documents

Aliases stay as they are written, with the number of the anchor that they name. Anchors are numbered
as they are met: each gets the number of names known so far, so two anchors can share a number once
a name was used again. What a number stands for is settled at the end: the last anchor that got it
counts, even for an alias in front of it.

* **`Yaml`** — scalars as they are written, aliases, sequences and mappings.
* **`Yaml.Document`** — a value with what its aliases stand for.
* **`Yaml.ofTokens?`** — the only document that tokens spell.
* **`Yaml.parse?`** — the only document of a text. -/

namespace Instinct

/-- **A YAML value.** -/
inductive Yaml where
  /-- A text without any document. -/
  | void
  /-- A scalar with its style and its tag. -/
  | scalar (text : String) (style : Yaml.ScalarStyle) (tag : Option Yaml.Tag)
  /-- The number of an anchor. -/
  | alias (number : Nat)
  | sequence (items : List Yaml)
  | mapping (entries : List (Yaml × Yaml))

namespace Yaml

instance : Inhabited Yaml := ⟨void⟩

/-- The scalar that stands where nothing is written. -/
def blank : Yaml := scalar "" .plain none

/-- A value with the number of its anchor. -/
structure Anchored where
  number : Nat
  value : Yaml

/-- **A value with what its aliases stand for.** -/
structure Document where
  root : Yaml
  /-- The values with an anchor, in the order in which they start. -/
  anchored : Array Anchored

/-- What the number of an anchor stands for: the last value that got it. -/
def Document.target? (d : Document) (number : Nat) : Option Yaml :=
  (d.anchored.findRev? (·.number = number)).map (·.value)

/-! ## Documents from tokens -/

/-- What is known about a document while it is read. -/
structure Context where
  /-- What the handles of tags stand for. -/
  handles : List (String × Octets)
  /-- The number of each name of an anchor, the latest first. -/
  numbers : List (String × Nat) := []
  /-- The values with an anchor, in the order in which they start. One that is still being read is
  void until then. -/
  anchored : Array Anchored := #[]

/-- A value that was read, the tokens behind it and what is known by then. -/
structure Reading (α : Type) where
  value : α
  rest : List Token
  context : Context

/-- The tag that a handle and a suffix spell; the handle has to be known. -/
def Context.resolveTag (c : Context) (handle : String) (suffix : Octets) : Option Tag :=
  if handle.isEmpty then some ⟨suffix⟩
  else (c.handles.find? (·.1 = handle)).map fun h => ⟨h.2 ++ suffix⟩

/-- The anchor and the tag in front of a value, in either order. -/
structure Properties where
  anchor : Option String := none
  tag : Option Tag := none

/-- Read the anchor and the tag in front of a value. -/
def readProperties (c : Context) : List Token → Option (Properties × List Token)
  | .anchor a :: .tag h s :: rest =>
    (c.resolveTag h s).map fun t => ({ anchor := some a, tag := some t }, rest)
  | .tag h s :: .anchor a :: rest =>
    (c.resolveTag h s).map fun t => ({ anchor := some a, tag := some t }, rest)
  | .anchor a :: rest => some ({ anchor := some a }, rest)
  | .tag h s :: rest => (c.resolveTag h s).map fun t => ({ tag := some t }, rest)
  | rest => some ({}, rest)

/-- An anchor gets its number before what it names is read. A name that was known moves on to the
new number. -/
def Context.announce (c : Context) (p : Properties) : Context :=
  match p.anchor with
  | some name =>
    let number := c.numbers.length
    { c with
      numbers := (name, number) :: c.numbers.filter (·.1 ≠ name)
      anchored := c.anchored.push ⟨number, void⟩ }
  | none => c

/-- What an anchor names is known once it is read. The anchor is the one at a position among all
anchors. -/
def Context.settle (c : Context) (position : Nat) (p : Properties) (v : Yaml) : Context :=
  if p.anchor.isSome then
    { c with anchored := c.anchored.modify position fun a => { a with value := v } }
  else c

/-- The alias of a name that is known. -/
def Context.alias? (c : Context) (name : String) : Option Yaml :=
  (c.numbers.find? (·.1 = name)).map fun a => .alias a.2

/-- Whether a value is missing in front of a token of a block. -/
def endsBlockValue : List Token → Bool
  | .key :: _ | .value :: _ | .blockEnd :: _ => true
  | _ => false

/-- Whether an item is missing in front of a token of a block. -/
def endsBlockItem : List Token → Bool
  | .blockEntry :: _ | .blockEnd :: _ => true
  | _ => false

/-- Whether an item is missing in front of a token of a sequence that is not indented. -/
def endsFlatItem : List Token → Bool
  | .blockEntry :: _ | .key :: _ | .value :: _ | .blockEnd :: _ => true
  | _ => false

/-- Whether a value is missing between brackets of a sequence. -/
def endsFlowItem : List Token → Bool
  | .flowEntry :: _ | .flowSequenceEnd :: _ => true
  | _ => false

/-- Whether a value is missing between brackets of a mapping. -/
def endsFlowValue : List Token → Bool
  | .flowEntry :: _ | .flowMappingEnd :: _ => true
  | _ => false

mutual

/-- **A value.** `block` allows blocks, `flat` a sequence that is not indented. Every step into a
value takes a token away or stands before a step that does; twice the number of tokens is fuel
enough. -/
def readNode : (fuel : Nat) → (block flat : Bool) → Context → List Token → Option (Reading Yaml)
  | 0, _, _, _, _ => none
  | _ + 1, _, _, c, .alias name :: rest => (c.alias? name).map fun v => ⟨v, rest, c⟩
  | fuel + 1, block, flat, c, tokens => do
    let (p, tokens) ← readProperties c tokens
    let inner := c.announce p
    let done (r : Reading Yaml) : Reading Yaml :=
      { r with context := r.context.settle c.anchored.size p r.value }
    match tokens with
    | .blockEntry :: _ =>
      if flat then return done (← readFlatItems fuel inner tokens [])
      else if p.anchor.isSome || p.tag.isSome then
        return done ⟨scalar "" .plain p.tag, tokens, inner⟩
      else none
    | .scalar text style :: rest =>
      return done ⟨scalar text style p.tag, rest, inner⟩
    | .flowSequenceStart :: rest => return done (← readFlowItems fuel inner rest true [])
    | .flowMappingStart :: rest => return done (← readFlowEntries fuel inner rest true [])
    | .blockSequenceStart :: rest =>
      if block then return done (← readBlockItems fuel inner rest []) else none
    | .blockMappingStart :: rest =>
      if block then return done (← readBlockEntries fuel inner rest []) else none
    | rest =>
      if p.anchor.isSome || p.tag.isSome then
        return done ⟨scalar "" .plain p.tag, rest, inner⟩
      else none

/-- The items of a block sequence up to its end; `done` holds those already read, the last one
first. -/
def readBlockItems : (fuel : Nat) → Context → List Token → (done : List Yaml) →
    Option (Reading Yaml)
  | 0, _, _, _ => none
  | fuel + 1, c, .blockEntry :: rest, done =>
    if endsBlockItem rest then readBlockItems fuel c rest (blank :: done)
    else do
      let r ← readNode fuel true false c rest
      readBlockItems fuel r.context r.rest (r.value :: done)
  | _ + 1, c, .blockEnd :: rest, done => some ⟨sequence done.reverse, rest, c⟩
  | _ + 1, _, _, _ => none

/-- The items of a sequence that is not indented. -/
def readFlatItems : (fuel : Nat) → Context → List Token → (done : List Yaml) →
    Option (Reading Yaml)
  | 0, _, _, _ => none
  | fuel + 1, c, .blockEntry :: rest, done =>
    if endsFlatItem rest then readFlatItems fuel c rest (blank :: done)
    else do
      let r ← readNode fuel true false c rest
      readFlatItems fuel r.context r.rest (r.value :: done)
  | _ + 1, c, rest, done => some ⟨sequence done.reverse, rest, c⟩

/-- The entries of a block mapping up to its end. -/
def readBlockEntries : (fuel : Nat) → Context → List Token → (done : List (Yaml × Yaml)) →
    Option (Reading Yaml)
  | 0, _, _, _ => none
  | fuel + 1, c, .key :: rest, done =>
    if endsBlockValue rest then do
      let v ← readBlockValue fuel c rest
      readBlockEntries fuel v.context v.rest ((blank, v.value) :: done)
    else do
      let k ← readNode fuel true true c rest
      let v ← readBlockValue fuel k.context k.rest
      readBlockEntries fuel v.context v.rest ((k.value, v.value) :: done)
  | _ + 1, c, .blockEnd :: rest, done => some ⟨mapping done.reverse, rest, c⟩
  | _ + 1, _, _, _ => none

/-- The value of an entry of a block mapping, which may be missing. -/
def readBlockValue : (fuel : Nat) → Context → List Token → Option (Reading Yaml)
  | 0, _, _ => none
  | fuel + 1, c, .value :: rest =>
    if endsBlockValue rest then some ⟨blank, rest, c⟩ else readNode fuel true true c rest
  | _ + 1, c, rest => some ⟨blank, rest, c⟩

/-- The items between brackets of a sequence; `first` says that none was read yet. An entry with a
key is a mapping of its own. A key that is missing takes the colon, comma or bracket behind its mark
with it. -/
def readFlowItems : (fuel : Nat) → Context → List Token → (first : Bool) → (done : List Yaml) →
    Option (Reading Yaml)
  | 0, _, _, _, _ => none
  | _ + 1, c, .flowSequenceEnd :: rest, _, done => some ⟨sequence done.reverse, rest, c⟩
  | fuel + 1, c, tokens, first, done => do
    let tokens ←
      if first then some tokens
      else
        match tokens with
        | .flowEntry :: rest => some rest
        | _ => none
    match tokens with
    | .flowSequenceEnd :: rest => some ⟨sequence done.reverse, rest, c⟩
    | .key :: rest =>
      let k ←
        match rest with
        | .value :: rest | .flowEntry :: rest | .flowSequenceEnd :: rest => some ⟨blank, rest, c⟩
        | _ => readNode fuel false false c rest
      let v ←
        match k.rest with
        | .value :: rest =>
          if endsFlowItem rest then some ⟨blank, rest, k.context⟩
          else readNode fuel false false k.context rest
        | rest => some ⟨blank, rest, k.context⟩
      readFlowItems fuel v.context v.rest false (mapping [(k.value, v.value)] :: done)
    | tokens => do
      let r ← readNode fuel false false c tokens
      readFlowItems fuel r.context r.rest false (r.value :: done)

/-- The entries between brackets of a mapping; `first` says that none was read yet. -/
def readFlowEntries : (fuel : Nat) → Context → List Token → (first : Bool) →
    (done : List (Yaml × Yaml)) → Option (Reading Yaml)
  | 0, _, _, _, _ => none
  | _ + 1, c, .flowMappingEnd :: rest, _, done => some ⟨mapping done.reverse, rest, c⟩
  | fuel + 1, c, tokens, first, done => do
    let tokens ←
      if first then some tokens
      else
        match tokens with
        | .flowEntry :: rest => some rest
        | _ => none
    match tokens with
    | .flowMappingEnd :: rest => some ⟨mapping done.reverse, rest, c⟩
    | .key :: rest =>
      let k ←
        match rest with
        | .value :: _ => some ⟨blank, rest, c⟩
        | _ =>
          if endsFlowValue rest then some ⟨blank, rest, c⟩ else readNode fuel false false c rest
      let v ←
        match k.rest with
        | .value :: rest =>
          if endsFlowValue rest then some ⟨blank, rest, k.context⟩
          else readNode fuel false false k.context rest
        | rest => some ⟨blank, rest, k.context⟩
      readFlowEntries fuel v.context v.rest false ((k.value, v.value) :: done)
    | tokens => do
      let k ← readNode fuel false false c tokens
      readFlowEntries fuel k.context k.rest false ((k.value, blank) :: done)

end

/-! ## The document of a text -/

/-- The handles that stand for something without a directive. -/
def defaultHandles : List (String × Octets) := [("!", Octets.ofText "!"), ("!!", Tag.coreStem)]

/-- Read the directives in front of a document: one version at most, of the first major number, and
tag handles, each once. -/
def readDirectives : List Token → (version : Bool) → (handles : List (String × Octets)) →
    Option (List (String × Octets) × List Token)
  | .version major minor :: rest, version, handles =>
    if version || major ≠ 1 || (minor ≠ 1 && minor ≠ 2) then none
    else readDirectives rest true handles
  | .tagDirective handle stem :: rest, version, handles =>
    if handles.any (·.1 = handle) then none
    else readDirectives rest version (handles ++ [(handle, stem)])
  | rest, _, handles => some (handles, rest)

/-- Tokens without marks of a document's end in front. -/
def skipDocumentEnds : List Token → List Token
  | .documentEnd :: rest => skipDocumentEnds rest
  | rest => rest

/-- Whether nothing but marks of a document's end is left. -/
def atStreamEnd (tokens : List Token) : Bool :=
  match skipDocumentEnds tokens with
  | .streamEnd :: _ => true
  | _ => false

/-- Whether a document is missing in front of a token. -/
def endsDocument : List Token → Bool
  | .version _ _ :: _ | .tagDirective _ _ :: _ | .documentStart :: _ | .documentEnd :: _
  | .streamEnd :: _ => true
  | _ => false

/-- **The only document that tokens spell.** -/
def ofTokens? (tokens : List Token) : Option Document := do
  let fuel := 2 * tokens.length + 2
  let finish (r : Reading Yaml) : Option Document :=
    if atStreamEnd r.rest then some ⟨r.value, r.context.anchored⟩ else none
  match tokens with
  | .streamEnd :: _ => some ⟨void, #[]⟩
  | .version _ _ :: _ | .tagDirective _ _ :: _ | .documentStart :: _ =>
    let (handles, rest) ← readDirectives tokens false []
    let c : Context := { handles := handles ++ defaultHandles }
    match rest with
    | .documentStart :: rest =>
      if endsDocument rest then finish ⟨blank, rest, c⟩
      else finish (← readNode fuel true false c rest)
    | _ => none
  | _ => finish (← readNode fuel true false { handles := defaultHandles } tokens)

/-- **The only document of a text.** -/
def parse? (text : String) : Option Document := (Token.scan? text).bind ofTokens?

end Yaml

end Instinct
