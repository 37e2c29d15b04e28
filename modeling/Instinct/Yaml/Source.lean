import Instinct.Yaml
import Instinct.Record.Source
import Instinct.Decimal.Reading

/-! # YAML as a source of records

A plain scalar has no type of its own. It is read as the type that is asked for, and every scalar
can be read as a text.

* **`plainBool?`**, **`plainNatural?`**, **`plainInteger?`**, **`plainDouble?`**, **`isPlainNull`**
  — what the text of a plain scalar stands for.
* **`Yaml.source`** — YAML as a source. -/

namespace Instinct.Yaml

/-! ## What a plain scalar stands for -/

/-- Whether a text stands for no value. -/
def isPlainNull (s : String) : Bool := s = "null" || s = "Null" || s = "NULL" || s = "~"

/-- The boolean that a text stands for. -/
def plainBool? (s : String) : Option Bool :=
  if s = "true" || s = "True" || s = "TRUE" then some true
  else if s = "false" || s = "False" || s = "FALSE" then some false
  else none

/-- The value of a digit, letters standing for ten and more. -/
def digitValue? (c : Char) : Option Nat :=
  let n := c.toNat
  if 48 ≤ n ∧ n ≤ 57 then some (n - 48)
  else if 97 ≤ n ∧ n ≤ 122 then some (n - 87)
  else if 65 ≤ n ∧ n ≤ 90 then some (n - 55)
  else none

/-- The number that digits of a base stand for; there has to be one digit at least. -/
def digitsIn? (base : Nat) (cs : List Char) : Option Nat :=
  if cs.isEmpty then none
  else
    cs.foldlM (fun n c =>
      match digitValue? c with
      | some d => if d < base then some (base * n + d) else none
      | none => none) 0

/-- The bases with their marks. -/
def bases : List (List Char × Nat) :=
  [(['0', 'x'], 16), (['0', 'o'], 8), (['0', 'b'], 2)]

/-- The number that digits behind a mark of their base stand for. -/
def marked? (cs : List Char) : Option Nat :=
  bases.findSome? fun b => if b.1.isPrefixOf cs then digitsIn? b.2 (cs.drop 2) else none

/-- Whether a text starts with a sign. -/
def startsWithSign (cs : List Char) : Bool := cs.head? = some '+' || cs.head? = some '-'

/-- Whether digits have a zero in front that makes them a text. -/
def isZeroLed (cs : List Char) : Bool :=
  let digits := if startsWithSign cs then cs.drop 1 else cs
  1 < digits.length && digits.all Decimal.isDigit && digits.head? = some '0'

/-- The text behind a plus. -/
def dropPlus (cs : List Char) : List Char := if cs.head? = some '+' then cs.drop 1 else cs

/-- **The number without a sign that a text stands for.** It fits into 64 bits. -/
def plainNatural? (s : String) : Option Nat := do
  let cs := s.toList
  let body := dropPlus cs
  match (marked? body).filter (· < UInt64.size) with
  | some n => some n
  | none =>
    if startsWithSign body || isZeroLed cs then none
    else (digitsIn? 10 body).filter (· < UInt64.size)

/-- Whether a number fits into 64 bits with its sign. -/
def fitsSigned (n : Int) : Bool := Int64.minValue.toInt ≤ n && n ≤ Int64.maxValue.toInt

/-- The size of a number in a marked base behind a minus. -/
def negativeMarked? : List Char → Option Nat
  | '-' :: cs => marked? cs
  | _ => none

/-- The number of decimal digits behind a sign, which may be missing. -/
def signedDecimal? (cs : List Char) : Option Int :=
  match cs with
  | '-' :: rest => (digitsIn? 10 rest).map fun n => -(n : Int)
  | '+' :: rest => (digitsIn? 10 rest).map Int.ofNat
  | rest => (digitsIn? 10 rest).map Int.ofNat

/-- **The number with a sign that a text stands for.** It fits into 64 bits. -/
def plainInteger? (s : String) : Option Int := do
  let cs := s.toList
  let body := dropPlus cs
  if cs.head? = some '+' && startsWithSign body then none
  else
    match ((marked? body).map Int.ofNat).filter fitsSigned with
    | some n => some n
    | none =>
      match ((negativeMarked? cs).map fun n => -(n : Int)).filter fitsSigned with
      | some n => some n
      | none => if isZeroLed cs then none else (signedDecimal? body).filter fitsSigned

/-- **The double-precision number that a text stands for.** Infinities and what is not a number are
written with a point in front. -/
def plainDouble? (s : String) : Option Float := do
  let cs := s.toList
  let body := dropPlus cs
  let name := String.ofList body
  if cs.head? = some '+' && startsWithSign body then none
  else if name = ".inf" || name = ".Inf" || name = ".INF" then some (1 / 0)
  else if s = "-.inf" || s = "-.Inf" || s = "-.INF" then some (-(1 / 0))
  else if s = ".nan" || s = ".NaN" || s = ".NAN" then some (0 / 0)
  else (Decimal.floatOfText? name).filter (·.isFinite)

/-- How many numbers without a sign there are in 128 bits. -/
def wideSize : Nat := UInt64.size * UInt64.size

/-- Whether a text stands for an integer of 128 bits in a marked base. -/
def isWideMarked (s : String) : Bool :=
  (marked? (dropPlus s.toList)).any (· < wideSize) ||
    (negativeMarked? s.toList).any (2 * · ≤ wideSize)

/-- Whether a text left plain would not be read as a text by everyone: it stands for no value, a
boolean or a number, which may be of more bits than a record can hold. -/
def isTyped (s : String) : Bool :=
  s.isEmpty || isPlainNull s || (plainBool? s).isSome || isWideMarked s ||
    (plainDouble? s).isSome || isZeroLed s.toList

/-! ## YAML as a source -/

/-- The text of a scalar that may be of a common type: a plain one, or a literal one that is tagged
with the name of the type. -/
def typedText? (type : String) : Yaml → Option String
  | scalar s .plain _ => some s
  | scalar s .literal (some tag) => if tag = .core type then some s else none
  | _ => none

/-- The text of any scalar. -/
def anyText? : Yaml → Option String
  | scalar s _ _ => some s
  | _ => none

/-- Whether nothing is written. -/
def isBlankValue : Yaml → Bool
  | void => true
  | scalar s .plain _ => s.isEmpty
  | _ => false

/-- A value that may be missing. A tag other than that of no value says that it is there; what is
tagged as no value has to be spelled as such. -/
def presentValue? : Yaml → Option (Option Yaml)
  | void => some none
  | scalar s .plain none =>
    some (if s.isEmpty || isPlainNull s then none else some (scalar s .plain none))
  | scalar s .plain (some tag) =>
    if tag ≠ .core "null" then some (some (scalar s .plain (some tag)))
    else if isPlainNull s then some none
    else none
  | d => some (some d)

/-- The alternative that a scalar names: its text, or the name that its tag gives if nothing else is
written. -/
def alternative? : Yaml → Option String
  | scalar s style tag =>
    match tag.bind Tag.alternative? with
    | some name => if style = .plain && (s.isEmpty || isPlainNull s) then some name else none
    | none => some s
  | _ => none

/-- **YAML as a source.** Where a record, a map or a list is asked for, nothing written stands for
the one without entries. -/
def source : Source Yaml where
  bool? d := (typedText? "bool" d).bind plainBool?
  natural? d := (typedText? "int" d).bind plainNatural?
  integer? d := (typedText? "int" d).bind plainInteger?
  single? d := ((typedText? "float" d).bind plainDouble?).map (·.toFloat32)
  text? := anyText?
  present? := presentValue?
  list? d :=
    match d with
    | sequence items => some items
    | d => if isBlankValue d then some [] else none
  entries? d :=
    match d with
    | mapping entries => entries.mapM fun e => (anyText? e.1).map fun k => (k, e.2)
    | d => if isBlankValue d then some [] else none
  positional := false
  word? := alternative?

end Instinct.Yaml
