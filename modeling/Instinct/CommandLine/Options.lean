/-! # Options on a command line

* **`Switch`** — an option: its names, whether it takes a value and which values it accepts.
* **`Gathered`** — the options and the other words that were found.
* **`inTurn`** — the order in which two lists of options are shown.
* **`gather`** — go through the words of a command line. The first thing that is wrong, or the first
  wish for help, ends it. -/

namespace Instinct.CommandLine

/-- Why going through a command line ended early. -/
inductive Halt where
  /-- The command line makes no sense. -/
  | misuse
  /-- Help was asked for. -/
  | help
  /-- The version was asked for. -/
  | version
deriving DecidableEq

/-- What an option takes. -/
inductive Taking where
  /-- Nothing. -/
  | nothing
  /-- Nothing, and what follows is not looked at. -/
  | ending (halt : Halt)
  /-- A value, described by a word, with a value to fall back on that is shown to the user. -/
  | value (word : String) (fallback : Option String) (accepts : String → Bool)

/-- **An option.** -/
structure Switch where
  /-- The name behind two dashes. -/
  long : String
  /-- The letter behind one dash. -/
  short : Option Char := none
  taking : Taking := .nothing
  help : String := ""

/-- **What was found on a command line.** -/
structure Gathered where
  /-- The options with their values, the latest first. -/
  options : List (String × String) := []
  /-- The other words, in order. -/
  words : List String := []

namespace Gathered

/-- Whether an option was given. -/
def has (g : Gathered) (long : String) : Bool := g.options.any (·.1 = long)

/-- The value of an option. -/
def value? (g : Gathered) (long : String) : Option String :=
  (g.options.find? (·.1 = long)).map (·.2)

/-- Take in an option; each may be given once, with a value that it accepts. -/
def take (g : Gathered) (s : Switch) (value : String) : Except Halt Gathered :=
  if g.has s.long then .error .misuse
  else
    match s.taking with
    | .value _ _ accepts =>
      if accepts value then .ok { g with options := (s.long, value) :: g.options }
      else .error .misuse
    | .nothing => .ok { g with options := (s.long, "") :: g.options }
    | .ending halt => .error halt

end Gathered

/-- Whether a word is a value or a word of its own, and not an option. -/
def isWord (s : String) : Bool := s = "-" || !s.startsWith "-"

/-- The name and the value of a word such as `name=value`. -/
def splitValue (cs : List Char) : String × Option String :=
  let name := String.ofList (cs.takeWhile (· ≠ '='))
  match cs.dropWhile (· ≠ '=') with
  | _ :: value => (name, some (String.ofList value))
  | [] => (name, none)

/-- What taking in one word gave: all is well, or an option still waits for its value. -/
inductive Step where
  | done (g : Gathered)
  | awaiting (s : Switch) (g : Gathered)

/-- Take in an option given by its long name. -/
def takeLong (switches : List Switch) (g : Gathered) (cs : List Char) : Except Halt Step :=
  let (name, value) := splitValue cs
  match switches.find? (·.long = name) with
  | none => .error .misuse
  | some s =>
    match s.taking, value with
    | .value _ _ _, some v => (g.take s v).map .done
    | .value _ _ _, none => .ok (.awaiting s g)
    | _, some _ => .error .misuse
    | _, none => (g.take s "").map .done

/-- Take in options given by their letters. What follows the letter of an option with a value is its
value, with or without an equals sign in front. -/
def takeShort (switches : List Switch) : Gathered → List Char → Except Halt Step
  | g, [] => .ok (.done g)
  | g, c :: cs =>
    match switches.find? (·.short = some c) with
    | none => .error .misuse
    | some s =>
      match s.taking, cs with
      | .value _ _ _, [] => .ok (.awaiting s g)
      | .value _ _ _, '=' :: v => (g.take s (String.ofList v)).map .done
      | .value _ _ _, v => (g.take s (String.ofList v)).map .done
      | _, cs =>
        match g.take s "" with
        | .ok g => takeShort switches g cs
        | .error e => .error e

/-- **Go through the words of a command line** that may hold up to `room` words besides options. -/
def gather (switches : List Switch) (room : Nat) : List String → Gathered → Except Halt Gathered
  | [], g => .ok g
  | w :: ws, g =>
    if w = "--" then
      let words := g.words ++ ws
      if words.length ≤ room then .ok { g with words } else .error .misuse
    else if isWord w then
      if g.words.length < room then gather switches room ws { g with words := g.words ++ [w] }
      else .error .misuse
    else
      let step :=
        match w.toList with
        | '-' :: '-' :: cs => takeLong switches g cs
        | cs => takeShort switches g (cs.drop 1)
      match step with
      | .error e => .error e
      | .ok (.done g) => gather switches room ws g
      | .ok (.awaiting s g) =>
        match ws with
        | [] => .error .misuse
        | v :: ws =>
          if isWord v then
            match g.take s v with
            | .ok g => gather switches room ws g
            | .error e => .error e
          else .error .misuse

/-! ## Help -/

/-- An option as shown to the user, without its letter. -/
def Switch.shown (s : Switch) : String :=
  match s.taking with
  | .value word _ _ => "--" ++ s.long ++ " <" ++ word ++ ">"
  | _ => "--" ++ s.long

/-- What is told of an option. -/
def Switch.story (s : Switch) : String :=
  match s.taking with
  | .value _ (some fallback) _ =>
    s.help ++ (if s.help.isEmpty then "" else " ") ++ "[default: " ++ fallback ++ "]"
  | _ => s.help

/-- What options at the same place are listed by: their letter, the small one before the capital, or
the name of one without a letter. -/
def Switch.listingKey (s : Switch) : String :=
  match s.short with
  | some c => String.ofList [c.toLower, if c.isLower then '0' else '1']
  | none => s.long

/-- **Two lists of options in turn**: the first of each list, then the second of each, and so on. -/
def inTurn : List Switch → List Switch → List Switch
  | a :: as, b :: bs =>
    if b.listingKey < a.listingKey then b :: a :: inTurn as bs else a :: b :: inTurn as bs
  | as, [] => as
  | [], bs => bs

/-- Every option is listed, and none twice. -/
theorem inTurn_perm (as bs : List Switch) : (inTurn as bs).Perm (as ++ bs) := by
  fun_induction inTurn as bs with
  | case1 a as b bs _ ih =>
    exact (ih.cons a).cons b |>.trans (.swap ..) |>.trans ((List.perm_middle.symm).cons a)
  | case2 a as b bs _ ih => exact (ih.cons b).cons a |>.trans ((List.perm_middle.symm).cons a)
  | case3 as => simp
  | case4 bs => simp

/-- Two columns of text. -/
def columns (rows : List (String × String)) : List String :=
  let width := (rows.map (·.1.length)).foldl max 0 + 2
  rows.map fun r =>
    "  " ++ r.1 ++ String.ofList (List.replicate (width - r.1.length) ' ') ++ r.2

/-- The lines that list options. -/
def switchLines (switches : List Switch) : List String :=
  columns (switches.map fun s =>
    let letter := match s.short with
      | some c => "-" ++ String.ofList [c] ++ ", "
      | none => "    "
    (letter ++ s.shown, s.story))

end Instinct.CommandLine
