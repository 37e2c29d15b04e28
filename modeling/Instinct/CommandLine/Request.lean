import Instinct.CommandLine.Options
import Instinct.Decimal.Reading
import Instinct.Demo.Report
import Instinct.Node.Outline
import Instinct.Record.Text

/-! # What the command line asks for

* **`Request`** — what is asked for.
* **`Request.ofArgs?`** — the request that a command line spells.
* **`Request.answer`** — the text that answers a request, given the contents of the files it names,
  or why there is none. -/

namespace Instinct.CommandLine

/-- **How a battle is to be fought and told of.** -/
structure RunOptions where
  archetype : String
  frames : UInt32
  dtMs : UInt64
  seed : UInt64
  thinkEvery : UInt32
  incomingDps : Float32
  /-- The file of overrides. -/
  tuning : Option String
  /-- The file that takes the place of the seed and the thinking frames. -/
  brain : Option String
  json : Bool

/-- **What is asked for.** -/
inductive Request where
  | run (options : RunOptions)
  /-- The outline of an archetype. -/
  | describe (archetype : String)
  /-- The names of the archetypes. -/
  | list
  /-- A fixed text. -/
  | say (text : String)

/-- **Why a request has no answer.** -/
inductive Refusal where
  | unreadableTuning (path : String)
  | malformedTuning (path : String)
  | unreadableBrain (path : String)
  | malformedBrain (path : String)
  | archetype (error : ArchetypeError)

namespace Refusal

/-- Whether the refusal is about a file. -/
def namesFile : Refusal → Bool
  | archetype _ => false
  | _ => true

/-- The refusal in words, followed by its cause if it has one. -/
def messages : Refusal → List String
  | unreadableTuning path => [s!"failed to read pattern tuning from {path}"]
  | malformedTuning path => [s!"invalid pattern tuning in {path}"]
  | unreadableBrain path => [s!"Failed to read brain config from {path}"]
  | malformedBrain path => [s!"Failed to parse brain config from {path}"]
  | archetype e => e.messages

/-- A text whose every line is moved in. -/
def movedIn (s : String) : String :=
  let margin := [' ', ' ', ' ', ' ']
  String.ofList (margin ++ s.toList.flatMap fun c => if c = '\n' then c :: margin else [c])

/-- **The refusal as it is reported.** The lines of the cause are moved in. -/
def text (r : Refusal) : String :=
  match r.messages with
  | [] => "Error\n"
  | [m] => "Error: " ++ m ++ "\n"
  | m :: causes => "Error: " ++ m ++ "\n\nCaused by:\n" ++ Text.lines (causes.map movedIn)

end Refusal

/-! ## The options -/

/-- The digits behind a sign. -/
def digits? (s : List Char) : Option Nat :=
  if s.isEmpty || !s.all Decimal.isDigit then none else some (Decimal.ofDigits s)

/-- A number of 64 bits. A plus may stand in front. -/
def word64? (s : String) : Option UInt64 :=
  let digits := match s.toList with | '+' :: cs => cs | cs => cs
  (digits? digits).bind fun n => if n < UInt64.size then some (UInt64.ofNat n) else none

/-- A number of 32 bits. A sign may stand in front, and zero may be negative. -/
def word32? (s : String) : Option UInt32 :=
  match s.toList with
  | '-' :: cs => (digits? cs).bind fun n => if n = 0 then some 0 else none
  | '+' :: cs => (digits? cs).bind fun n => if n < UInt32.size then some (UInt32.ofNat n) else none
  | cs => (digits? cs).bind fun n => if n < UInt32.size then some (UInt32.ofNat n) else none

/-- An option with a value. -/
def valued (long : String) (short : Option Char) (fallback : Option String)
    (accepts : String → Bool) (help : String) : Switch :=
  let word := long.map fun c => if c = '-' then '_' else c.toUpper
  { long, short, taking := .value word fallback accepts, help }

/-- The options on what is told while a command runs. -/
def logSwitches : List Switch := [
  { long := "verbose", short := some 'v', help := "Verbose output" },
  { long := "json-logs", help := "Emit logs as JSON lines" }]

/-- The wish for help. -/
def helpSwitch : Switch :=
  { long := "help", short := some 'h', taking := .ending .help, help := "Print help" }

/-- The options of every command. -/
def globalSwitches : List Switch := logSwitches ++ [helpSwitch]

/-- The options in front of a command. -/
def frontSwitches : List Switch := globalSwitches ++ [
  { long := "version", short := some 'V', taking := .ending .version, help := "Print version" }]

/-- The options of a battle. -/
def runSwitches : List Switch := [
  valued "archetype" (some 'a') (some "brute") (fun _ => true) "",
  valued "frames" (some 'f') (some "600") (word32? · |>.isSome) "Number of frames to simulate",
  valued "dt-ms" none (some "16") (word64? · |>.isSome) "Frame delta in milliseconds",
  valued "seed" none (some "0") (word64? · |>.isSome) "Seed for random and weighted choices",
  valued "think-every" none (some "1") (word32? · |>.isSome) "Think every N frames",
  valued "incoming-dps" none (some "0") (Decimal.float32OfText? · |>.isSome)
    "Damage per second the enemy takes from the target",
  valued "tuning" none none (fun s => !s.isEmpty)
    "YAML file with per-pattern priority and cooldown overrides",
  valued "brain" none none (fun s => !s.isEmpty) "Brain config as YAML, overriding the flags above",
  { long := "json", help := "Print the run summary as JSON" }]

/-- The options that were found for a battle. -/
def RunOptions.ofGathered (g : Gathered) : RunOptions where
  archetype := (g.value? "archetype").getD "brute"
  frames := ((g.value? "frames").bind word32?).getD 600
  dtMs := ((g.value? "dt-ms").bind word64?).getD 16
  seed := ((g.value? "seed").bind word64?).getD 0
  thinkEvery := ((g.value? "think-every").bind word32?).getD 1
  incomingDps := ((g.value? "incoming-dps").bind Decimal.float32OfText?).getD 0
  tuning := g.value? "tuning"
  brain := g.value? "brain"
  json := g.has "json"

/-! ## Help -/

/-- What each command does. -/
def commandStories : List (String × String) := [
  ("run", "Simulate one enemy against a stationary target"),
  ("describe", "Print an archetype's tree outline"),
  ("list", "List demo archetypes"),
  ("help", "Print this message or the help of the given subcommand(s)")]

/-- The program with its version. -/
def versionLine : String := Text.lines ["ai-sim 0.1.0"]

/-- A page of help. -/
def page (story usage : String) (sections : List (String × List String)) : String :=
  Text.lines ([story, "", "Usage: ai-sim " ++ usage] ++
    sections.flatMap fun s => ["", s.1 ++ ":"] ++ s.2)

/-- The options on a page of help: those of a command in turn with those of every command, and the
wish for help at the end. -/
def optionLines (switches : List Switch) : List String :=
  switchLines (inTurn switches logSwitches ++ [helpSwitch])

/-- The page of help on all commands. -/
def overview : String :=
  page "Run behavior-tree enemies frame by frame" "[OPTIONS] <COMMAND>" [
    ("Commands", columns commandStories),
    ("Options", switchLines frontSwitches)]

/-- The page of help on a command, if there is one of that name. -/
def helpOn? (command : String) : Option String :=
  let story := ((commandStories.find? (·.1 = command)).map (·.2)).getD ""
  if command = "run" then
    some (page story "run [OPTIONS]" [("Options", optionLines runSwitches)])
  else if command = "describe" then
    some (page story "describe [OPTIONS] <ARCHETYPE>" [
      ("Arguments", columns [("<ARCHETYPE>", "")]), ("Options", optionLines [])])
  else if command = "list" then
    some (page story "list [OPTIONS]" [("Options", optionLines [])])
  else if command = "help" then
    some (page story "help [COMMAND]..." [
      ("Arguments", columns [("[COMMAND]...", "Print help for the subcommand(s)")])])
  else none

namespace Request

/-- The request of one command, from the words behind it. -/
def ofCommand? (command : String) (ws : List String) : Option Request :=
  let answered (room : Nat) (switches : List Switch) (make : Gathered → Option Request) :=
    match gather (switches ++ globalSwitches) room ws {} with
    | .ok g => make g
    | .error .misuse => none
    | .error _ => (helpOn? command).map Request.say
  if command = "run" then answered 0 runSwitches fun g => some (.run (.ofGathered g))
  else if command = "describe" then
    answered 1 [] fun g => g.words.head?.map Request.describe
  else if command = "list" then answered 0 [] fun _ => some .list
  else if command = "help" then
    match ws with
    | [] => some (.say overview)
    | [c] => (helpOn? c).map Request.say
    | _ => none
  else none

/-- The words in front of the command, and the command with the words behind it. -/
def splitCommand (args : List String) : List String × List String := args.span (!isWord ·)

/-- **The request that a command line spells**; nothing if it makes no sense. -/
def ofArgs? (args : List String) : Option Request :=
  let (front, rest) := splitCommand args
  match gather frontSwitches 0 front {} with
  | .error .help => some (.say overview)
  | .error .version => some (.say versionLine)
  | .error .misuse => none
  | .ok _ =>
    match rest with
    | command :: ws => if front.contains "--" then none else ofCommand? command ws
    | [] => none

/-! ## Answers -/

/-- The files that a request names. -/
def paths : Request → List String
  | run o => o.tuning.toList ++ o.brain.toList
  | _ => []

/-- The tuning of a battle. -/
def readTuning (contents : String → Option String) (o : RunOptions) : Except Refusal Tuning :=
  match o.tuning with
  | none => .ok .empty
  | some path =>
    match contents path with
    | none => .error (.unreadableTuning path)
    | some text =>
      match Yaml.read? text with
      | some t => .ok t
      | none => .error (.malformedTuning path)

/-- The pace of a battle. -/
def readPace (contents : String → Option String) (o : RunOptions) : Except Refusal Pace :=
  match o.brain with
  | none => .ok { every := o.thinkEvery, seed := o.seed }
  | some path =>
    match contents path with
    | none => .error (.unreadableBrain path)
    | some text =>
      match Yaml.read? text with
      | some p => .ok p
      | none => .error (.malformedBrain path)

/-- The summary of the battle that was asked for. -/
def fight (contents : String → Option String) (o : RunOptions) : Except Refusal Summary := do
  let tuning ← readTuning contents o
  let pace ← readPace contents o
  let plan : BattlePlan :=
    { frames := o.frames.toNat, dt := .ofMillis o.dtMs, incomingDps := o.incomingDps }
  (Battle.fight o.archetype tuning pace plan).mapError Refusal.archetype

/-- **The text that answers a request**, given the contents of files. -/
def answer (contents : String → Option String) : Request → Except Refusal String
  | run o => do
    let summary ← fight contents o
    return if o.json then summary.json.pretty ++ "\n" else summary.text
  | describe name =>
    match Archetype.find (G := Arena) name .empty with
    | .ok a => .ok a.tree.root.describe
    | .error e => .error (.archetype e)
  | list => .ok (Text.lines Archetype.names)
  | .say text => .ok text

end Request

end Instinct.CommandLine
