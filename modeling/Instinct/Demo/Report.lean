import Instinct.Demo.Battle
import Instinct.Record.Writing

/-! # Battles told of

* **`Summary.text`** — a summary for reading: one line for each fact, counts moved in by two blanks.
* **`Summary.json`** — the same as data. -/

namespace Instinct

namespace Text

/-- A text filled up with blanks to a width. -/
def padRight (width : Nat) (s : String) : String :=
  s ++ String.ofList (List.replicate (width - s.length) ' ')

/-- One line for each count, the names filled up to a width. -/
def countLines (width : Nat) (m : NameMap Nat) : List String :=
  m.entries.map fun e => "  " ++ padRight width e.1 ++ " " ++ Decimal.natText e.2

/-- Lines of text, each with its end. -/
def lines (ls : List String) : String := String.join (ls.map (· ++ "\n"))

end Text

namespace Summary

open Text Decimal

/-- **A summary for reading.** -/
def text (s : Summary) : String :=
  let ms := natText s.elapsedMs.toNat
  lines (
    ["archetype: " ++ s.archetype,
     "frames:    " ++ natText s.frames ++ " (" ++ ms ++ " ms)"] ++
    countLines 8 s.statuses ++
    ["state:     " ++ s.finalState,
     "health:    " ++ fixed 1 s.finalHealth,
     "position:  (" ++ fixed 2 s.finalPosition.x ++ ", " ++ fixed 2 s.finalPosition.y ++ ")",
     "events:"] ++
    countLines 8 s.agentEvents ++
    ["effects:"] ++
    countLines 12 s.tally.effects ++
    ["trace:"] ++
    countLines 18 s.trace)

/-- Counts as an object. -/
def countsJson (m : NameMap Nat) : Json := m.json fun (n : Nat) => .int n

/-- **A summary as data.** -/
def json (s : Summary) : Json :=
  .object [
    ("archetype", .text s.archetype),
    ("frames", .int s.frames),
    ("elapsed_ms", .word s.elapsedMs),
    ("statuses", countsJson s.statuses),
    ("final_state", .text s.finalState),
    ("final_health", .single s.finalHealth),
    ("final_position", s.finalPosition.json),
    ("agent_events", countsJson s.agentEvents),
    ("scene", .object [
      ("effects", countsJson s.tally.effects),
      ("scheduled", .int s.tally.scheduled)]),
    ("trace", countsJson s.trace)]

end Summary

end Instinct
