/-! # Trace events

* **`TraceEvent`** — one recorded moment: the tick, a tag, perhaps a label, and two payload words.
* **`TraceLog`** — the events of a run in the order of their recording. -/

namespace Instinct

/-- **One recorded moment of a run.** What `a` and `b` mean depends on the tag. -/
structure TraceEvent where
  /-- The tick at which it happened. -/
  tick : UInt64
  /-- What kind of moment it is. -/
  tag : String
  /-- What it is about, such as the name of a pattern. -/
  label : Option String := none
  /-- The first payload word. -/
  a : UInt64 := 0
  /-- The second payload word. -/
  b : UInt64 := 0
deriving DecidableEq, Inhabited

/-- The tag of the event that closes each tick of a tree; `a` is the code of the status. -/
def treeTickTag : String := "bt.tree.tick"

/-- The tag of the event that records which pattern was picked, without a label if none was. -/
def patternSelectTag : String := "patterns.select"

/-- The tag of the event that records a tick of a pattern; `a` is the code of the status. -/
def patternExecuteTag : String := "patterns.execute"

/-- **The events of a run**, oldest first. -/
structure TraceLog where
  events : Array TraceEvent
deriving DecidableEq, Inhabited

namespace TraceLog

/-- The log without events. -/
def empty : TraceLog := ⟨#[]⟩

/-- Record one more event. -/
def push (log : TraceLog) (e : TraceEvent) : TraceLog := ⟨log.events.push e⟩

/-- The events that carry a tag, in the order of their recording. -/
def withTag (log : TraceLog) (tag : String) : List TraceEvent :=
  log.events.toList.filter (·.tag = tag)

/-- A new log has no events. -/
@[simp] theorem toList_empty : empty.events.toList = [] := rfl

/-- An event is put behind the others. -/
@[simp] theorem toList_push (log : TraceLog) (e : TraceEvent) :
    (log.push e).events.toList = log.events.toList ++ [e] := by simp [push]

end TraceLog

end Instinct
