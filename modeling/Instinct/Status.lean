/-! # What a tick reports, and the kinds of nodes

* **`Status`** — running, success or failure; there is no fourth.
* **`Kind`**, **`Category`** — what a node is, as shown to a reader.
* **`Arity`** — how many children a node can take.
* **`Level`** — how loud a message is. -/

namespace Instinct

/-- **The outcome of one tick.** -/
inductive Status where
  | running
  | success
  | failure
deriving DecidableEq, Inhabited

namespace Status

/-- Whether another tick is expected. -/
def isRunning : Status → Bool
  | running => true
  | success | failure => false

/-- Whether the run is over. -/
def isDone (s : Status) : Bool := !s.isRunning

/-- Success and failure swapped. -/
def invert : Status → Status
  | running => running
  | success => failure
  | failure => success

/-- The number that stands for a status in trace events. -/
def code : Status → UInt64
  | running => 0
  | success => 1
  | failure => 2

/-- The status as a word in lower case. -/
def word : Status → String
  | running => "running"
  | success => "success"
  | failure => "failure"

/-- The status with a capital letter. -/
def title : Status → String
  | running => "Running"
  | success => "Success"
  | failure => "Failure"

/-- Of the three statuses this one alone is running. -/
@[simp] theorem isRunning_running : running.isRunning = true := rfl
/-- A success is over. -/
@[simp] theorem isRunning_success : success.isRunning = false := rfl
/-- A failure is over. -/
@[simp] theorem isRunning_failure : failure.isRunning = false := rfl

/-- Turned around twice a status is as it was. -/
@[simp] theorem invert_invert (s : Status) : s.invert.invert = s := by cases s <;> rfl

/-- A status turned around is running if it was. -/
@[simp] theorem isRunning_invert (s : Status) : s.invert.isRunning = s.isRunning := by
  cases s <;> rfl

/-- A condition's answer as a status. -/
def ofBool : Bool → Status
  | true => success
  | false => failure

end Status

/-- The groups of node kinds. -/
inductive Category where
  | composite
  | decorator
  | leaf
deriving DecidableEq, Inhabited

/-- The name of a group. -/
def Category.name : Category → String
  | composite => "Composite"
  | decorator => "Decorator"
  | leaf => "Leaf"

/-- **What a node is.** -/
inductive Kind where
  | sequence | selector | parallel | randomSelector | weightedSelector
  | inverter | succeeder | failer | repeater | retry | timeout | cooldown | conditional
  | action | condition | wait | success | failure | running | log | setValue | clearValue
  | custom
deriving DecidableEq, Inhabited

namespace Kind

/-- All kinds, grouped as they are declared. -/
def all : List Kind :=
  [sequence, selector, parallel, randomSelector, weightedSelector,
   inverter, succeeder, failer, repeater, retry, timeout, cooldown, conditional,
   action, condition, wait, success, failure, running, log, setValue, clearValue, custom]

/-- The name of a kind, which is also the name of a node that was given none. -/
def name : Kind → String
  | sequence => "Sequence"
  | selector => "Selector"
  | parallel => "Parallel"
  | randomSelector => "RandomSelector"
  | weightedSelector => "WeightedSelector"
  | inverter => "Inverter"
  | succeeder => "Succeeder"
  | failer => "Failer"
  | repeater => "Repeater"
  | retry => "Retry"
  | timeout => "Timeout"
  | cooldown => "Cooldown"
  | conditional => "Conditional"
  | action => "Action"
  | condition => "Condition"
  | wait => "Wait"
  | success => "Success"
  | failure => "Failure"
  | running => "Running"
  | log => "Log"
  | setValue => "SetValue"
  | clearValue => "ClearValue"
  | custom => "Custom"

/-- The group of a kind. -/
def category : Kind → Category
  | sequence | selector | parallel | randomSelector | weightedSelector => .composite
  | inverter | succeeder | failer | repeater | retry | timeout | cooldown | conditional =>
    .decorator
  | _ => .leaf

end Kind

/-- **How many children a node can take.** -/
inductive Arity where
  | none
  | one
  | many
deriving DecidableEq, Inhabited

/-- Whether a node with `count` children has room for one more. -/
def Arity.hasRoom : Arity → Nat → Bool
  | none, _ => false
  | one, count => count == 0
  | many, _ => true

/-- **How loud a message is.** -/
inductive Level where
  | trace
  | debug
  | info
  | warn
  | error
deriving DecidableEq

instance : Inhabited Level := ⟨.info⟩

/-- The name of a level, in lower case. -/
def Level.word : Level → String
  | trace => "trace"
  | debug => "debug"
  | info => "info"
  | warn => "warn"
  | error => "error"

/-- The level of a name in lower case. -/
def Level.ofWord? (s : String) : Option Level :=
  [trace, debug, info, warn, error].find? (·.word = s)

end Instinct
