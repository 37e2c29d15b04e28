/-! # Reproducible random draws

Every random choice is a function of 64-bit words: a seed, a tick number and a stream number. The
same words give the same draw on every machine and in every replay. None of this is meant to resist
an adversary.

* **`mix`** — a bijective scrambler of one word.
* **`deriveSeed`, `drawStream`** — the word for one draw site, and for one of its draws.
* **`nameSalt`** — a word for a name, from the bytes of its UTF-8 form.
* **`Generator`** — a counter stepped by a fixed odd constant and scrambled by `mix`. -/

namespace Instinct

/-- The step of the generator's counter, an odd word close to `2 ^ 64` divided by the golden
ratio. -/
def goldenStep : UInt64 := 0x9E3779B97F4A7C15

/-- **Scramble a word.** Two rounds of shift, exclusive or and multiplication by an odd constant,
and a last shift: each of them can be undone, so different words stay different. -/
def mix (x : UInt64) : UInt64 :=
  let x := (x ^^^ (x >>> 30)) * 0xBF58476D1CE4E5B9
  let x := (x ^^^ (x >>> 27)) * 0x94D049BB133111EB
  x ^^^ (x >>> 31)

/-- The seed of one draw site: fixed by the seed of the run, the tick and the stream. -/
def deriveSeed (seed tick stream : UInt64) : UInt64 :=
  mix (seed ^^^ mix (tick + goldenStep) ^^^ mix stream)

/-- The stream of draw number `draw` at one draw site, so that several draws within one tick do not
repeat each other. -/
def drawStream (site draw : UInt64) : UInt64 :=
  mix (site ^^^ mix (draw + goldenStep))

/-- One byte taken into the salt of a name. -/
def saltByte (salt : UInt64) (byte : UInt8) : UInt64 :=
  (salt ^^^ byte.toUInt64) * 0x100000001B3

/-- **The salt of a name**: the bytes of its UTF-8 form, taken in one after the other. -/
def nameSalt (name : String) : UInt64 :=
  name.toByteArray.data.toList.foldl saltByte 0xCBF29CE484222325

/-- A source of random words, known by its current state. -/
structure Generator where
  /-- The counter from which the next word is made. -/
  state : UInt64
deriving DecidableEq

/-- The index below `len` that a 32-bit word stands for: the upper half of their product, so that
the words are split into `len` runs of nearly equal length. -/
def scaleIndex (word : UInt32) (len : UInt64) : UInt64 :=
  (word.toUInt64 * len) >>> 32

/-- The number in `[0, 1)` that a 32-bit word stands for, by its upper 24 bits. -/
def unitInterval (word : UInt32) : Float32 :=
  (word >>> 8).toFloat32 / 16777216

namespace Generator

/-- The next 64-bit word and the generator after it. -/
def next64 (g : Generator) : UInt64 × Generator :=
  let state := g.state + goldenStep
  (mix state, ⟨state⟩)

/-- The next 32-bit word, the lower half of a 64-bit one. -/
def next32 (g : Generator) : UInt32 × Generator :=
  let (word, g) := g.next64
  (word.toUInt32, g)

/-- The next number in `[0, 1)`. -/
def nextUnit (g : Generator) : Float32 × Generator :=
  let (word, g) := g.next32
  (unitInterval word, g)

/-- The next index below `len`. -/
def nextIndex (g : Generator) (len : UInt64) : UInt64 × Generator :=
  let (word, g) := g.next32
  (scaleIndex word len, g)

/-- The next coin toss, by the lowest bit of a word. -/
def nextBool (g : Generator) : Bool × Generator :=
  let (word, g) := g.next64
  (word &&& 1 == 1, g)

end Generator

end Instinct
