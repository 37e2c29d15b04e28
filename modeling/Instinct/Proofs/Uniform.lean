import Instinct.Proofs.Coupling.Exact
import Instinct.Proofs.Indices
import Mathlib.Data.FinEnum

/-! # Choices are uniform over the seeds

A fresh choice scrambles the seed into a word, keeps the lower half of it and scales that half to an
index. The first step is a permutation of the words, the second is the same for equally many words
each, and the third splits the halves into even runs.

* **`halves`**, **`card_lower`** — a word as its two halves.
* **`Frame.word_bijective`** — at a draw site each word comes from exactly one seed.
* **`Node.random_choice_uniform`** — how many seeds pick a child. -/

namespace Instinct

/-! ## (1) The two halves of a word -/

/-- **A word as its two halves**, the lower one first. -/
def halves : UInt64 ≃ UInt32 × UInt32 where
  toFun word := (word.toUInt32, (word >>> 32).toUInt32)
  invFun pair := pair.2.toUInt64 * 0x100000000 + pair.1.toUInt64
  left_inv word := by
    have hword := word.toNat_lt
    apply UInt64.toNat_inj.mp
    simp only [UInt64.toNat_add, UInt64.toNat_mul, UInt32.toNat_toUInt64, UInt64.toNat_toUInt32,
      UInt64.toNat_shiftRight]
    show ((word.toNat >>> 32) % 4294967296 * 4294967296 % 18446744073709551616
      + word.toNat % 4294967296) % 18446744073709551616 = word.toNat
    rw [Nat.shiftRight_eq_div_pow]
    omega
  right_inv pair := by
    have hlow := pair.1.toNat_lt
    have hhigh := pair.2.toNat_lt
    apply Prod.ext
    · -- the lower half is what is left when whole multiples of its size are taken away
      apply UInt32.toNat_inj.mp
      simp only [UInt64.toNat_add, UInt64.toNat_mul, UInt32.toNat_toUInt64, UInt64.toNat_toUInt32]
      show (pair.2.toNat * 4294967296 % 18446744073709551616 + pair.1.toNat)
        % 18446744073709551616 % 4294967296 = pair.1.toNat
      omega
    · -- the upper half is how many such multiples there are
      apply UInt32.toNat_inj.mp
      simp only [UInt64.toNat_add, UInt64.toNat_mul, UInt32.toNat_toUInt64, UInt64.toNat_toUInt32,
        UInt64.toNat_shiftRight]
      show ((pair.2.toNat * 4294967296 % 18446744073709551616 + pair.1.toNat)
        % 18446744073709551616) >>> 32 % 4294967296 = pair.2.toNat
      rw [Nat.shiftRight_eq_div_pow]
      omega

/-- **A condition on the lower half of a word** is met by `2 ^ 32` times as many words as halves. -/
theorem card_lower (p : UInt32 → Prop) :
    Nat.card {word : UInt64 // p word.toUInt32} =
      UInt32.size * Nat.card {word : UInt32 // p word} := by
  have hsize : Nat.card UInt32 = UInt32.size := by
    rw [Nat.card_congr (FinEnum.equiv (α := UInt32)), Nat.card_fin]
    rfl
  let split : {word : UInt64 // p word.toUInt32} ≃ {word : UInt32 // p word} × UInt32 :=
    (halves.subtypeEquiv fun _ => Iff.rfl).trans Equiv.prodSubtypeFstEquivSubtypeProd
  -- the upper half is free
  rw [Nat.card_congr split, Nat.card_prod, hsize, Nat.mul_comm]

/-! ## (2) Seeds -/

/-- **Each word comes from exactly one seed** at a draw site: the first word of its random source
is a permutation of the seeds. -/
theorem Frame.word_bijective (f : Frame) (site draw : UInt64) :
    Function.Bijective fun seed => (drawGenerator { f with seed } site draw).next64.1 := by
  refine Finite.injective_iff_bijective.mp fun seed seed' h => ?_
  -- the scrambler, the step of the counter and the derived seed each tell two words apart
  exact deriveSeed_inj_seed.mp ((UInt64.add_left_inj goldenStep).mp (mix_inj.mp h))

/-- The child that a fresh choice among so many picks. -/
def Draws.pick (d : Draws) (count : Nat) (f : Frame) : Nat := pickUniform count (d.generator f)

namespace Draws

variable (d : Draws) (f : Frame) {count : Nat}

/-- What is picked is as far into the count as the lower half of the draw is into its words. -/
theorem pick_eq (hcount : count ≤ UInt32.size) :
    d.pick count f
      = (f.drawGenerator d.stream d.count).next64.1.toUInt32.toNat * count / UInt32.size :=
  toNat_scaleIndex _ hcount

/-- A pick is one of those there are. -/
theorem pick_lt (hpos : 0 < count) (hcount : count ≤ UInt32.size) : d.pick count f < count :=
  (evenRuns_scaleIndex hpos hcount).lt _

/-- **How many seeds pick a child**: as many as there are words of its index, `2 ^ 32` times. -/
theorem card_seeds (hcount : count ≤ UInt32.size) {i : Nat} (hi : i < count) :
    Nat.card {seed // d.pick count { f with seed } = i}
      = UInt32.size * (runStart count (i + 1) - runStart count i) := by
  let words := Equiv.ofBijective _ (f.word_bijective d.stream d.count)
  have hwords : ∀ seed, d.pick count { f with seed } = i ↔
      (words seed).toUInt32.toNat * count / UInt32.size = i := by
    intro seed
    rw [pick_eq d _ hcount]
    rfl
  let stands (word : UInt32) : Prop := word.toNat * count / UInt32.size = i
  rw [Nat.card_congr (words.subtypeEquiv (q := fun word => stands word.toUInt32) hwords),
    card_lower stands, card_words hi]

end Draws

/-! ## (3) Random selectors -/

/-- One tick of a composite that has no child chosen: it commits to a fresh choice. -/
theorem Composite.tickChosen_fresh {N N' G : Type} (m : Machine N G) (make : Draws → Composite)
    (wrap : Composite → List N → N') (pick : Generator → Nat) (f : Frame) {d : Draws}
    (hfresh : d.chosen = none) {children : List N} (hsome : children ≠ []) (w : World G) :
    (tickChosen m make pick f d children w).map (fun r => wrap r.1 r.2) =
      let i := pick (d.generator f)
      let o := m.tickAt f i children w
      ⟨o.status,
        wrap (make (if o.status.isDone then (d.commit i).release else d.commit i)) o.node,
        o.world⟩ := by
  have hne : ¬ children.isEmpty := by rwa [List.isEmpty_iff]
  rw [tickChosen, if_neg hne]
  simp only [hfresh]
  rfl

namespace Node

variable {G : Type}

/-- One tick of a random selector that is not committed: it commits to a fresh choice and ticks
that child. -/
theorem tick_random_fresh (title : Option String) {d : Draws} (hfresh : d.chosen = none)
    {children : List (Node G)} (hsome : children ≠ []) (f : Frame) (w : World G) :
    (composite title (.random d) children).tick f w =
      let i := d.pick children.length f
      let o := asMachine.tickAt f i children w
      ⟨o.status,
        composite title (.random (if o.status.isDone then (d.commit i).release else d.commit i))
          o.node,
        o.world⟩ := by
  rw [tick_eq, Draws.pick]
  exact Composite.tickChosen_fresh asMachine .random (composite title) _ f hfresh hsome w

/-- **A random selector is fair over the seeds.** With up to `2 ^ 32` children, a tick without a
child chosen ticks the child that a fresh choice picks. Whatever the tick number, the stream and the
draw number, that is always one of the children; each of them is picked by some seed; and the number
of seeds that pick it is `2 ^ 32` times the number of children's share in `2 ^ 32`, rounded down or
up. -/
theorem random_choice_uniform (title : Option String) {d : Draws} (hfresh : d.chosen = none)
    {children : List (Node G)} (hsome : 1 ≤ children.length)
    (hfew : children.length ≤ UInt32.size) (frame : Frame) :
    (∀ f w, (composite title (.random d) children).tick f w =
      let i := d.pick children.length f
      let o := asMachine.tickAt f i children w
      ⟨o.status,
        composite title (.random (if o.status.isDone then (d.commit i).release else d.commit i))
          o.node,
        o.world⟩) ∧
    (∀ seed, d.pick children.length { frame with seed } < children.length) ∧
    ∀ i < children.length,
      (∃ seed, d.pick children.length { frame with seed } = i) ∧
      ∃ c, (c = UInt32.size / children.length ∨ c = UInt32.size ⌈/⌉ children.length) ∧
        Nat.card {seed // d.pick children.length { frame with seed } = i} = UInt32.size * c := by
  have hne : children ≠ [] := List.length_pos_iff.mp hsome
  refine ⟨tick_random_fresh title hfresh hne, fun seed => d.pick_lt _ hsome hfew, fun i hi => ?_⟩
  have hcard := d.card_seeds frame hfew hi
  have hrun := length_run hsome i
  refine ⟨?_, _, hrun, hcard⟩
  -- a share is at least one word, so there are seeds to be had
  have hfloor : 0 < UInt32.size / children.length := Nat.div_pos hfew hsome
  have hshare : 0 < runStart children.length (i + 1) - runStart children.length i := by
    rcases hrun with h | h
    · rwa [h]
    · rw [h]
      exact hfloor.trans_le (Nat.floorDiv_eq_div _ _ ▸ floorDiv_le_ceilDiv)
  have hpos : 0 < Nat.card {seed // d.pick children.length { frame with seed } = i} := by
    rw [hcard]
    exact Nat.mul_pos (by decide) hshare
  obtain ⟨seed, hseed⟩ := (Nat.card_pos_iff.mp hpos).1
  exact ⟨seed, hseed⟩

/-- Three children at the third draw of a site: each of them has a third of the words, rounded down
or up. -/
theorem random_choice_uniform_three :
    let d : Draws := { stream := 1, count := 2 }
    let frame : Frame := { tick := 5 }
    let children : List (Node Unit) :=
      [leaf none (.fixed .success), leaf none (.fixed .failure), leaf none (.fixed .running)]
    d.chosen = none ∧ 1 ≤ children.length ∧ children.length ≤ UInt32.size ∧
    ∀ i < children.length,
      (∃ seed, d.pick children.length { frame with seed } = i) ∧
      ∃ c, (c = 1431655765 ∨ c = 1431655766) ∧
        Nat.card {seed // d.pick children.length { frame with seed } = i} = UInt32.size * c := by
  intro d frame children
  have hfresh : d.chosen = none := rfl
  have hsome : 1 ≤ children.length := by decide
  have hfew : children.length ≤ UInt32.size := by decide
  -- the two sizes are put in as numbers, and the general theorem is read off
  have hfloor : UInt32.size / children.length = 1431655765 := by decide
  have hceil : UInt32.size ⌈/⌉ children.length = 1431655766 := by
    rw [Nat.ceilDiv_eq_add_pred_div]
    decide
  obtain ⟨-, -, hshares⟩ := random_choice_uniform none hfresh hsome hfew frame
  rw [hfloor, hceil] at hshares
  exact ⟨hfresh, hsome, hfew, hshares⟩

end Node

end Instinct
