import Instinct.Frame
import Mathlib.Logic.Equiv.Defs

/-! # Derived words stay apart

The scrambler of words can be undone, so that whatever is derived with it from different words is
different again.

* **`unmix`** — the inverse of `mix`, step by step.
* **`mixing`** — the scrambler as a permutation of the words.
* **`deriveSeed_inj_seed`**, **`deriveSeed_inj_tick`**, **`deriveSeed_inj_stream`** — a derived seed
  tells two of any of its three parts apart.
* **`drawStream_inj_site`**, **`drawStream_inj_draw`** — so does the stream of a draw. -/

namespace Instinct

/-! ## Undoing the steps of the scrambler -/

/-- Take back an exclusive or with the word shifted by `s`, a third of its length or more. -/
def unshift (s x : UInt64) : UInt64 := x ^^^ (x >>> s) ^^^ (x >>> s >>> s)

/-- Three shifts by a third of its length or more leave nothing of a word. -/
theorem shiftRight_thrice {s : UInt64} (hlow : 22 ≤ s.toNat) (hhigh : s.toNat < 64) (x : UInt64) :
    x >>> s >>> s >>> s = 0 := by
  apply UInt64.toNat_inj.mp
  rw [UInt64.toNat_shiftRight, UInt64.toNat_shiftRight, UInt64.toNat_shiftRight,
    Nat.mod_eq_of_lt hhigh, ← Nat.shiftRight_add, ← Nat.shiftRight_add]
  refine Nat.shiftRight_eq_zero _ _ (Nat.lt_of_lt_of_le x.toNat_lt ?_)
  exact Nat.pow_le_pow_right (by omega) (by omega)

/-- **The step is taken back** after it was made. -/
theorem unshift_xorShift {s : UInt64} (hlow : 22 ≤ s.toNat) (hhigh : s.toNat < 64) (x : UInt64) :
    unshift s (x ^^^ (x >>> s)) = x := by
  have hgone := shiftRight_thrice hlow hhigh x
  -- each shifted copy meets its like, but for the last, of which nothing is left
  calc unshift s (x ^^^ (x >>> s))
      = x ^^^ (x >>> s) ^^^ ((x >>> s) ^^^ (x >>> s >>> s))
          ^^^ ((x >>> s >>> s) ^^^ (x >>> s >>> s >>> s)) := by
        simp only [unshift, UInt64.shiftRight_xor]
    _ = x ^^^ ((x >>> s) ^^^ (x >>> s)) ^^^ ((x >>> s >>> s) ^^^ (x >>> s >>> s)) ^^^ 0 := by
        rw [hgone]
        simp only [UInt64.xor_assoc]
    _ = x := by simp only [UInt64.xor_self, UInt64.xor_zero]

/-- **The step is made** after it was taken back. -/
theorem xorShift_unshift {s : UInt64} (hlow : 22 ≤ s.toNat) (hhigh : s.toNat < 64) (x : UInt64) :
    unshift s x ^^^ (unshift s x >>> s) = x := by
  have hgone := shiftRight_thrice hlow hhigh x
  -- the copies meet their likes in another order here, and again nothing is left of the last
  calc unshift s x ^^^ (unshift s x >>> s)
      = x ^^^ (x >>> s) ^^^ (x >>> s >>> s)
          ^^^ ((x >>> s) ^^^ (x >>> s >>> s) ^^^ (x >>> s >>> s >>> s)) := by
        simp only [unshift, UInt64.shiftRight_xor]
    _ = x ^^^ ((x >>> s) ^^^ (x >>> s >>> s)) ^^^ ((x >>> s) ^^^ (x >>> s >>> s)) ^^^ 0 := by
        rw [hgone]
        simp only [UInt64.xor_assoc]
    _ = x := by rw [UInt64.xor_assoc x, UInt64.xor_self, UInt64.xor_zero, UInt64.xor_zero]

/-- A multiplication is taken back by one with an inverse of the factor. -/
theorem mul_mul_cancel {a b : UInt64} (hab : a * b = 1) (x : UInt64) : x * a * b = x := by
  rw [UInt64.mul_assoc, hab, UInt64.mul_one]

/-- So it tells two words apart. -/
theorem mul_inj_of_mul_eq_one {a b : UInt64} (hab : a * b = 1) {x y : UInt64} :
    x * a = y * a ↔ x = y := by
  refine ⟨fun h => ?_, congrArg (· * a)⟩
  rw [← mul_mul_cancel hab x, h, mul_mul_cancel hab]

/-! ## The scrambler as a permutation -/

/-- **The inverse of the scrambler**: its steps taken back in the opposite order, the two factors by
their inverses modulo `2 ^ 64`. -/
def unmix (x : UInt64) : UInt64 :=
  let x := unshift 27 (unshift 31 x * 0x319642B2D24D8EC3)
  unshift 30 (x * 0x96DE1B173F119089)

/-- The scrambler is undone, from its last step to its first. -/
theorem unmix_mix (x : UInt64) : unmix (mix x) = x := by
  simp only [unmix, mix]
  rw [unshift_xorShift (by decide) (by decide), mul_mul_cancel (by decide),
    unshift_xorShift (by decide) (by decide), mul_mul_cancel (by decide),
    unshift_xorShift (by decide) (by decide)]

/-- And what undoes it is undone by it. -/
theorem mix_unmix (x : UInt64) : mix (unmix x) = x := by
  simp only [unmix, mix]
  rw [xorShift_unshift (by decide) (by decide), mul_mul_cancel (by decide),
    xorShift_unshift (by decide) (by decide), mul_mul_cancel (by decide),
    xorShift_unshift (by decide) (by decide)]

/-- **The scrambler as a permutation of the words.** -/
def mixing : UInt64 ≃ UInt64 where
  toFun := mix
  invFun := unmix
  left_inv := unmix_mix
  right_inv := mix_unmix

/-- The scrambler tells two words apart. -/
@[simp] theorem mix_inj {x y : UInt64} : mix x = mix y ↔ x = y := mixing.apply_eq_iff_eq

/-! ## Derived seeds and streams -/

/-- **A derived seed tells two seeds apart** at the same tick in the same stream. -/
theorem deriveSeed_inj_seed {seed seed' tick stream : UInt64} :
    deriveSeed seed tick stream = deriveSeed seed' tick stream ↔ seed = seed' := by
  rw [deriveSeed, deriveSeed, mix_inj, UInt64.xor_left_inj, UInt64.xor_left_inj]

/-- **It tells two ticks apart**: both are raised by one step and scrambled, which takes no two to
the same. -/
theorem deriveSeed_inj_tick {seed tick tick' stream : UInt64} :
    deriveSeed seed tick stream = deriveSeed seed tick' stream ↔ tick = tick' := by
  rw [deriveSeed, deriveSeed, mix_inj, UInt64.xor_left_inj, UInt64.xor_right_inj, mix_inj,
    UInt64.add_left_inj]

/-- **It tells two streams apart.** -/
theorem deriveSeed_inj_stream {seed tick stream stream' : UInt64} :
    deriveSeed seed tick stream = deriveSeed seed tick stream' ↔ stream = stream' := by
  rw [deriveSeed, deriveSeed, mix_inj, UInt64.xor_right_inj, mix_inj]

/-- **The stream of a draw tells two places apart** where draws are made. -/
theorem drawStream_inj_site {site site' draw : UInt64} :
    drawStream site draw = drawStream site' draw ↔ site = site' := by
  rw [drawStream, drawStream, mix_inj, UInt64.xor_left_inj]

/-- **It tells two draws apart** that are made at one place. -/
theorem drawStream_inj_draw {site draw draw' : UInt64} :
    drawStream site draw = drawStream site draw' ↔ draw = draw' := by
  rw [drawStream, drawStream, mix_inj, UInt64.xor_right_inj, mix_inj, UInt64.add_left_inj]

/-! ## Random sources -/

namespace Frame

variable {f : Frame} {site site' draw draw' salt salt' : UInt64}

/-- Two draws at one place start from different states. -/
theorem drawGenerator_inj_draw :
    (f.drawGenerator site draw).state = (f.drawGenerator site draw').state ↔ draw = draw' := by
  rw [drawGenerator, drawGenerator, generator, generator, deriveSeed_inj_stream,
    drawStream_inj_draw]

/-- The same draw at two places starts from different states. -/
theorem drawGenerator_inj_site :
    (f.drawGenerator site draw).state = (f.drawGenerator site' draw).state ↔ site = site' := by
  rw [drawGenerator, drawGenerator, generator, generator, deriveSeed_inj_stream,
    drawStream_inj_site]

/-- Differently salted frames have different seeds. -/
theorem salted_inj : (f.salted salt).seed = (f.salted salt').seed ↔ salt = salt' := by
  rw [salted, salted, deriveSeed_inj_tick]

end Frame

end Instinct
