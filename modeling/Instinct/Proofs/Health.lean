import Instinct.Demo.Arena
import Instinct.Proofs.Weights.Rounded

/-! # Healing does not kill

A fighter is dead if its health is not above zero, and a number that single precision does not have
is not below zero either. What is added to a positive health is rounded to a word of 32 bits, and it
has to be shown that it does not get lost there.

* **`Positive`**, **`positive_iff`** — the numbers above zero, and no number.
* **`Fits`**, **`fits_roundWithAccuracy`** — a significand and an exponent that a word has room
  for, and rounding leads to such.
* **`Positive.add`**, **`Fits.repack`**, **`add_positive`** — sums of positive numbers are positive.
* **`Fighter.Hale`**, **`Fighter.Hale.heal`** — a living fighter is still alive after it is
  healed. -/

namespace Instinct

open Float.Model Float.Model.UnpackedFloat

/-! ## (1) Positive numbers -/

/-- **The numbers above zero**, and no number. -/
inductive Positive : UnpackedFloat → Prop
  | notANumber : Positive .notANumber
  | infinity : Positive (.infinity .positive)
  | finite {m : Nat} {e : Int} (h : 0 < m) : Positive (.finite .positive m e h)

/-- The comparison of numbers, by the words that they are. -/
theorem le_iff_compare (x y : Float32) :
    x ≤ y ↔ (x.toModel.unpack.compare y.toModel.unpack).any (·.isLE) = true := by
  show decide (x.toModel ≤ y.toModel) = true ↔ _
  rw [decide_eq_true_iff]
  rfl

/-- **To be above zero** is not to be at most zero; no number passes as well. -/
theorem positive_iff {x : Float32} : Positive x.toModel.unpack ↔ ¬ x ≤ 0 := by
  rw [le_iff_compare, unpack_zero]
  generalize x.toModel.unpack = u
  constructor
  · intro h
    cases h <;> exact Bool.false_ne_true
  · intro h
    -- whatever is not above zero compares as at most zero
    cases u with
    | notANumber => exact .notANumber
    | zero s => exact absurd rfl h
    | infinity s =>
      cases s with
      | positive => exact .infinity
      | negative => exact absurd rfl h
    | finite s m e hm =>
      cases s with
      | positive => exact .finite hm
      | negative => exact absurd rfl h

/-! ## (2) Rounding -/

/-- **A significand and an exponent that a word has room for.** -/
structure Fits (m : Nat) (e : Int) : Prop where
  pos : 0 < m
  lt : m < 16777216
  le : -149 ≤ e

/-- Shifting halves the significand, rounding down. -/
theorem mantissa_shiftRight (em : ExtendedMantissa) (k : Nat) :
    (em >>> k).mantissa = em.mantissa / 2 ^ k := by
  induction k with
  | zero => exact (Nat.div_one _).symm
  | succ k ih =>
    show (em >>> k).mantissa / 2 = _
    rw [ih, Nat.div_div_eq_div_mul, Nat.pow_succ]

/-- The significand does not depend on what was lost before. -/
theorem mantissa_ofMantissaAndAccuracy (m : Nat) (a : Accuracy) :
    (ExtendedMantissa.ofMantissaAndAccuracy m a).mantissa = m := by
  cases a with
  | exact => rfl
  | inexact o => cases o <;> rfl

/-- Rounding never goes below what is left. -/
theorem mantissa_le_rounded (em : ExtendedMantissa) : em.mantissa ≤ em.roundedMantissa := by
  obtain ⟨m, roundBit, stickyBit⟩ := em
  cases roundBit <;> cases stickyBit
  · exact Nat.le_refl m
  · exact Nat.le_refl m
  · exact Nat.le_add_right m _
  · exact Nat.le_succ m

/-- **Shifting leads to numbers that a word has room for**, and not down to zero. -/
theorem fits_shift {m : Nat} {e : Int} (hm : 0 < m) (he : -149 ≤ e) (a : Accuracy) :
    Fits (shiftToTargetExponent Format.binary32 m e a).1.mantissa
      (shiftToTargetExponent Format.binary32 m e a).2 := by
  have hlog : 2 ^ m.log2 ≤ m ∧ m < 2 ^ (m.log2 + 1) :=
    ⟨Nat.log2_self_le (Nat.ne_of_gt hm), Nat.lt_log2_self⟩
  obtain ⟨k, hk⟩ : ∃ k, (Format.binary32.targetExponent (totalExponent m e) - e).toNat = k :=
    ⟨_, rfl⟩
  -- as many bits are dropped as there are above 24, if not fewer are asked for
  have hbits : m.log2 + 1 ≤ 24 + k ∧ k ≤ m.log2 := by
    simp only [Format.targetExponent, totalExponent, Format.mantissaBits, Format.minExponent] at hk
    omega
  have hmantissa : (shiftToTargetExponent Format.binary32 m e a).1.mantissa = m / 2 ^ k := by
    unfold shiftToTargetExponent shiftToExponent
    dsimp only
    rw [hk, mantissa_shiftRight, mantissa_ofMantissaAndAccuracy]
  rw [hmantissa]
  constructor
  · have hlow : 2 ^ k ≤ 2 ^ m.log2 := Nat.pow_le_pow_right Nat.two_pos hbits.2
    exact Nat.div_pos (Nat.le_trans hlow hlog.1) (Nat.two_pow_pos k)
  · have hhigh : 2 ^ (m.log2 + 1) ≤ 2 ^ (24 + k) := Nat.pow_le_pow_right Nat.two_pos hbits.1
    rw [Nat.div_lt_iff_lt_mul (Nat.two_pow_pos k)]
    calc m < 2 ^ (m.log2 + 1) := hlog.2
      _ ≤ 2 ^ (24 + k) := hhigh
      _ = 16777216 * 2 ^ k := Nat.pow_add 2 24 k
  · show -149 ≤ e + _
    omega

/-- **Rounding leads to numbers that a word has room for**, and not down to zero. -/
theorem fits_roundWithAccuracy {m : Nat} {e : Int} (hm : 0 < m) (he : -149 ≤ e) (a : Accuracy) :
    ∃ m' e' h, roundWithAccuracy Format.binary32 .positive m e a = .finite .positive m' e' h ∧
      Fits m' e' := by
  have hfirst := fits_shift hm he a
  have hrounded := Nat.lt_of_lt_of_le hfirst.pos (mantissa_le_rounded _)
  have hsecond := fits_shift hrounded hfirst.le .exact
  unfold roundWithAccuracy
  dsimp only
  rw [dif_neg (Nat.ne_of_gt hsecond.pos)]
  exact ⟨_, _, _, rfl, hsecond⟩

/-- **Bringing a positive number into form** neither loses it nor makes it too long. -/
theorem fits_normalize {m : Int} {e : Int} (hm : 0 < m) (he : -149 ≤ e) (s : Sign) :
    ∃ m' e' h, UnpackedFloat.normalize Format.binary32 m e s = .finite .positive m' e' h ∧
      Fits m' e' := by
  -- the sign is read off the significand
  have hpos : compare m 0 = .gt := Int.compare_eq_gt.mpr hm
  rw [UnpackedFloat.normalize, hpos]
  dsimp only
  unfold UnpackedFloat.round decreaseExponent
  apply fits_roundWithAccuracy
  · rw [Nat.shiftLeft_eq]
    exact Nat.mul_pos (by omega) (Nat.two_pow_pos _)
  · -- the exponent is not taken below the least one
    simp only [Format.targetExponent, Format.mantissaBits, Format.minExponent]
    omega

/-! ## (3) Sums -/

/-- **Sums of positive numbers** are positive, and have room in a word if they are finite. -/
theorem Positive.add {u v : UnpackedFloat} (hu : Positive u) (hv : Positive v) (hu' : Shaped u)
    (hv' : Shaped v) :
    UnpackedFloat.add Format.binary32 u v = .notANumber ∨
      UnpackedFloat.add Format.binary32 u v = .infinity .positive ∨
      ∃ m e h, UnpackedFloat.add Format.binary32 u v = .finite .positive m e h ∧ Fits m e := by
  -- all but the sum of two finite numbers is no number or infinite
  cases hu with
  | notANumber => exact .inl rfl
  | infinity =>
    cases hv with
    | notANumber => exact .inl rfl
    | infinity => exact .inr (.inl rfl)
    | finite hm => exact .inr (.inl rfl)
  | @finite m e hm =>
    cases hv with
    | notANumber => exact .inl rfl
    | infinity => exact .inr (.inl rfl)
    | @finite m' e' hm' =>
      refine .inr (.inr ?_)
      have hle := hu'.le
      have hle' := hv'.le
      apply fits_normalize
      · -- the significands are added after both are shifted to the lower exponent
        show (0 : Int) < (m <<< (e - min e e').toNat : Nat) + (m' <<< (e' - min e e').toNat : Nat)
        -- one of them is positive as it stands, and that is enough
        have hleft : 0 < m <<< (e - min e e').toNat := by
          rw [Nat.shiftLeft_eq]
          exact Nat.mul_pos hm (Nat.two_pow_pos _)
        exact Int.add_pos_of_pos_of_nonneg (Int.natCast_pos.mpr hleft) (Int.natCast_nonneg _)
      · omega

/-- A word of positive sign is above zero if any other bit of it is set. -/
theorem positive_packComponents {e : BitVec Format.binary32.exponentBits}
    {m : BitVec Format.binary32.mantissaBitsWithoutImplicit} (h : e ≠ 0 ∨ m ≠ 0) :
    Positive (.unpack Format.binary32 (packComponents Format.binary32 .positive e m)) := by
  rw [UnpackedFloat.unpack]
  simp only [unpackSign_packComponents, unpackExponent_packComponents,
    unpackMantissa_packComponents]
  -- a full exponent is infinity or no number
  split
  · split
    · exact .infinity
    · exact .notANumber
  · -- an empty one with a significand below it is still above zero
    split
    · next he =>
      split
      · next hm => exact absurd hm (h.resolve_left fun hne => hne he)
      · exact .finite _
    · exact .finite _

/-- **A number that a word has room for** is not packed as zero. -/
theorem Fits.repack {m : Nat} {e : Int} (h : Fits m e) :
    Positive (Float32.Model.pack (.finite .positive m e h.pos)).unpack := by
  have hle := h.le
  show Positive (.unpack Format.binary32
    (UnpackedFloat.pack Format.binary32 (.finite .positive m e h.pos)))
  rw [UnpackedFloat.pack]
  dsimp only
  split
  · exact .infinity
  · next hroom =>
    split
    · -- all 24 bits are used, so the exponent is not that of the least numbers
      refine positive_packComponents (.inl fun hzero => ?_)
      have hbias : Format.binary32.exponentBias = 127 := rfl
      have hexponent : (e + Format.binary32.exponentBias + (23 : Nat)).toNat % 2 ^ 8 = 0 :=
        congrArg BitVec.toNat hzero
      rw [hbias] at hroom hexponent
      omega
    · next hbits =>
      -- there are fewer bits, and none is lost
      refine positive_packComponents (.inr fun hzero => ?_)
      have hmantissa : m % 2 ^ 23 = 0 := congrArg BitVec.toNat hzero
      have hlog : m.log2 < 24 := (Nat.log2_lt (Nat.ne_of_gt h.pos)).mpr h.lt
      have hlow : m < 8388608 := by
        refine (Nat.log2_lt (Nat.ne_of_gt h.pos)).mp (?_ : m.log2 < 23)
        simp only [Format.mantissaBits] at hbits
        omega
      have hpos := h.pos
      omega

/-- **The sum of positive numbers is positive.** -/
theorem add_positive {x y : Float32} (hx : ¬ x ≤ 0) (hy : ¬ y ≤ 0) : ¬ x + y ≤ 0 := by
  have hsum := (positive_iff.mpr hx).add (positive_iff.mpr hy) (shaped_unpack x) (shaped_unpack y)
  refine positive_iff.mp ?_
  show Positive (Float32.Model.pack
    (UnpackedFloat.add Format.binary32 x.toModel.unpack y.toModel.unpack)).unpack
  -- what is left of the sum is packed into a word, and unpacks to something positive
  rcases hsum with h | h | ⟨m, e, hm, h, hfits⟩
  · rw [h]
    exact .notANumber
  · rw [h]
    exact .infinity
  · rw [h]
    exact hfits.repack

/-! ## (4) Fighters -/

/-- The smaller of two positive numbers is positive. -/
theorem smallerOf_positive {x y : Float32} (hx : ¬ x ≤ 0) (hy : ¬ y ≤ 0) :
    ¬ smallerOf x y ≤ 0 := by
  unfold smallerOf
  split
  · exact hy
  · split
    · exact hx
    · split
      · exact hx
      · exact hy

namespace Fighter

/-- **A fighter that is alive**, and has a maximum above zero that it can be healed up to. -/
structure Hale (f : Fighter) : Prop where
  alive : f.isDead = false
  robust : ¬ f.stats.maxHealth ≤ 0

/-- **Healing leaves a fighter alive.** -/
theorem Hale.heal {f : Fighter} (h : f.Hale) {amount : Float32} (hamount : ¬ amount ≤ 0) :
    (f.heal amount).Hale where
  alive := by
    have hhealth : ¬ f.stats.health ≤ 0 := of_decide_eq_false h.alive
    exact decide_eq_false (smallerOf_positive (add_positive hhealth hamount) h.robust)
  robust := h.robust

/-- What a fighter is about, tells of and where it goes does not bear on its health. -/
theorem Hale.of_stats {f f' : Fighter} (h : f.Hale) (hstats : f'.stats = f.stats) : f'.Hale where
  alive := by
    unfold isDead
    rw [hstats]
    exact h.alive
  robust := by
    rw [hstats]
    exact h.robust

end Fighter

end Instinct
