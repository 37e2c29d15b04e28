import Instinct.Proofs.Weights
import Mathlib

/-! # Single precision numbers at zero

Rounding keeps signs: what is not below zero stays so under sums, differences and products, and a
number that an operation does not have is not below zero either. So weights of single precision are
fit for a weighted choice.

* **`Upper`**, **`upper_iff`** — the numbers that are not below zero, and no number.
* **`Flat`**, **`flat_iff`** — the zeros, and no number.
* **`Upper.mul`**, **`Upper.div`**, **`Upper.sub`**, **`Flat.add`** — what operations keep of this;
  **`Upper.repack`** — what rounding to a word keeps.
* **`Canonical.aligned_le`** — how numbers compare is how their significands do, once they have one
  exponent.
* **`weighable_single`** — single precision numbers are fit for a weighted choice.
* **`unitInterval_not_neg`** — and a draw is not below zero. -/

namespace Instinct

open Float.Model Float.Model.UnpackedFloat

/-! ## (1) Comparing with zero -/

/-- **The numbers that are not below zero**, and no number. -/
inductive Upper : UnpackedFloat → Prop
  | notANumber : Upper .notANumber
  | zero (s : Sign) : Upper (.zero s)
  | infinity : Upper (.infinity .positive)
  | finite {m : Nat} {e : Int} (h : 0 < m) : Upper (.finite .positive m e h)

/-- **The zeros**, and no number. -/
inductive Flat : UnpackedFloat → Prop
  | notANumber : Flat .notANumber
  | zero (s : Sign) : Flat (.zero s)

/-- Zero is the positive one. -/
theorem unpack_zero : (0 : Float32).toModel.unpack = .zero .positive := rfl

/-- The order of numbers, by the words that they are. -/
theorem lt_iff_compare (x y : Float32) :
    x < y ↔ x.toModel.unpack.compare y.toModel.unpack = some .lt := by
  show decide (x.toModel < y.toModel) = true ↔ _
  rw [decide_eq_true_iff]
  show x.toModel.unpack.lt y.toModel.unpack = true ↔ _
  rw [UnpackedFloat.lt, beq_iff_eq]

/-- **Not to be below zero** is to be upper. -/
theorem upper_iff {x : Float32} : Upper x.toModel.unpack ↔ ¬ x < 0 := by
  rw [lt_iff_compare, unpack_zero]
  generalize x.toModel.unpack = u
  constructor
  · intro h
    cases h <;> simp [UnpackedFloat.compare]
  · intro h
    -- a number with a negative sign compares as below zero, and all others do not
    cases u with
    | notANumber => exact .notANumber
    | zero s => exact .zero s
    | infinity s =>
      cases s with
      | positive => exact .infinity
      | negative => exact absurd rfl h
    | finite s m e hm =>
      cases s with
      | positive => exact .finite hm
      | negative => exact absurd rfl h

/-- **To be neither above nor below zero** is to be flat. -/
theorem flat_iff {x : Float32} : Flat x.toModel.unpack ↔ ¬ x < 0 ∧ ¬ 0 < x := by
  rw [← upper_iff, lt_iff_compare, unpack_zero]
  generalize x.toModel.unpack = u
  constructor
  · intro h
    cases h with
    | notANumber => exact ⟨.notANumber, by simp [UnpackedFloat.compare]⟩
    | zero s => exact ⟨.zero s, by simp [UnpackedFloat.compare]⟩
  · rintro ⟨hupper, hpos⟩
    cases hupper with
    | notANumber => exact .notANumber
    | zero s => exact .zero s
    | infinity => exact absurd rfl hpos
    | finite hm => exact absurd rfl hpos

/-- What is above zero is not below it. -/
theorem upper_of_zero_lt {u : UnpackedFloat}
    (h : UnpackedFloat.compare (.zero .positive) u = some .lt) : Upper u := by
  cases u with
  | notANumber => exact .notANumber
  | zero s => exact .zero s
  | infinity s =>
    cases s with
    | positive => exact .infinity
    | negative => cases h
  | finite s m e hm =>
    cases s with
    | positive => exact .finite hm
    | negative => cases h

/-- What is above a number that is not below zero is positive. -/
theorem Upper.zero_lt {u v : UnpackedFloat} (hu : Upper u) (h : u.compare v = some .lt) :
    UnpackedFloat.compare (.zero .positive) v = some .lt := by
  cases v with
  | notANumber => cases hu <;> cases h
  | zero s => cases hu <;> cases h
  | infinity s =>
    cases s with
    | positive => rfl
    | negative => cases hu <;> cases h
  | finite s m e hm =>
    cases s with
    | positive => rfl
    | negative => cases hu <;> cases h

/-! ## (2) Signs under operations -/

/-- A number of positive sign stays so when it is rounded. -/
theorem upper_roundWithAccuracy (spec : Format) (m : Nat) (e : Int) (a : Accuracy) :
    Upper (roundWithAccuracy spec .positive m e a) := by
  rw [roundWithAccuracy]
  dsimp only
  split
  · exact .zero _
  · exact .finite _

/-- A number brought into form keeps its sign. -/
theorem upper_normalize (spec : Format) {m : Int} (hm : 0 ≤ m) (e : Int) (s : Sign) :
    Upper (UnpackedFloat.normalize spec m e s) := by
  rw [UnpackedFloat.normalize]
  split
  · next hlt => exact absurd (Int.compare_eq_lt.mp hlt) (Int.not_lt.mpr hm)
  · exact .zero s
  · exact upper_roundWithAccuracy _ _ _ _

/-- **Products** of upper numbers are upper. -/
theorem Upper.mul (spec : Format) {u v : UnpackedFloat} (hu : Upper u) (hv : Upper v) :
    Upper (UnpackedFloat.mul spec u v) := by
  cases hu with
  | notANumber => exact .notANumber
  | zero s => cases hv <;> first | exact .notANumber | exact .zero _
  | infinity => cases hv <;> first | exact .notANumber | exact .infinity
  | finite hm =>
    cases hv with
    | notANumber => exact .notANumber
    | zero s => exact .zero _
    | infinity => exact .infinity
    | finite hm' => exact upper_roundWithAccuracy _ _ _ _

/-- **So are quotients**, as long as nothing is divided by a zero. -/
theorem Upper.div (spec : Format) {u v : UnpackedFloat} (hu : Upper u) (hv : Upper v)
    (hne : ∀ s, v ≠ .zero s) : Upper (UnpackedFloat.div spec u v) := by
  cases hv with
  | notANumber => cases hu <;> exact .notANumber
  | zero s => exact absurd rfl (hne s)
  | infinity => cases hu <;> first | exact .notANumber | exact .zero _
  | finite hm =>
    cases hu with
    | notANumber => exact .notANumber
    | zero s => exact .zero _
    | infinity => exact .infinity
    | finite hm' => exact upper_roundWithAccuracy _ _ _ _

/-- **Sums** of flat numbers are flat. -/
theorem Flat.add (spec : Format) {u v : UnpackedFloat} (hu : Flat u) (hv : Flat v) :
    Flat (UnpackedFloat.add spec u v) := by
  cases hu with
  | notANumber => exact .notANumber
  | zero s =>
    cases hv with
    | notANumber => exact .notANumber
    | zero s' => cases s <;> cases s' <;> exact .zero _

/-! ### Differences

Two numbers are taken from one another at the smaller of their exponents. -/

/-- **The shape of an unpacked number**: it uses all 24 bits, except at the least exponent. -/
structure Canonical (m : Nat) (e : Int) : Prop where
  lt : m < 16777216
  le : -149 ≤ e
  normal : -149 < e → 8388608 ≤ m

/-- A number of this shape, if it is finite. -/
def Shaped : UnpackedFloat → Prop
  | .finite _ m e _ => Canonical m e
  | _ => True

/-- **A number that is not below another** has no smaller significand once both have the smaller of
their exponents. -/
theorem Canonical.aligned_le {m m' : Nat} {e e' : Int} (h : Canonical m e) (h' : Canonical m' e')
    (hle : (compare e e').then (compare m m') ≠ .lt) :
    m' <<< (e' - min e e').toNat ≤ m <<< (e - min e e').toNat := by
  rw [ne_eq, Ordering.then_eq_lt, not_or, not_and, Int.compare_eq_lt, Int.compare_eq_eq,
    Nat.compare_eq_lt] at hle
  obtain ⟨hexponent, hsignificand⟩ := hle
  rcases Int.lt_or_eq_of_le (Int.not_lt.mp hexponent) with hlt | rfl
  · have hmin : min e e' = e' := by omega
    obtain ⟨k, hk⟩ : ∃ k, (e - e').toNat = k + 1 := ⟨(e - e').toNat - 1, by omega⟩
    have hnormal : 8388608 ≤ m := h.normal (Int.lt_of_le_of_lt h'.le hlt)
    have hshifted : m * 2 ≤ m <<< (k + 1) := by
      rw [Nat.shiftLeft_eq, Nat.pow_succ, ← Nat.mul_assoc]
      exact Nat.mul_le_mul_right 2 (Nat.le_mul_of_pos_right m (Nat.two_pow_pos k))
    have hlow := h'.lt
    -- one more exponent makes up for any significand
    rw [hmin, hk, Int.sub_self]
    show m' ≤ m <<< (k + 1)
    omega
  · have hm : m' ≤ m := Nat.not_lt.mp (hsignificand rfl)
    simpa [Int.min_self] using hm

/-- **Differences** are upper where no more is taken away than there is. -/
theorem Upper.sub (spec : Format) {u v : UnpackedFloat} (hu : Upper u) (hv : Upper v)
    (hu' : Shaped u) (hv' : Shaped v) (hle : u.compare v ≠ some .lt) :
    Upper (UnpackedFloat.sub spec u v) := by
  cases hu with
  | notANumber => exact .notANumber
  | zero s =>
    cases hv with
    | notANumber => exact .notANumber
    | zero s' => cases s <;> cases s' <;> exact .zero _
    | infinity => exact absurd rfl hle
    | finite hm' => exact absurd rfl hle
  | infinity =>
    cases hv with
    | notANumber => exact .notANumber
    | zero s' => exact .infinity
    | infinity => exact .notANumber
    | finite hm' => exact .infinity
  | @finite m e hm =>
    cases hv with
    | notANumber => exact .notANumber
    | zero s' => exact .finite hm
    | infinity => exact absurd rfl hle
    | @finite m' e' hm' =>
      -- both are shifted to the lower exponent, where the larger one has no smaller significand
      have hle : (compare e e').then (compare m m') ≠ .lt := fun h => hle (congrArg some h)
      have haligned := Canonical.aligned_le hu' hv' hle
      apply upper_normalize
      show (0 : Int) ≤ (m <<< (e - min e e').toNat : Nat) - (m' <<< (e' - min e e').toNat : Nat)
      omega

/-! ## (3) Numbers as words -/

/-- A word with a positive sign is upper. -/
theorem upper_packComponents (e : BitVec Format.binary32.exponentBits)
    (m : BitVec Format.binary32.mantissaBitsWithoutImplicit) :
    Upper (.unpack Format.binary32 (packComponents Format.binary32 .positive e m)) := by
  rw [UnpackedFloat.unpack]
  simp only [unpackSign_packComponents]
  split
  · split
    · exact .infinity
    · exact .notANumber
  · split
    · split
      · exact .zero _
      · exact .finite _
    · exact .finite _

/-- Packing an upper number into a word leaves it upper. -/
theorem Upper.repack {u : UnpackedFloat} (h : Upper u) : Upper (Float32.Model.pack u).unpack := by
  cases h with
  | notANumber => exact .notANumber
  | zero s => cases s <;> exact .zero _
  | infinity => exact .infinity
  | @finite m e hm =>
    show Upper (.unpack Format.binary32
      (UnpackedFloat.pack Format.binary32 (.finite .positive m e hm)))
    rw [UnpackedFloat.pack]
    split
    · exact .infinity
    · split <;> exact upper_packComponents _ _

/-- Packing a flat one leaves it flat. -/
theorem Flat.repack {u : UnpackedFloat} (h : Flat u) : Flat (Float32.Model.pack u).unpack := by
  cases h with
  | notANumber => exact .notANumber
  | zero s => cases s <;> exact .zero _

/-- The bits of a number at the least exponent. -/
theorem canonical_subnormal (m : BitVec 23) : Canonical m.toNat (0 - (127 + 23) + 1) where
  lt := Nat.lt_trans m.isLt (by decide)
  le := by decide
  normal h := absurd h (by decide)

/-- The bits of any other number, in front of which there is one more. -/
theorem canonical_normal (m : BitVec 23) {e : BitVec 8} (he : e ≠ 0) :
    Canonical (1#1 ++ m).toNat (e.toNat - (127 + 23)) := by
  have hm := m.isLt
  have hsignificand : (1#1 ++ m).toNat = 8388608 + m.toNat := by
    rw [BitVec.toNat_append, ← Nat.shiftLeft_add_eq_or_of_lt hm]
    rfl
  have hexponent : e.toNat ≠ 0 := by
    intro h
    exact he (BitVec.eq_of_toNat_eq h)
  constructor <;> omega

/-- **An unpacked number has its shape.** -/
theorem shaped_unpack (x : Float32) : Shaped x.toModel.unpack := by
  rw [Float32.Model.unpack, UnpackedFloat.unpack]
  dsimp only
  split
  · split <;> trivial
  · split
    · next hexponent =>
      split
      · trivial
      · rw [hexponent]
        exact canonical_subnormal _
    · next hexponent => exact canonical_normal _ hexponent

/-! ## (4) Single precision numbers -/

/-- **Single precision numbers are fit for a weighted choice.** -/
theorem weighable_single : Weighable Float32 where
  not_neg_of_pos {x} h := by
    rw [lt_iff_compare, unpack_zero] at h
    exact upper_iff.mp (upper_of_zero_lt h)
  pos_of_lt {x y} hx h := by
    rw [lt_iff_compare] at h ⊢
    rw [unpack_zero]
    exact (upper_iff.mpr hx).zero_lt h
  not_neg_mul {x y} hx hy :=
    upper_iff.mp ((upper_iff.mpr hx).mul _ (upper_iff.mpr hy)).repack
  not_neg_sub {x y} hx hy h := by
    rw [lt_iff_compare] at h
    have hsub : Upper (UnpackedFloat.sub Format.binary32 x.toModel.unpack y.toModel.unpack) :=
      (upper_iff.mpr hx).sub _ (upper_iff.mpr hy) (shaped_unpack x) (shaped_unpack y) h
    exact upper_iff.mp hsub.repack
  zero_flat := by decide
  add_flat {x y} hxneg hxpos hyneg hypos :=
    flat_iff.mp ((flat_iff.mpr ⟨hxneg, hxpos⟩).add _ (flat_iff.mpr ⟨hyneg, hypos⟩)).repack

/-- **A draw is not below zero.** -/
theorem unitInterval_not_neg (word : UInt32) : ¬ unitInterval word < 0 := by
  have hscale : ∃ h, (16777216 : Float32).toModel.unpack = .finite .positive 8388608 1 h := ⟨_, rfl⟩
  obtain ⟨hpos, hscale⟩ := hscale
  -- the draw is a word of 24 bits, divided by the number of such words
  have hword : Upper (word >>> 8).toFloat32.toModel.unpack := by
    show Upper (Float32.Model.pack (.ofUInt32 Format.binary32 (word >>> 8))).unpack
    exact (upper_normalize _ (Int.natCast_nonneg _) _ _).repack
  have hdiv : Upper (UnpackedFloat.div Format.binary32 (word >>> 8).toFloat32.toModel.unpack
      (16777216 : Float32).toModel.unpack) := by
    apply hword.div
    · rw [hscale]
      exact .finite hpos
    · intro s
      rw [hscale]
      exact UnpackedFloat.noConfusion
  exact upper_iff.mp hdiv.repack

end Instinct
