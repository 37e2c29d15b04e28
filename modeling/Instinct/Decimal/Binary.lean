/-! # Floating-point numbers taken apart

* **`Parts`** — a floating-point number as what it stands for: not a number, an infinity, or a sign
  and `mantissa * 2 ^ exponent`.
* **`partsOf32`**, **`partsOf64`** — the parts of single- and double-precision numbers, read off
  their bits. -/

namespace Instinct.Decimal

/-- **What a floating-point number stands for.** -/
inductive Parts where
  | nan
  | infinite (negative : Bool)
  /-- The number `± mantissa * 2 ^ exponent`. The gap to the next smaller magnitude is half of the
  one to the next larger if `narrowBelow` holds. -/
  | finite (negative : Bool) (mantissa : Nat) (exponent : Int) (narrowBelow : Bool)
deriving DecidableEq

/-- The parts of a number whose bits hold `fraction` bits below an exponent of `width` bits. -/
def partsOfBits (fraction width bits : Nat) : Parts :=
  let negative := bits >>> (fraction + width) == 1
  let field := (bits >>> fraction) % Nat.pow 2 width
  let low := bits % Nat.pow 2 fraction
  let bias : Int := (Nat.pow 2 (width - 1) : Nat) - 1 + fraction
  if field = Nat.pow 2 width - 1 then (if low = 0 then .infinite negative else .nan)
  else if field = 0 then .finite negative low (1 - bias) false
  else .finite negative (Nat.pow 2 fraction + low) (field - bias) (low == 0 && field != 1)

/-- The parts of a single-precision number. -/
def partsOf32 (x : Float32) : Parts := partsOfBits 23 8 x.toBits.toNat

/-- The parts of a double-precision number. -/
def partsOf64 (x : Float) : Parts := partsOfBits 52 11 x.toBits.toNat

end Instinct.Decimal
