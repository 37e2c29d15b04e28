import Instinct.Decimal.Digits

/-! # Decimal digits read back

* **`Decimal.ofDigits_digitsOf`** — the digits of a number stand for it.
* **`Decimal.head?_digitsOf`** — only zero itself starts with a zero. -/

namespace Instinct.Decimal

/-- The digits stand one after the other, from the code of `0` on. -/
theorem toNat_digitChar : ∀ {d : Nat}, d < 10 → (digitChar d).toNat = 48 + d := by decide

/-- The character of a digit is a digit. -/
theorem isDigit_digitChar : ∀ {d : Nat}, d < 10 → isDigit (digitChar d) = true := by decide

/-- The character of a digit has the value of that digit. -/
theorem digitValue_digitChar {d : Nat} (h : d < 10) : digitValue (digitChar d) = d := by
  rw [digitValue, toNat_digitChar h, Nat.add_sub_cancel_left]

/-- A number below ten is spelled by one digit. -/
theorem digitsOf_of_lt {n : Nat} (h : n < 10) : digitsOf n = [digitChar n] := by
  rw [digitsOf, if_pos h]

/-- A larger number is spelled by the digits of its tenth and the last digit. -/
theorem digitsOf_of_le {n : Nat} (h : 10 ≤ n) :
    digitsOf n = digitsOf (n / 10) ++ [digitChar (n % 10)] := by
  rw [digitsOf, if_neg (Nat.not_lt.mpr h)]

/-- Every number has at least one digit. -/
theorem digitsOf_ne_nil (n : Nat) : digitsOf n ≠ [] := by
  rcases Nat.lt_or_ge n 10 with h | h
  · rw [digitsOf_of_lt h]
    exact List.cons_ne_nil _ _
  · rw [digitsOf_of_le h]
    exact List.append_ne_nil_of_right_ne_nil _ (List.cons_ne_nil _ _)

/-- One more digit multiplies the value by ten and adds its own. -/
theorem ofDigits_concat (cs : List Char) (c : Char) :
    ofDigits (cs ++ [c]) = 10 * ofDigits cs + digitValue c := by
  rw [ofDigits, List.foldl_append]
  rfl

/-- **The digits of a number stand for it.** -/
theorem ofDigits_digitsOf (n : Nat) : ofDigits (digitsOf n) = n := by
  induction n using digitsOf.induct with
  | case1 n h =>
    rw [digitsOf_of_lt h]
    exact (Nat.zero_add _).trans (digitValue_digitChar h)
  | case2 n h ih =>
    rw [digitsOf_of_le (Nat.le_of_not_lt h), ofDigits_concat, ih,
      digitValue_digitChar (Nat.mod_lt n (by decide))]
    exact Nat.div_add_mod n 10

/-- A number is spelled by digits only. -/
theorem isDigit_of_mem_digitsOf {n : Nat} : ∀ c ∈ digitsOf n, isDigit c = true := by
  induction n using digitsOf.induct with
  | case1 n h =>
    rw [digitsOf_of_lt h, List.forall_mem_singleton]
    exact isDigit_digitChar h
  | case2 n h ih =>
    rw [digitsOf_of_le (Nat.le_of_not_lt h), List.forall_mem_append, List.forall_mem_singleton]
    exact ⟨ih, isDigit_digitChar (Nat.mod_lt n (by decide))⟩

/-- A number starts with a digit. -/
theorem exists_cons_digitsOf (n : Nat) : ∃ c cs, digitsOf n = c :: cs ∧ isDigit c = true := by
  obtain ⟨c, cs, h⟩ := List.exists_cons_of_ne_nil (digitsOf_ne_nil n)
  exact ⟨c, cs, h, isDigit_of_mem_digitsOf c (h ▸ List.mem_cons_self)⟩

/-- **Only zero itself starts with a zero.** -/
theorem head?_digitsOf {n : Nat} (h : (digitsOf n).head? = some '0') : n = 0 := by
  induction n using digitsOf.induct with
  | case1 n hn =>
    rw [digitsOf_of_lt hn] at h
    have hvalue := digitValue_digitChar hn
    rw [Option.some.inj h] at hvalue
    exact hvalue.symm
  | case2 n hn ih =>
    -- the first digit of a longer number is the first digit of its tenth
    rw [digitsOf_of_le (Nat.le_of_not_lt hn),
      List.head?_append, Option.or_of_isSome (List.isSome_head?.mpr (digitsOf_ne_nil _))] at h
    have := ih h
    omega

end Instinct.Decimal
