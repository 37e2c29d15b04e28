import Instinct.Json.Reader
import Instinct.Json.Writer
import Instinct.Proofs.Digits

/-! # JSON numbers and texts read back

The writer puts a number or a text down character by character; the reader takes it up again and
stops where it ends. A number has no mark of its own at its end, so it has to be followed by nothing
or by the mark that ends a value inside a list or an object.

* **`Json.Ends`** — what may stand behind a value.
* **`Json.readNumber_intDigits`** — a number of at most 64 bits is read as it was written.
* **`Json.readText_escaped`** — so is a text, whatever characters it is made of. -/

namespace Instinct.Json

open Decimal (digitsOf intDigits isDigit)

/-! ## Numbers -/

/-- **What may stand behind a value**: nothing, or the mark that ends it inside a list or an
object. -/
def Ends (rest : List Char) : Prop := ∀ c ∈ rest.head?, c = ',' ∨ c = ']' ∨ c = '}'

/-- The text may be over. -/
theorem ends_nil : Ends [] := nofun

/-- A comma ends a value. -/
theorem ends_comma (cs : List Char) : Ends (',' :: cs) := fun _ hc =>
  .inl (Option.some.inj hc).symm

/-- The end of a list ends a value in it. -/
theorem ends_bracket (cs : List Char) : Ends (']' :: cs) := fun _ hc =>
  .inr (.inl (Option.some.inj hc).symm)

/-- The end of an object ends a value in it. -/
theorem ends_brace (cs : List Char) : Ends ('}' :: cs) := fun _ hc =>
  .inr (.inr (Option.some.inj hc).symm)

/-- No digit follows a value. -/
theorem Ends.not_isDigit {rest : List Char} (h : Ends rest) :
    ∀ c ∈ rest.head?, isDigit c = false := by
  intro c hc
  obtain rfl | rfl | rfl := h c hc <;> rfl

/-- Nothing behind a value still belongs to its digits. -/
theorem takeWhile_isDigit_of_ends {rest : List Char} (h : Ends rest) :
    rest.takeWhile isDigit = [] := by
  cases rest with
  | nil => rfl
  | cons c cs => rw [List.takeWhile_cons, h.not_isDigit c rfl]; rfl

/-- All that is behind a value stays for what is read next. -/
theorem dropWhile_isDigit_of_ends {rest : List Char} (h : Ends rest) :
    rest.dropWhile isDigit = rest := by
  cases rest with
  | nil => rfl
  | cons c cs => rw [List.dropWhile_cons, h.not_isDigit c rfl]; rfl

/-- The digits of a number end where the value ends. -/
theorem readDigits_digitsOf (n : Nat) {rest : List Char} (h : Ends rest) :
    readDigits (digitsOf n ++ rest) = some (digitsOf n, rest) := by
  have hdigits := Decimal.isDigit_of_mem_digitsOf (n := n)
  rw [readDigits, List.takeWhile_append_of_pos hdigits, List.dropWhile_append_of_pos hdigits,
    takeWhile_isDigit_of_ends h, dropWhile_isDigit_of_ends h, List.append_nil]
  exact if_neg fun hnil => Decimal.digitsOf_ne_nil n (List.isEmpty_iff.mp hnil)

/-- A number that is written without leading zeros is read whole. -/
theorem readWhole_digitsOf (n : Nat) {rest : List Char} (h : Ends rest) :
    readWhole (digitsOf n ++ rest) = some (digitsOf n, rest) := by
  rw [readWhole, readDigits_digitsOf n h]
  refine if_neg fun hzero => hzero.2 ?_
  rw [Decimal.head?_digitsOf hzero.1, Decimal.digitsOf_of_lt (by decide)]
  rfl

/-- No fraction follows where the value ends. -/
theorem readFraction_of_ends {rest : List Char} (h : Ends rest) :
    readFraction rest = some (none, rest) := by
  unfold readFraction
  split
  · obtain hc | hc | hc := h '.' rfl <;> cases hc
  · rfl

/-- No exponent follows either. -/
theorem readExponent_of_ends {rest : List Char} (h : Ends rest) :
    readExponent rest = some (none, rest) := by
  unfold readExponent
  split
  · obtain rfl | rfl | rfl := h _ rfl <;> rfl
  · rfl

/-- A minus and the digits behind it are one number. -/
theorem readNumber_minus (n : Nat) {rest : List Char} (h : Ends rest) :
    readNumber ('-' :: (digitsOf n ++ rest)) =
      some (Spelling.value ⟨true, digitsOf n, none, none⟩, rest) := by
  simp only [readNumber, readWhole_digitsOf n h, readFraction_of_ends h, readExponent_of_ends h,
    Option.bind_eq_bind, Option.bind_some, Option.pure_def]

/-- So are digits without a sign. -/
theorem readNumber_digitsOf (n : Nat) {rest : List Char} (h : Ends rest) :
    readNumber (digitsOf n ++ rest) =
      some (Spelling.value ⟨false, digitsOf n, none, none⟩, rest) := by
  obtain ⟨c, cs, hn, hc⟩ := Decimal.exists_cons_digitsOf n
  unfold readNumber
  split
  next negative whole hsign =>
  split at hsign
  · -- the first character is a digit and no sign
    next r hr =>
    rw [hn, List.cons_append] at hr
    cases (List.cons.inj hr).1
    cases hc
  · cases hsign
    rw [readWhole_digitsOf n h]
    simp only [Option.bind_eq_bind, Option.bind_some, readFraction_of_ends h,
      readExponent_of_ends h, Option.pure_def]

/-- An integer that 64 bits can hold, with or without a sign. -/
def Fits (n : Int) : Prop := -9223372036854775808 ≤ n ∧ n ≤ largestSignificand

/-- **A number of at most 64 bits is read as it was written.** -/
theorem readNumber_intDigits {n : Int} (hn : Fits n) {rest : List Char} (h : Ends rest) :
    readNumber (intDigits n ++ rest) = some (int n, rest) := by
  obtain ⟨hlow, hhigh⟩ := hn
  -- a significand is kept as an integer on either side of zero, within the bounds of 64 bits
  by_cases hneg : n < 0
  · have hvalue : Spelling.value ⟨true, digitsOf n.natAbs, none, none⟩ = int n := by
      have hbounds : 0 < n.natAbs ∧ n.natAbs ≤ 9223372036854775808 := by omega
      simp only [Spelling.value, Decimal.ofDigits_digitsOf, if_pos hbounds, ↓reduceIte]
      exact congrArg int (by omega)
    rw [intDigits, if_pos hneg, List.cons_append, readNumber_minus _ h, hvalue]
  · have hvalue : Spelling.value ⟨false, digitsOf n.natAbs, none, none⟩ = int n := by
      have hbound : n.natAbs ≤ largestSignificand := by omega
      simp only [Spelling.value, Decimal.ofDigits_digitsOf, if_pos hbound, Bool.false_eq_true,
        ↓reduceIte]
      exact congrArg int (by omega)
    rw [intDigits, if_neg hneg, readNumber_digitsOf _ h, hvalue]

/-! ## Texts -/

/-- A quote ends a text. -/
theorem readText_quote (rest : List Char) : readText ('"' :: rest) = some (some [], rest) := by
  rw [readText]

/-- An escape of one letter is its character. -/
theorem readText_letter {c e : Char} (hu : c ≠ 'u') (he : simpleEscape c = some e)
    (rest : List Char) : readText ('\\' :: c :: rest) = (readText rest).map (consRead e) := by
  rw [readText]
  · rw [he]
  · rintro _ _ _ _ _ rfl _
    exact hu rfl

/-- An escape of four digits is its character, unless it is half of one. -/
theorem readText_hex {a b c d : Char} {n : Nat} (hn : hexFour a b c d = some n)
    (hlow : isLowHalf n = false) (hhigh : isHighHalf n = false) (rest : List Char) :
    readText ('\\' :: 'u' :: a :: b :: c :: d :: rest) =
      (readText rest).map (consRead (Char.ofNat n)) := by
  rw [readText, hn]
  simp only [hlow, hhigh, Bool.false_eq_true, ↓reduceIte]

/-- Any other character but a quote stands for itself. -/
theorem readText_plain {c : Char} (hquote : c ≠ '"') (hslash : c ≠ '\\') (hc : ¬ c.toNat < 32)
    (rest : List Char) : readText (c :: rest) = (readText rest).map (consRead c) := by
  rw [readText]
  · simp [hslash, hc]
  · exact hquote
  · intro _ _ _ _ _ h
    exact absurd h hslash
  · intro _ _ h
    exact absurd h hslash

/-- What a digit of base sixteen stands for. -/
theorem hexValue_hexDigit : ∀ {d : Nat}, d < 16 → hexValue (hexDigit d) = some d := by decide

/-- The digits of a control character. -/
theorem hexFour_control {n : Nat} (h : n < 32) :
    hexFour '0' '0' (hexDigit (n / 16)) (hexDigit (n % 16)) = some n := by
  have hzero : hexValue '0' = some 0 := rfl
  rw [hexFour, hzero, hexValue_hexDigit (by omega), hexValue_hexDigit (by omega)]
  exact congrArg some (by omega)

/-- The characters that have to be escaped are no halves of others. -/
theorem not_half_control : ∀ {n : Nat}, n < 32 → isLowHalf n = false ∧ isHighHalf n = false := by
  decide

/-- **A character is read as it was written.** -/
theorem readText_escapeChar (c : Char) (rest : List Char) :
    readText (escapeChar c ++ rest) = (readText rest).map (consRead c) := by
  -- one case for each way to escape a character; all but the last two stand for a letter
  fun_cases escapeChar c with
  | case1 h => exact readText_letter (by decide) (by rw [h]; rfl) rest
  | case2 _ h => exact readText_letter (by decide) (by rw [h]; rfl) rest
  | case3 _ _ h => exact readText_letter (by decide) (by rw [h]; rfl) rest
  | case4 _ _ _ h => exact readText_letter (by decide) (by rw [h]; rfl) rest
  | case5 _ _ _ _ h => exact readText_letter (by decide) (by rw [h]; rfl) rest
  | case6 _ _ _ _ _ h => exact readText_letter (by decide) (by rw [h]; rfl) rest
  | case7 _ _ _ _ _ _ h => exact readText_letter (by decide) (by rw [h]; rfl) rest
  -- a control character is spelled in full, by its number
  | case8 _ _ _ _ _ _ _ h =>
    obtain ⟨hlow, hhigh⟩ := not_half_control h
    refine (readText_hex (hexFour_control h) hlow hhigh rest).trans ?_
    rw [Char.ofNat_toNat]
  | case9 hquote hslash _ _ _ _ _ h => exact readText_plain hquote hslash h rest

/-- **A text is read as it was written**, up to its closing quote. -/
theorem readText_escaped (cs rest : List Char) :
    readText (cs.flatMap escapeChar ++ '"' :: rest) = some (some cs, rest) := by
  induction cs with
  | nil => exact readText_quote rest
  | cons c cs ih =>
    rw [List.flatMap_cons, List.append_assoc, readText_escapeChar, ih]
    rfl

end Instinct.Json
