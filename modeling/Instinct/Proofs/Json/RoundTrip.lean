import Instinct.Proofs.Json.Lexeme

/-! # JSON values read back

A value without numbers of a fixed precision is read back from its compact text as it was written.
The reading is followed along the writing: what a value, the items of a list behind the first one
and the fields of an object behind the first one are written as, the reader takes up again and
leaves what follows.

* **`Json.Exact`** — the values that are read back.
* **`Json.Reads`** — a value is read back, with whatever may stand behind it.
* **`Json.parse?_compact`** — every exact value is the one that its compact text spells. -/

namespace Instinct

/-! ## Lists read part by part -/

/-- A list is read as a whole if every part of it is. -/
theorem mapM_eq_some_map {α β : Type} {read : α → Option β} {value : α → β} {as : List α}
    (h : ∀ a ∈ as, read a = some (value a)) : as.mapM read = some (as.map value) := by
  induction as with
  | nil => rfl
  | cons a as ih =>
    obtain ⟨ha, has⟩ := List.forall_mem_cons.mp h
    rw [List.mapM_cons, ha, ih has]
    rfl

/-- A list is read back if every part of it is. -/
theorem mapM_map_eq_some {α β : Type} {read : β → Option α} {write : α → β} {as : List α}
    (h : ∀ a ∈ as, read (write a) = some a) : (as.map write).mapM read = some as := by
  rw [List.mapM_map]
  exact (mapM_eq_some_map h).trans (congrArg some (List.map_id as))

namespace Json

open Decimal (intDigits isDigit)

/-! ## What is read back -/

/-- **The values that are read back**: all numbers in them are integers of at most 64 bits. -/
inductive Exact : Json → Prop where
  | null : Exact null
  | bool (b : Bool) : Exact (bool b)
  | int {n : Int} (h : Fits n) : Exact (int n)
  | text (s : String) : Exact (text s)
  | array {items : List Json} (h : ∀ v ∈ items, Exact v) : Exact (array items)
  | object {fields : List (String × Json)} (h : ∀ f ∈ fields, Exact f.2) : Exact (object fields)

/-- **A value is read back**, with whatever may stand behind it. The length of its text is fuel
enough. -/
def Reads (v : Json) : Prop :=
  ∀ {fuel : Nat} {rest : List Char}, v.chars.length ≤ fuel → Ends rest →
    readValue fuel (v.chars ++ rest) = some (v, rest)

/-! ## How a value starts -/

/-- Only blanks are skipped. -/
theorem skipBlanks_cons {c : Char} (h : isBlank c = false) (cs : List Char) :
    skipBlanks (c :: cs) = c :: cs := by
  rw [skipBlanks, List.dropWhile_cons, h]
  rfl

/-- The characters that no number starts with and that the reader looks for. -/
def marks : List Char := [' ', '\n', '\t', '\r', '{', '[', ']', '"', 'n', 't', 'f']

/-- A number starts with its sign or with a digit. -/
theorem exists_cons_intDigits (n : Int) :
    ∃ c cs, intDigits n = c :: cs ∧ c ∉ marks := by
  have hmarks : marks.all (!isDigit ·) = true := rfl
  rw [intDigits]
  split
  · exact ⟨'-', _, rfl, by decide⟩
  · obtain ⟨c, cs, h, hc⟩ := Decimal.exists_cons_digitsOf n.natAbs
    refine ⟨c, cs, h, fun hmem => ?_⟩
    have hmark := List.all_eq_true.mp hmarks c hmem
    rw [hc] at hmark
    cases hmark

/-- No mark is a blank. -/
theorem isBlank_of_not_mem_marks {c : Char} (h : c ∉ marks) : isBlank c = false := by
  simp only [marks, List.mem_cons, not_or] at h
  simp only [isBlank, h, decide_false, Bool.or_self]

/-- No blank and no end of a list starts a value. -/
theorem Exact.exists_cons {v : Json} (hv : v.Exact) :
    ∃ c cs, v.chars = c :: cs ∧ isBlank c = false ∧ c ≠ ']' := by
  cases hv with
  | null => exact ⟨'n', _, rfl, rfl, by decide⟩
  | bool b => cases b with
    | false => exact ⟨'f', _, rfl, rfl, by decide⟩
    | true => exact ⟨'t', _, rfl, rfl, by decide⟩
  -- a number starts with a sign or a digit, neither of which is a mark
  | @int n _ =>
    obtain ⟨c, cs, h, hc⟩ := exists_cons_intDigits n
    refine ⟨c, cs, h, isBlank_of_not_mem_marks hc, ?_⟩
    rintro rfl
    exact hc (by decide)
  | text s => exact ⟨'"', _, rfl, rfl, by decide⟩
  | @array items _ => cases items with
    | nil => exact ⟨'[', _, rfl, rfl, by decide⟩
    | cons v vs => exact ⟨'[', _, rfl, rfl, by decide⟩
  | @object fields _ => cases fields with
    | nil => exact ⟨'{', _, rfl, rfl, by decide⟩
    | cons f fs => exact ⟨'{', _, rfl, rfl, by decide⟩

/-! ## Values without parts -/

/-- What starts like a number is read as one. -/
theorem readValue_number {c : Char} (h : c ∉ marks) (fuel : Nat) (cs : List Char) :
    readValue (fuel + 1) (c :: cs) = readNumber (c :: cs) := by
  have hne : ∀ m ∈ marks, ∀ rest, c :: cs ≠ m :: rest := by
    rintro m hm rest heq
    exact h ((List.cons.inj heq).1 ▸ hm)
  rw [readValue, skipBlanks_cons (isBlank_of_not_mem_marks h)]
  split
  case h_1 heq => cases heq
  case h_2 heq | h_3 heq | h_4 heq | h_5 heq | h_6 heq | h_7 heq =>
    exact absurd heq (hne _ (by decide) _)
  case h_8 => rfl

/-- A text behind its opening quote is read up to its closing one. -/
theorem readText_quoted (s : String) (rest : List Char) :
    readText (s.toList.flatMap escapeChar ++ ['"'] ++ rest) = some (some s.toList, rest) := by
  rw [List.append_assoc]
  exact readText_escaped s.toList rest

/-- A quoted text is read as a value. -/
theorem readValue_quote (s : String) (fuel : Nat) (rest : List Char) :
    readValue (fuel + 1) (quote s ++ rest) = some (text s, rest) := by
  rw [quote, List.cons_append, readValue, skipBlanks_cons rfl]
  simp only [readText_quoted, Option.map_some, textOf, String.ofList_toList]

/-- A value takes up some fuel, as its text is not empty. -/
theorem Exact.exists_fuel {v : Json} (hv : v.Exact) {fuel : Nat} (h : v.chars.length ≤ fuel) :
    ∃ less, fuel = less + 1 := by
  obtain ⟨c, cs, hcs, -⟩ := hv.exists_cons
  rw [hcs] at h
  exact Nat.exists_eq_add_one_of_ne_zero (Nat.ne_zero_of_lt h)

/-- Nothing is read back as nothing. -/
theorem reads_null : Reads null := by
  intro fuel rest hfuel _
  obtain ⟨fuel, rfl⟩ := Exact.null.exists_fuel hfuel
  rfl

/-- A truth value is read back. -/
theorem reads_bool (b : Bool) : Reads (bool b) := by
  intro fuel rest hfuel _
  obtain ⟨fuel, rfl⟩ := (Exact.bool b).exists_fuel hfuel
  cases b <;> rfl

/-- A number that 64 bits hold is read back. -/
theorem reads_int {n : Int} (hn : Fits n) : Reads (int n) := by
  intro fuel rest hfuel hrest
  obtain ⟨fuel, rfl⟩ := (Exact.int hn).exists_fuel hfuel
  obtain ⟨c, cs, hcs, hc⟩ := exists_cons_intDigits n
  calc readValue (fuel + 1) (intDigits n ++ rest)
      = readNumber (intDigits n ++ rest) := by rw [hcs]; exact readValue_number hc fuel _
    _ = some (int n, rest) := readNumber_intDigits hn hrest

/-- A text is read back. -/
theorem reads_text (s : String) : Reads (text s) := by
  intro fuel rest hfuel _
  obtain ⟨fuel, rfl⟩ := (Exact.text s).exists_fuel hfuel
  exact readValue_quote s fuel rest

/-! ## Lists -/

variable {v : Json} {fuel : Nat}

/-- An item with the end of the list behind it is the last one. -/
theorem readItems_last (hv : Reads v) (hfuel : v.chars.length ≤ fuel) (done : List Json)
    (rest : List Char) :
    readItems (fuel + 1) (v.chars ++ ']' :: rest) done =
      some (array (v :: done).reverse, rest) := by
  rw [readItems, hv hfuel (ends_bracket rest)]
  rfl

/-- An item with a comma behind it is followed by more. -/
theorem readItems_more (hv : Reads v) (hfuel : v.chars.length ≤ fuel) (done : List Json)
    (cs : List Char) :
    readItems (fuel + 1) (v.chars ++ ',' :: cs) done = readItems fuel cs (v :: done) := by
  rw [readItems, hv hfuel (ends_comma cs)]
  rfl

/-- There is at least the end of the list. -/
theorem itemsTail_length_pos (vs : List Json) : 0 < (itemsTail vs).length := by
  cases vs <;> exact Nat.zero_lt_succ _

/-- The items of a list are read one after the other, up to its end. -/
theorem readItems_itemsTail {vs : List Json} (hvs : ∀ w ∈ vs, Reads w) (hv : Reads v)
    (done : List Json) (rest : List Char)
    (hfuel : v.chars.length + (itemsTail vs).length ≤ fuel + 1) :
    readItems (fuel + 1) (v.chars ++ (itemsTail vs ++ rest)) done.reverse =
      some (array (done ++ v :: vs), rest) := by
  -- one item after another, with those read before kept in reverse
  induction vs generalizing v done fuel with
  | nil =>
    refine (readItems_last hv (Nat.le_of_succ_le_succ hfuel) _ rest).trans ?_
    rw [List.reverse_cons, List.reverse_reverse]
  | cons w ws ih =>
    obtain ⟨hw, hws⟩ := List.forall_mem_cons.mp hvs
    have hpos := itemsTail_length_pos ws
    rw [itemsTail, List.length_cons, List.length_append] at hfuel
    obtain ⟨less, rfl⟩ : ∃ less, fuel = less + 1 := ⟨fuel - 1, by omega⟩
    calc readItems (less + 2) (v.chars ++ (itemsTail (w :: ws) ++ rest)) done.reverse
        = readItems (less + 1) (w.chars ++ (itemsTail ws ++ rest)) (done ++ [v]).reverse := by
          rw [List.reverse_concat, ← List.append_assoc w.chars]
          exact readItems_more hv (by omega) _ _
      _ = some (array (done ++ [v] ++ w :: ws), rest) := ih hws hw (done ++ [v]) (by omega)
      _ = some (array (done ++ v :: w :: ws), rest) := by rw [List.append_assoc]; rfl

/-- A list that does not end at once has items. -/
theorem readValue_bracket {c : Char} (hblank : isBlank c = false) (hend : c ≠ ']')
    (cs : List Char) : readValue (fuel + 1) ('[' :: c :: cs) = readItems fuel (c :: cs) [] := by
  rw [readValue, skipBlanks_cons rfl]
  simp only [skipBlanks_cons hblank]
  split
  · next heq => exact absurd (List.cons.inj heq).1 hend
  · rfl

/-- **A list is read back** if its items are. -/
theorem reads_array {items : List Json} (h : ∀ v ∈ items, Exact v ∧ Reads v) :
    Reads (array items) := by
  intro fuel rest hfuel _
  cases items with
  | nil =>
    obtain ⟨fuel, rfl⟩ := (Exact.array (List.forall_mem_nil _)).exists_fuel hfuel
    rfl
  | cons v vs =>
    obtain ⟨⟨hexact, hv⟩, hvs⟩ := List.forall_mem_cons.mp h
    -- the first character tells that the list does not end at once
    obtain ⟨c, cs, hcs, hblank, hend⟩ := hexact.exists_cons
    have hpos := itemsTail_length_pos vs
    rw [chars, List.length_cons, List.length_append] at hfuel
    obtain ⟨less, rfl⟩ : ∃ less, fuel = less + 2 := ⟨fuel - 2, by omega⟩
    calc readValue (less + 2) ((array (v :: vs)).chars ++ rest)
        = readItems (less + 1) (v.chars ++ (itemsTail vs ++ rest)) [] := by
          rw [← List.append_assoc, chars, hcs]
          exact readValue_bracket hblank hend _
      _ = some (array (v :: vs), rest) :=
          readItems_itemsTail (fun w hw => (hvs w hw).2) hv [] rest (by omega)

/-! ## Objects -/

/-- A field as it is kept while the others are read. -/
def keptField (f : String × Json) : Option (List Char) × Json := (some f.1.toList, f.2)

/-- The fields that were kept make up the object again. -/
theorem objectOf_keptField (fs : List (String × Json)) :
    objectOf (fs.map keptField).reverse = object fs := by
  rw [objectOf, List.reverse_reverse, mapM_map_eq_some]
  intro f _
  rw [keptField, Option.map_some, String.ofList_toList]

/-- One more field is kept in front of the others. -/
theorem reverse_keptField_concat (done : List (String × Json)) (f : String × Json) :
    ((done ++ [f]).map keptField).reverse = keptField f :: (done.map keptField).reverse := by
  rw [List.map_append]
  exact List.reverse_concat ..

/-- A field with the end of the object behind it is the last one. -/
theorem readFields_last (k : String) (hv : Reads v) (hfuel : v.chars.length ≤ fuel)
    (done : List (Option (List Char) × Json)) (rest : List Char) :
    readFields (fuel + 1) (quote k ++ ':' :: (v.chars ++ '}' :: rest)) done =
      some (objectOf (keptField (k, v) :: done), rest) := by
  rw [quote, List.cons_append, readFields, skipBlanks_cons rfl]
  simp only [readText_quoted, skipBlanks_cons (c := ':') rfl, hv hfuel (ends_brace rest)]
  rfl

/-- A field with a comma behind it is followed by more. -/
theorem readFields_more (k : String) (hv : Reads v) (hfuel : v.chars.length ≤ fuel)
    (done : List (Option (List Char) × Json)) (cs : List Char) :
    readFields (fuel + 1) (quote k ++ ':' :: (v.chars ++ ',' :: cs)) done =
      readFields fuel cs (keptField (k, v) :: done) := by
  rw [quote, List.cons_append, readFields, skipBlanks_cons rfl]
  simp only [readText_quoted, skipBlanks_cons (c := ':') rfl, hv hfuel (ends_comma cs)]
  rfl

/-- There is at least the end of the object. -/
theorem fieldsTail_length_pos (fs : List (String × Json)) : 0 < (fieldsTail fs).length := by
  cases fs with
  | nil => exact Nat.zero_lt_succ _
  | cons f fs => exact Nat.zero_lt_succ _

/-- The fields of an object are read one after the other, up to its end. -/
theorem readFields_fieldsTail {fs : List (String × Json)} (hfs : ∀ f ∈ fs, Reads f.2)
    (k : String) (hv : Reads v) (done : List (String × Json)) (rest : List Char)
    (hfuel : v.chars.length + (fieldsTail fs).length ≤ fuel + 1) :
    readFields (fuel + 1) (quote k ++ ':' :: (v.chars ++ (fieldsTail fs ++ rest)))
        (done.map keptField).reverse =
      some (object (done ++ (k, v) :: fs), rest) := by
  -- one field after another, with those read before kept in reverse
  induction fs generalizing k v done fuel with
  | nil =>
    refine (readFields_last k hv (Nat.le_of_succ_le_succ hfuel) _ rest).trans ?_
    rw [← reverse_keptField_concat, objectOf_keptField]
  | cons f fs ih =>
    obtain ⟨name, w⟩ := f
    obtain ⟨hw, hws⟩ : Reads w ∧ ∀ f ∈ fs, Reads f.2 := List.forall_mem_cons.mp hfs
    have hpos := fieldsTail_length_pos fs
    simp only [fieldsTail, List.length_cons, List.length_append] at hfuel
    obtain ⟨less, rfl⟩ : ∃ less, fuel = less + 1 := ⟨fuel - 1, by omega⟩
    calc readFields (less + 2) (quote k ++ ':' :: (v.chars ++ (fieldsTail ((name, w) :: fs) ++
            rest))) (done.map keptField).reverse
        = readFields (less + 1) (quote name ++ ':' :: (w.chars ++ (fieldsTail fs ++ rest)))
            ((done ++ [(k, v)]).map keptField).reverse := by
          simp only [reverse_keptField_concat, fieldsTail, List.cons_append, List.append_assoc]
          exact readFields_more k hv (by omega) _ _
      _ = some (object (done ++ [(k, v)] ++ (name, w) :: fs), rest) :=
          ih hws name hw (done ++ [(k, v)]) (by omega)
      _ = some (object (done ++ (k, v) :: (name, w) :: fs), rest) := by
          rw [List.append_assoc]
          rfl

/-- **An object is read back** if the values of its fields are. -/
theorem reads_object {fields : List (String × Json)} (h : ∀ f ∈ fields, Reads f.2) :
    Reads (object fields) := by
  intro fuel rest hfuel _
  cases fields with
  | nil =>
    obtain ⟨fuel, rfl⟩ := (Exact.object (List.forall_mem_nil _)).exists_fuel hfuel
    rfl
  | cons f fs =>
    obtain ⟨k, v⟩ := f
    obtain ⟨hv, hfs⟩ : Reads v ∧ ∀ f ∈ fs, Reads f.2 := List.forall_mem_cons.mp h
    have hpos := fieldsTail_length_pos fs
    simp only [chars, List.length_cons, List.length_append] at hfuel
    -- one unit of fuel for the object and one for its fields, which are shorter than it
    obtain ⟨less, rfl⟩ : ∃ less, fuel = less + 2 := ⟨fuel - 2, by omega⟩
    calc readValue (less + 2) ((object ((k, v) :: fs)).chars ++ rest)
        = readFields (less + 1) (quote k ++ ':' :: (v.chars ++ (fieldsTail fs ++ rest))) [] := by
          simp only [chars, List.cons_append, List.append_assoc]
          rfl
      _ = some (object ((k, v) :: fs), rest) :=
          readFields_fieldsTail hfs k hv [] rest (by omega)

/-! ## All values -/

/-- **An exact value is read back**, whatever stands behind it. -/
theorem Exact.reads {v : Json} (hv : v.Exact) : v.Reads := by
  induction hv with
  | null => exact reads_null
  | bool b => exact reads_bool b
  | int h => exact reads_int h
  | text s => exact reads_text s
  | array h ih => exact reads_array fun v hv => ⟨h v hv, ih v hv⟩
  | object _ ih => exact reads_object ih

/-- **The compact text of an exact value spells that value and nothing else.** -/
theorem parse?_compact {v : Json} (hv : v.Exact) : parse? v.compact = some v := by
  have hread : readValue (v.chars.length + 1) (v.chars ++ []) = some (v, []) :=
    hv.reads (Nat.le_succ _) ends_nil
  rw [List.append_nil] at hread
  rw [parse?, compact, String.toList_ofList]
  simp only [hread]
  rfl

end Json

end Instinct
