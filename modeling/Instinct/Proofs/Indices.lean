import Instinct.Proofs.Mixing
import Mathlib.Algebra.Order.Floor.Div
import Mathlib.Order.Interval.Finset.Nat
import Mathlib.SetTheory.Cardinal.Finite

/-! # Indices split the words into even runs

An index is drawn by scaling a word of 32 bits to a length. The words of an index are a run of them.
One run follows the other, in the order of the indices and from the first word to the last, and all
are of the same length but for one word.

* **`toNat_scaleIndex`** — the index that a word stands for, in plain numbers.
* **`runStart`**, **`div_eq_iff_mem_run`** — the words of an index are a run, from its start to that
  of the next.
* **`length_run`** — the length of a run is `2 ^ 32 / len`, rounded down or up.
* **`EvenRuns index len start`** — `index` splits the words so for the indices below `len`.
* **`EvenRuns.lt`**, **`EvenRuns.mono`** — then every index is below `len`, and the larger word has
  the larger index.
* **`Generator.nextIndex_balanced`** — all of this for the indices that a random source draws. -/

namespace Instinct

/-! ## (1) Runs of words -/

/-- The product of a word and a length has room in 64 bits. -/
theorem word_mul_lt (word : UInt32) {len : Nat} (hlen : len ≤ UInt32.size) :
    word.toNat * len < UInt64.size := by
  calc word.toNat * len ≤ (UInt32.size - 1) * UInt32.size :=
        Nat.mul_le_mul (Nat.le_sub_one_of_lt word.toNat_lt) hlen
    _ < UInt64.size := by decide

/-- So it is what it would be in plain numbers. -/
theorem toNat_word_mul (word : UInt32) {len : Nat} (hlen : len ≤ UInt32.size) :
    (word.toUInt64 * .ofNat len).toNat = word.toNat * len := by
  have hlen64 : len < UInt64.size := hlen.trans_lt (by decide)
  rw [UInt64.toNat_mul, UInt32.toNat_toUInt64, UInt64.toNat_ofNat_of_lt' hlen64]
  exact Nat.mod_eq_of_lt (word_mul_lt word hlen)

/-- **The index that a word stands for**, in plain numbers: nothing overflows on the way. -/
theorem toNat_scaleIndex (word : UInt32) {len : Nat} (hlen : len ≤ UInt32.size) :
    (scaleIndex word (.ofNat len)).toNat = word.toNat * len / UInt32.size := by
  rw [scaleIndex, UInt64.toNat_shiftRight, toNat_word_mul word hlen]
  exact Nat.shiftRight_eq_div_pow _ 32

/-- The first word that stands for an index. -/
def runStart (len i : Nat) : Nat := (i * UInt32.size) ⌈/⌉ len

/-- **The words of an index are a run**, from its start to that of the next. -/
theorem div_eq_iff_mem_run {len : Nat} (hlen : 0 < len) (x i : Nat) :
    x * len / UInt32.size = i ↔ runStart len i ≤ x ∧ x < runStart len (i + 1) := by
  have hsize : 0 < UInt32.size := by decide
  rw [runStart, runStart, ceilDiv_le_iff_le_mul hlen, ← not_le, ceilDiv_le_iff_le_mul hlen, not_le,
    Nat.mul_comm len x]
  constructor
  · rintro rfl
    exact ⟨Nat.div_mul_le_self _ _, (Nat.div_lt_iff_lt_mul hsize).mp (Nat.lt_succ_self _)⟩
  · rintro ⟨hlow, hhigh⟩
    exact Nat.div_eq_of_lt_le hlow hhigh

/-- The runs follow one another in the order of the indices. -/
theorem runStart_mono {len : Nat} (hlen : 0 < len) : Monotone (runStart len) := fun _ _ hij =>
  (gc_smul_ceilDiv hlen).monotone_l (Nat.mul_le_mul_right _ hij)

/-- The run of an index below `len` ends with the last word or before. -/
theorem runStart_le {len i : Nat} (hi : i ≤ len) (hlen : 0 < len) :
    runStart len i ≤ UInt32.size :=
  (ceilDiv_le_iff_le_mul hlen).mpr (Nat.mul_le_mul_right _ hi)

/-- Rounding up before or after adding `share` differs by a share, rounded down or up. -/
theorem ceilDiv_add_sub {len : Nat} (hlen : 0 < len) (start share : Nat) :
    (start + share) ⌈/⌉ len - start ⌈/⌉ len = share / len ∨
      (start + share) ⌈/⌉ len - start ⌈/⌉ len = share ⌈/⌉ len := by
  have hstart : start ≤ len * (start ⌈/⌉ len) := le_smul_ceilDiv hlen
  have hnext : start + share ≤ len * ((start + share) ⌈/⌉ len) := le_smul_ceilDiv hlen
  have hfloor : len * (share / len) ≤ share := Nat.mul_div_le _ _
  have hceil : share ≤ len * (share ⌈/⌉ len) := le_smul_ceilDiv hlen
  have hupper : (start + share) ⌈/⌉ len ≤ start ⌈/⌉ len + share ⌈/⌉ len := by
    rw [ceilDiv_le_iff_le_mul hlen, Nat.mul_add]
    omega
  have hroom : share / len ≤ (start + share) ⌈/⌉ len := by
    refine Nat.le_of_mul_le_mul_left ?_ hlen
    omega
  have hlower : start ⌈/⌉ len ≤ (start + share) ⌈/⌉ len - share / len := by
    rw [ceilDiv_le_iff_le_mul hlen, Nat.mul_sub]
    omega
  -- rounded up is at most one more than rounded down, so there is nothing in between
  have hclose : share ⌈/⌉ len ≤ share / len + 1 := by
    rw [ceilDiv_le_iff_le_mul hlen]
    exact (Nat.lt_mul_div_succ _ hlen).le
  omega

/-- **The length of a run** is `2 ^ 32 / len`, rounded down or up. -/
theorem length_run {len : Nat} (hlen : 0 < len) (i : Nat) :
    runStart len (i + 1) - runStart len i = UInt32.size / len ∨
      runStart len (i + 1) - runStart len i = UInt32.size ⌈/⌉ len := by
  rw [runStart, runStart, Nat.add_mul, Nat.one_mul]
  exact ceilDiv_add_sub hlen _ _

/-- **How many words stand for an index.** -/
theorem card_words {len i : Nat} (hi : i < len) :
    Nat.card {word : UInt32 // word.toNat * len / UInt32.size = i}
      = runStart len (i + 1) - runStart len i := by
  have hlen : 0 < len := Nat.zero_lt_of_lt hi
  have hend : runStart len (i + 1) ≤ UInt32.size := runStart_le hi hlen
  let run : {word : UInt32 // word.toNat * len / UInt32.size = i} ≃
      {x : Nat // runStart len i ≤ x ∧ x < runStart len (i + 1)} :=
    { toFun := fun word => ⟨word.1.toNat, (div_eq_iff_mem_run hlen _ _).mp word.2⟩
      invFun := fun x => ⟨.ofNatLT x.1 (x.2.2.trans_le hend), (div_eq_iff_mem_run hlen _ _).mpr x.2⟩
      left_inv := fun word => Subtype.ext (UInt32.toNat_inj.mp rfl)
      right_inv := fun x => rfl }
  rw [Nat.card_congr run, Nat.subtype_card (Finset.Ico (runStart len i) (runStart len (i + 1)))
    fun x => Finset.mem_Ico, Nat.card_Ico]

/-! ## (2) Even runs -/

/-- **The words split into even runs**, one for each index below `len`. -/
structure EvenRuns (index : UInt32 → Nat) (len : Nat) (start : Nat → Nat) : Prop where
  /-- The first run begins with the first word. -/
  first : start 0 = 0
  /-- The last run ends with the last word. -/
  last : start len = UInt32.size
  /-- The words of an index are those from its start up to that of the next. -/
  mem : ∀ i < len, ∀ word : UInt32,
    index word = i ↔ start i ≤ word.toNat ∧ word.toNat < start (i + 1)
  /-- They are a `len`-th part of all words, rounded down or up. -/
  length : ∀ i < len, ∃ c, (c = UInt32.size / len ∨ c = UInt32.size ⌈/⌉ len) ∧
    start (i + 1) = start i + c ∧ Nat.card {word // index word = i} = c

namespace EvenRuns

variable {index : UInt32 → Nat} {len : Nat} {start : Nat → Nat} {word word' : UInt32}

/-- A word before the start of an index has a smaller one. -/
theorem lt_of_lt_start (h : EvenRuns index len start) {n : Nat} (hn : n ≤ len)
    (hword : word.toNat < start n) : index word < n := by
  induction n with
  | zero =>
    rw [h.first] at hword
    exact absurd hword (Nat.not_lt_zero _)
  | succ n ih =>
    by_cases hbefore : word.toNat < start n
    · exact (ih (Nat.le_of_succ_le hn) hbefore).trans (Nat.lt_succ_self n)
    · -- what is left is the run of the index before
      have hrun : index word = n := (h.mem n hn word).mpr ⟨Nat.le_of_not_lt hbefore, hword⟩
      exact hrun ▸ Nat.lt_succ_self n

/-- **Every index is below the length**: the runs leave out no word. -/
theorem lt (h : EvenRuns index len start) (word : UInt32) : index word < len :=
  h.lt_of_lt_start le_rfl (h.last ▸ word.toNat_lt)

/-- **The larger word has the larger index.** -/
theorem mono (h : EvenRuns index len start) (hle : word ≤ word') : index word ≤ index word' := by
  obtain ⟨-, hend⟩ := (h.mem _ (h.lt word') word').mp rfl
  -- the smaller word is before the end of the run of the larger one
  have hword : word.toNat < start (index word' + 1) := (UInt32.le_iff_toNat_le.mp hle).trans_lt hend
  exact Nat.le_of_lt_succ (h.lt_of_lt_start (h.lt word') hword)

end EvenRuns

/-! ## (3) Indices that are drawn -/

/-- **Scaling splits the words into even runs.** -/
theorem evenRuns_scaleIndex {len : Nat} (hlen : 0 < len) (hfew : len ≤ UInt32.size) :
    EvenRuns (fun word => (scaleIndex word (.ofNat len)).toNat) len (runStart len) where
  first := by rw [runStart, Nat.zero_mul, zero_ceilDiv]
  last := smul_ceilDiv hlen UInt32.size
  mem i _ word := by rw [toNat_scaleIndex word hfew, div_eq_iff_mem_run hlen]
  length i hi := by
    refine ⟨_, length_run hlen i, ?_, ?_⟩
    · exact (Nat.add_sub_cancel' (runStart_mono hlen i.le_succ)).symm
    · simp only [toNat_scaleIndex _ hfew]
      exact card_words hi

namespace Generator

/-- Every word is drawn by some random source. -/
theorem exists_next32 (word : UInt32) : ∃ g : Generator, g.next32.1 = word := by
  refine ⟨⟨unmix word.toUInt64 - goldenStep⟩, ?_⟩
  show (mix (unmix word.toUInt64 - goldenStep + goldenStep)).toUInt32 = word
  rw [UInt64.sub_add_cancel, mix_unmix, UInt32.toUInt32_toUInt64]

/-- **Indices are balanced.** For any length from one to `2 ^ 32`, no product of a word and the
length overflows; the words of an index below the length are a run, of a share in all words rounded
down or up; the runs follow one another and cover all words, each of which is drawn by some random
source. So the index that is drawn is below the length, and the larger word gives the larger
index. -/
theorem nextIndex_balanced {len : Nat} (hpos : 1 ≤ len) (hfew : len ≤ UInt32.size) :
    (∀ word : UInt32, word.toNat * len < UInt64.size ∧
      (word.toUInt64 * .ofNat len).toNat = word.toNat * len) ∧
    EvenRuns (fun word => (scaleIndex word (.ofNat len)).toNat) len (runStart len) ∧
    (∀ word : UInt32, ∃ g : Generator, g.next32.1 = word) ∧
    (∀ g : Generator, (g.nextIndex (.ofNat len)).1 = scaleIndex g.next32.1 (.ofNat len) ∧
      (g.nextIndex (.ofNat len)).1.toNat < len) ∧
    ∀ g g' : Generator, g.next32.1 ≤ g'.next32.1 →
      (g.nextIndex (.ofNat len)).1 ≤ (g'.nextIndex (.ofNat len)).1 := by
  have hruns := evenRuns_scaleIndex hpos hfew
  refine ⟨fun word => ⟨word_mul_lt word hfew, toNat_word_mul word hfew⟩, hruns, exists_next32,
    fun g => ⟨rfl, hruns.lt g.next32.1⟩, fun g g' hle => ?_⟩
  exact UInt64.le_iff_toNat_le.mpr (hruns.mono hle)

/-- Of three runs the first is longer by a word than the others. -/
theorem nextIndex_balanced_three :
    1 ≤ 3 ∧ 3 ≤ UInt32.size ∧
    EvenRuns (fun word => (scaleIndex word 3).toNat) 3 (runStart 3) ∧
    runStart 3 1 = 1431655766 ∧ runStart 3 2 = 2863311531 ∧
    (scaleIndex 1431655765 3).toNat = 0 ∧ (scaleIndex 1431655766 3).toNat = 1 ∧
    (scaleIndex 2863311530 3).toNat = 1 ∧ (scaleIndex 2863311531 3).toNat = 2 := by
  have hpos : 1 ≤ 3 := by decide
  have hfew : 3 ≤ UInt32.size := by decide
  obtain ⟨-, hruns, -⟩ := nextIndex_balanced hpos hfew
  have hone : runStart 3 1 = 1431655766 := rfl
  have htwo : runStart 3 2 = 2863311531 := rfl
  exact ⟨hpos, hfew, hruns, hone, htwo, (hruns.mem 0 (by decide) _).mpr (by decide),
    (hruns.mem 1 (by decide) _).mpr (by decide), (hruns.mem 1 (by decide) _).mpr (by decide),
    (hruns.mem 2 (by decide) _).mpr (by decide)⟩

end Generator

end Instinct
