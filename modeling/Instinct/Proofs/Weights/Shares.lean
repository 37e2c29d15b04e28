import Instinct.Proofs.Weights
import Mathlib.Algebra.Order.Field.Basic
import Mathlib.Algebra.Order.Field.Rat
import Mathlib.Order.Interval.Set.Defs
import Mathlib.Tactic.Linarith
import Mathlib.Tactic.NormNum

/-! # Each weight has its share of the draws

With exact numbers a weighted choice inverts the sums of the weights: a draw below the total stands
for the index at which the sums pass it. The draws of an index are an interval, whose length is the
weight's part of the total.

* **`weightTotal_cons`**, **`weightTotal_take_succ`**, **`weightTotal_take_mono`** — exact sums.
* **`pickBelow_eq_some_iff`** — the loop stops at the index at which the sums pass the draw;
  **`exists_pickBelow`** — and it does stop.
* **`pickWeighted_inverts`** — the choice as the inverse of the sums, in whole. -/

namespace Instinct

variable {K : Type} [Field K] {ws : List K}

/-! ## (1) Exact sums -/

/-- No weights sum up to nothing. -/
theorem weightTotal_nil : weightTotal ([] : List K) = 0 := rfl

/-- With exact numbers it does not matter where a sum begins. -/
theorem weightTotal_cons (w : K) (ws : List K) : weightTotal (w :: ws) = w + weightTotal ws := by
  calc weightTotal (w :: ws) = ws.foldl (· + ·) (w + 0) := by
        rw [weightTotal, List.foldl_cons, add_comm]
    _ = w + weightTotal ws := List.foldl_assoc

/-- The sum up to a weight and with it. -/
theorem weightTotal_take_succ {i : Nat} (hi : i < ws.length) :
    weightTotal (ws.take (i + 1)) = weightTotal (ws.take i) + ws[i] := by
  induction ws generalizing i with
  | nil => cases hi
  | cons w ws ih =>
    cases i with
    | zero => simp [weightTotal_cons, weightTotal_nil]
    | succ i =>
      have hi : i < ws.length := Nat.lt_of_succ_lt_succ hi
      rw [List.take_succ_cons, weightTotal_cons, ih hi, List.take_succ_cons, weightTotal_cons,
        add_assoc, List.getElem_cons_succ]

variable [LinearOrder K] [IsStrictOrderedRing K]

/-- Weights that are not negative have no negative sum. -/
theorem weightTotal_nonneg (hws : ∀ w ∈ ws, 0 ≤ w) : 0 ≤ weightTotal ws := by
  induction ws with
  | nil => exact le_rfl
  | cons w ws ih =>
    obtain ⟨hw, hws⟩ := List.forall_mem_cons.mp hws
    rw [weightTotal_cons]
    exact add_nonneg hw (ih hws)

/-- The sums do not fall. -/
theorem weightTotal_take_mono (hws : ∀ w ∈ ws, 0 ≤ w) {i j : Nat} (hij : i ≤ j) :
    weightTotal (ws.take i) ≤ weightTotal (ws.take j) := by
  induction hij with
  | refl => exact le_rfl
  | @step j hij ih =>
    apply ih.trans
    by_cases hj : j < ws.length
    · rw [weightTotal_take_succ hj]
      exact le_add_of_nonneg_right (hws _ (List.getElem_mem hj))
    · -- past the end there is nothing to add
      have hj : ws.length ≤ j := Nat.le_of_not_lt hj
      rw [List.take_of_length_le hj, List.take_of_length_le (Nat.le_succ_of_le hj)]

/-! ## (2) The loop -/

/-- **The loop stops at the index at which the sums pass the draw.** -/
theorem pickBelow_eq_some_iff (hws : ∀ w ∈ ws, 0 ≤ w) {draw : K} (hdraw : 0 ≤ draw) {i : Nat} :
    pickBelow ws draw = some i ↔
      weightTotal (ws.take i) ≤ draw ∧ draw < weightTotal (ws.take (i + 1)) := by
  induction ws generalizing draw i with
  | nil =>
    rw [List.take_nil, List.take_nil, weightTotal_nil]
    exact iff_of_false nofun fun h => absurd h.2 (not_lt.mpr hdraw)
  | cons w ws ih =>
    obtain ⟨hw, hws⟩ := List.forall_mem_cons.mp hws
    rw [pickBelow_cons]
    by_cases hbelow : draw < w
    · rw [if_pos hbelow]
      cases i with
      | zero => simpa [weightTotal_cons, weightTotal_nil, hdraw] using hbelow
      | succ i =>
        -- the sums have passed the draw with the first weight already
        have hrest : 0 ≤ weightTotal (ws.take i) :=
          weightTotal_nonneg fun v hv => hws v (List.mem_of_mem_take hv)
        rw [List.take_succ_cons, weightTotal_cons]
        exact iff_of_false (by simp) fun h => absurd h.1 (by linarith)
    · rw [if_neg hbelow]
      have hleft : 0 ≤ draw - w := by linarith
      cases i with
      | zero =>
        refine iff_of_false (by simp) fun h => hbelow ?_
        simpa [weightTotal_cons, weightTotal_nil] using h.2
      | succ i =>
        rw [List.take_succ_cons, List.take_succ_cons, weightTotal_cons, weightTotal_cons,
          ← le_sub_iff_add_le', ← sub_lt_iff_lt_add', ← ih hws hleft]
        simp

/-- **The loop does stop** where the draw is below the total. -/
theorem exists_pickBelow {draw : K} (hdraw : 0 ≤ draw) (htotal : draw < weightTotal ws) :
    ∃ i, pickBelow ws draw = some i := by
  induction ws generalizing draw with
  | nil => exact absurd htotal (not_lt.mpr hdraw)
  | cons w ws ih =>
    rw [pickBelow_cons]
    -- the draw falls to the first weight, or what is left of it to the others
    by_cases hbelow : draw < w
    · exact ⟨0, if_pos hbelow⟩
    · rw [weightTotal_cons] at htotal
      have hleft : 0 ≤ draw - w := by linarith
      have hrest : draw - w < weightTotal ws := by linarith
      obtain ⟨i, hi⟩ := ih hleft hrest
      rw [if_neg hbelow, hi]
      exact ⟨i + 1, rfl⟩

/-! ## (3) The choice -/

/-- The loop returns what is chosen, and its fallback is not reached. -/
theorem pickBelow_eq_pickWeighted (htotal : 0 < weightTotal ws) {u : K} (hu : 0 ≤ u) (hu' : u < 1) :
    pickBelow ws (u * weightTotal ws) = some (pickWeighted ws u) := by
  have hdraw : 0 ≤ u * weightTotal ws := mul_nonneg hu htotal.le
  have hbelow : u * weightTotal ws < weightTotal ws := mul_lt_of_lt_one_left htotal hu'
  obtain ⟨i, hi⟩ := exists_pickBelow hdraw hbelow
  rw [pickWeighted, hi]

/-- What is chosen is the index at which the sums pass the draw. -/
theorem pickWeighted_eq_iff (hws : ∀ w ∈ ws, 0 ≤ w) (htotal : 0 < weightTotal ws) {u : K}
    (hu : 0 ≤ u) (hu' : u < 1) {i : Nat} :
    pickWeighted ws u = i ↔
      weightTotal (ws.take i) ≤ u * weightTotal ws ∧
        u * weightTotal ws < weightTotal (ws.take (i + 1)) := by
  rw [← pickBelow_eq_some_iff hws (mul_nonneg hu htotal.le),
    pickBelow_eq_pickWeighted htotal hu hu', Option.some.injEq]

/-- The larger the draw, the larger the index. -/
theorem pickWeighted_mono (hws : ∀ w ∈ ws, 0 ≤ w) (htotal : 0 < weightTotal ws) {u v : K}
    (hu : 0 ≤ u) (huv : u ≤ v) (hv : v < 1) : pickWeighted ws u ≤ pickWeighted ws v := by
  obtain ⟨hlow, -⟩ := (pickWeighted_eq_iff hws htotal hu (huv.trans_lt hv)).mp rfl
  obtain ⟨-, hhigh⟩ := (pickWeighted_eq_iff hws htotal (hu.trans huv) hv).mp rfl
  by_contra hlt
  have hsums := weightTotal_take_mono hws (Nat.lt_of_not_le hlt)
  have hdraws : u * weightTotal ws ≤ v * weightTotal ws :=
    mul_le_mul_of_nonneg_right huv htotal.le
  -- the larger draw is below a sum that the smaller one has passed
  exact absurd (hhigh.trans_le (hsums.trans (hlow.trans hdraws))) (lt_irrefl _)

/-- The draws of an index are an interval. -/
theorem draws_eq_Ico (hws : ∀ w ∈ ws, 0 ≤ w) (htotal : 0 < weightTotal ws) {i : Nat}
    (hi : i < ws.length) :
    {u | 0 ≤ u ∧ u < 1 ∧ pickWeighted ws u = i} =
      Set.Ico (weightTotal (ws.take i) / weightTotal ws)
        (weightTotal (ws.take (i + 1)) / weightTotal ws) := by
  ext u
  rw [Set.mem_ofPred_eq, Set.mem_Ico, div_le_iff₀ htotal, lt_div_iff₀ htotal]
  constructor
  · rintro ⟨hu, hu', hchosen⟩
    exact (pickWeighted_eq_iff hws htotal hu hu').mp hchosen
  · rintro ⟨hlow, hhigh⟩
    have hsum : 0 ≤ weightTotal (ws.take i) :=
      weightTotal_nonneg fun w hw => hws w (List.mem_of_mem_take hw)
    -- no draw falls behind the last weight
    have hend : weightTotal (ws.take (i + 1)) ≤ weightTotal ws := by
      have hmono := weightTotal_take_mono hws hi
      rwa [List.take_length] at hmono
    have hu : 0 ≤ u := nonneg_of_mul_nonneg_left (hsum.trans hlow) htotal
    have hu' : u < 1 := by
      apply lt_of_mul_lt_mul_right _ htotal.le
      rw [one_mul]
      exact hhigh.trans_le hend
    exact ⟨hu, hu', (pickWeighted_eq_iff hws htotal hu hu').mpr ⟨hlow, hhigh⟩⟩

/-- **With exact numbers a weighted choice is the inverse of the sums of the weights.** Where no
weight is negative and the total is positive, the loop returns an index for each draw in `[0, 1)`,
so that its fallback is not reached. It is the only index at which the sums pass the draw's part of
the total. The larger the draw, the larger the index; and the draws of an index are an interval as
long as the weight's part of the total. -/
theorem pickWeighted_inverts (hws : ∀ w ∈ ws, 0 ≤ w) (htotal : 0 < weightTotal ws) :
    let before (i : Nat) : K := weightTotal (ws.take i)
    let total := weightTotal ws
    (∀ u, 0 ≤ u → u < 1 →
      pickBelow ws (u * total) = some (pickWeighted ws u) ∧ pickWeighted ws u < ws.length ∧
      ∀ i, pickWeighted ws u = i ↔ before i ≤ u * total ∧ u * total < before (i + 1)) ∧
    (∀ u v, 0 ≤ u → u ≤ v → v < 1 → pickWeighted ws u ≤ pickWeighted ws v) ∧
    ∀ i, ∀ hi : i < ws.length,
      {u | 0 ≤ u ∧ u < 1 ∧ pickWeighted ws u = i}
        = Set.Ico (before i / total) (before (i + 1) / total) ∧
      before (i + 1) / total - before i / total = ws[i] / total := by
  intro before total
  refine ⟨fun u hu hu' => ?_, fun u v hu huv hv => pickWeighted_mono hws htotal hu huv hv,
    fun i hi => ?_⟩
  · have hloop := pickBelow_eq_pickWeighted htotal hu hu'
    exact ⟨hloop, lt_length_of_pickBelow hloop, fun i => pickWeighted_eq_iff hws htotal hu hu'⟩
  · refine ⟨draws_eq_Ico hws htotal hi, ?_⟩
    rw [← sub_div]
    show (weightTotal (ws.take (i + 1)) - weightTotal (ws.take i)) / _ = _
    rw [weightTotal_take_succ hi, add_sub_cancel_left]

/-- Weights of one and two, and none before, between and behind them. A third of the draws stand for
the first of the two, and with the third itself the second begins. -/
theorem pickWeighted_inverts_thirds :
    let ws : List ℚ := [0, 1, 0, 2, 0]
    (∀ w ∈ ws, 0 ≤ w) ∧ 0 < weightTotal ws ∧
      pickBelow ws (1 / 3 * weightTotal ws) = some 3 ∧ pickWeighted ws (1 / 3) = 3 ∧
      {u | 0 ≤ u ∧ u < 1 ∧ pickWeighted ws u = 1} = Set.Ico 0 (1 / 3) ∧
      {u | 0 ≤ u ∧ u < 1 ∧ pickWeighted ws u = 2} = Set.Ico (1 / 3) (1 / 3) := by
  intro ws
  have hws : ∀ w ∈ ws, 0 ≤ w := by simp [ws]
  have htotal : weightTotal ws = 3 := by norm_num [ws, weightTotal_cons, weightTotal_nil]
  have hpos : 0 < weightTotal ws := by norm_num [htotal]
  obtain ⟨hchoice, -, hshares⟩ := pickWeighted_inverts hws hpos
  obtain ⟨hloop, -, hiff⟩ := hchoice (1 / 3) (by norm_num) (by norm_num)
  have hthird : pickWeighted ws (1 / 3) = 3 := by
    apply (hiff 3).mpr
    norm_num [ws, weightTotal_cons, weightTotal_nil]
  obtain ⟨hone, -⟩ := hshares 1 (by decide)
  obtain ⟨htwo, -⟩ := hshares 2 (by decide)
  rw [hthird] at hloop
  norm_num [htotal] at hone htwo
  refine ⟨hws, hpos, hloop, hthird, ?_, ?_⟩
  · norm_num [hone, ws, weightTotal_cons, weightTotal_nil]
  · norm_num [htwo, ws, weightTotal_cons, weightTotal_nil]

end Instinct
