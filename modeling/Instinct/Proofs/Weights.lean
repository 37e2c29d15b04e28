import Instinct.Node.Composite
import Mathlib.Tactic.ByContra

/-! # Where a weighted choice lands

A weighted choice goes along the weights and takes each one off the draw. Whatever numbers it is
made with, rounded or not, it lands on one of the weights; and where the numbers behave at zero it
lands on a positive one.

* **`lt_length_of_pickBelow`**, **`exists_of_lastPositive`**, **`lastPositive_eq_none_iff`** — the
  loop and its fallback, over any numbers.
* **`pickWeighted_lt`** — the index of a weighted choice is one of the weights'.
* **`Weighable`** — the little that is asked of numbers: how they compare with zero, and what of
  that sums, differences and products keep.
* **`Weighable.pickWeighted_positive`** — then a weight that is not positive is never chosen. -/

namespace Instinct

/-! ## (1) Any numbers -/

section Loop

variable {α : Type} [Sub α] [LT α] [DecidableLT α]

/-- The first of the weights is tried before the others. -/
theorem pickBelow_cons (w : α) (ws : List α) (draw : α) :
    pickBelow (w :: ws) draw =
      if draw < w then some 0 else (pickBelow ws (draw - w)).map (· + 1) := rfl

/-- What the loop returns is the index of a weight. -/
theorem lt_length_of_pickBelow {ws : List α} {draw : α} {i : Nat}
    (h : pickBelow ws draw = some i) : i < ws.length := by
  induction ws generalizing draw i with
  | nil => cases h
  | cons w ws ih =>
    rw [pickBelow_cons] at h
    by_cases hw : draw < w
    · rw [if_pos hw] at h
      cases h
      exact Nat.zero_lt_succ _
    · rw [if_neg hw] at h
      obtain ⟨j, hj, rfl⟩ := Option.map_eq_some_iff.mp h
      exact Nat.succ_lt_succ (ih hj)

end Loop

section Fallback

variable {α : Type} [OfNat α 0] [LT α] [DecidableLT α]

/-- The last positive weight is among the later ones, or else it may be the first. -/
theorem lastPositive_cons (w : α) (ws : List α) :
    lastPositive (w :: ws) =
      match lastPositive ws with
      | some i => some (i + 1)
      | none => if 0 < w then some 0 else none := rfl

/-- What the fallback returns is the index of a positive weight. -/
theorem exists_of_lastPositive {ws : List α} {i : Nat} (h : lastPositive ws = some i) :
    ∃ hi : i < ws.length, 0 < ws[i] := by
  induction ws generalizing i with
  | nil => cases h
  | cons w ws ih =>
    rw [lastPositive_cons] at h
    cases hrest : lastPositive ws with
    | some j =>
      rw [hrest] at h
      cases h
      obtain ⟨hj, hpos⟩ := ih hrest
      -- a later one is positive, and stands one place further on here
      exact ⟨Nat.succ_lt_succ hj, hpos⟩
    | none =>
      rw [hrest] at h
      by_cases hw : 0 < w
      · simp only [if_pos hw, Option.some.injEq] at h
        subst h
        exact ⟨Nat.zero_lt_succ _, hw⟩
      · simp [hw] at h

/-- It finds a positive weight if there is one. -/
theorem lastPositive_eq_none_iff {ws : List α} :
    lastPositive ws = none ↔ ∀ w ∈ ws, ¬ 0 < w := by
  induction ws with
  | nil => simp [lastPositive]
  | cons w ws ih =>
    rw [lastPositive_cons, List.forall_mem_cons, ← ih]
    cases lastPositive ws <;> simp

end Fallback

section Choice

variable {α : Type} [Add α] [Sub α] [Mul α] [OfNat α 0] [LT α] [DecidableLT α]

/-- **A weighted choice picks one of the weights**, whatever they are. -/
theorem pickWeighted_lt {ws : List α} (hsome : ws ≠ []) (unit : α) :
    pickWeighted ws unit < ws.length := by
  have hlength : 0 < ws.length := List.length_pos_iff.mpr hsome
  rw [pickWeighted]
  cases hpick : pickBelow ws (unit * weightTotal ws) with
  | some i => exact lt_length_of_pickBelow hpick
  | none =>
    -- past the end of the loop there are two ways out
    cases hlast : lastPositive ws with
    | some i =>
      obtain ⟨hi, -⟩ := exists_of_lastPositive hlast
      exact hi
    | none => exact Nat.sub_one_lt_of_lt hlength

end Choice

/-! ## (2) Numbers that behave at zero -/

/-- **What is asked of numbers.** They need not be ordered: a number that is not below zero may be
one that compares with no other. -/
structure Weighable (α : Type) [Add α] [Sub α] [Mul α] [OfNat α 0] [LT α] : Prop where
  not_neg_of_pos : ∀ {x : α}, 0 < x → ¬ x < 0
  pos_of_lt : ∀ {x y : α}, ¬ x < 0 → x < y → 0 < y
  not_neg_mul : ∀ {x y : α}, ¬ x < 0 → ¬ y < 0 → ¬ x * y < 0
  not_neg_sub : ∀ {x y : α}, ¬ x < 0 → ¬ y < 0 → ¬ x < y → ¬ x - y < 0
  zero_flat : ¬ (0 : α) < 0
  /-- Numbers that are neither positive nor negative add up to such a number. -/
  add_flat : ∀ {x y : α}, ¬ x < 0 → ¬ 0 < x → ¬ y < 0 → ¬ 0 < y → ¬ x + y < 0 ∧ ¬ 0 < x + y

namespace Weighable

variable {α : Type} [Add α] [Sub α] [Mul α] [OfNat α 0] [LT α] {ws : List α}

/-- A sum to which only such numbers are added stays one. -/
theorem foldl_flat (h : Weighable α) (hws : ∀ w ∈ ws, ¬ w < 0 ∧ ¬ 0 < w) {sum : α}
    (hneg : ¬ sum < 0) (hpos : ¬ 0 < sum) : ¬ 0 < ws.foldl (· + ·) sum := by
  induction ws generalizing sum with
  | nil => exact hpos
  | cons w ws ih =>
    obtain ⟨⟨hwneg, hwpos⟩, hws⟩ := List.forall_mem_cons.mp hws
    obtain ⟨hneg, hpos⟩ := h.add_flat hneg hpos hwneg hwpos
    exact ih hws hneg hpos

/-- A positive total has a positive weight in it. -/
theorem exists_pos (h : Weighable α) (hws : ∀ w ∈ ws, ¬ w < 0) (htotal : 0 < weightTotal ws) :
    ∃ w ∈ ws, 0 < w := by
  by_contra hnone
  have hflat : ∀ w ∈ ws, ¬ w < 0 ∧ ¬ 0 < w := by
    intro w hw
    exact ⟨hws w hw, fun hpos => hnone ⟨w, hw, hpos⟩⟩
  exact h.foldl_flat hflat h.zero_flat h.zero_flat htotal

variable [DecidableLT α]

/-- **The loop stops at a positive weight**, as long as the draw did not start below zero. -/
theorem pickBelow_positive (h : Weighable α) (hws : ∀ w ∈ ws, ¬ w < 0) {draw : α}
    (hdraw : ¬ draw < 0) {i : Nat} (hpick : pickBelow ws draw = some i) :
    ∃ hi : i < ws.length, 0 < ws[i] := by
  induction ws generalizing draw i with
  | nil => cases hpick
  | cons w ws ih =>
    obtain ⟨hw, hws⟩ := List.forall_mem_cons.mp hws
    rw [pickBelow_cons] at hpick
    by_cases hbelow : draw < w
    · rw [if_pos hbelow] at hpick
      cases hpick
      exact ⟨Nat.zero_lt_succ _, h.pos_of_lt hdraw hbelow⟩
    · rw [if_neg hbelow] at hpick
      obtain ⟨j, hj, rfl⟩ := Option.map_eq_some_iff.mp hpick
      -- what is left of the draw is not below zero either
      have hleft : ¬ draw - w < 0 := h.not_neg_sub hdraw hw hbelow
      obtain ⟨hj, hpos⟩ := ih hws hleft hj
      exact ⟨Nat.succ_lt_succ hj, hpos⟩

/-- **A weight that is not positive is never chosen**, where the total is positive. -/
theorem pickWeighted_positive (h : Weighable α) (hws : ∀ w ∈ ws, ¬ w < 0)
    (htotal : 0 < weightTotal ws) {unit : α} (hunit : ¬ unit < 0) :
    ∃ hi : pickWeighted ws unit < ws.length, 0 < ws[pickWeighted ws unit] := by
  have hdraw : ¬ unit * weightTotal ws < 0 := h.not_neg_mul hunit (h.not_neg_of_pos htotal)
  -- the loop has chosen, or it has fallen through to the last positive weight
  cases hpick : pickBelow ws (unit * weightTotal ws) with
  | some i =>
    have hchosen : pickWeighted ws unit = i := by rw [pickWeighted, hpick]
    simp only [hchosen]
    exact h.pickBelow_positive hws hdraw hpick
  | none =>
    have hsome : lastPositive ws ≠ none := by
      intro hnone
      obtain ⟨w, hw, hpos⟩ := h.exists_pos hws htotal
      exact lastPositive_eq_none_iff.mp hnone w hw hpos
    obtain ⟨i, hlast⟩ := Option.ne_none_iff_exists'.mp hsome
    have hchosen : pickWeighted ws unit = i := by
      rw [pickWeighted, hpick, hlast]
      rfl
    simp only [hchosen]
    exact exists_of_lastPositive hlast

end Weighable

end Instinct
