import Instinct.Proofs.Diary
import Instinct.Proofs.Duality

/-! # The tally of a parallel

A parallel ticks all of its children and counts what they report. It asks how many of them may fail,
which comes to the same as asking whether enough of them succeed, or still could.

* **`Policy.verdict_of_total`** — the verdict by successes that are had and by those still within
  reach.
* **`Composite.parallel_tally`** — one tick of a parallel, child by child and in sum. -/

namespace Instinct

/-! ## Successes within reach -/

namespace Policy

variable {p : Policy} {n successes failures running : Nat}

/-- **A verdict is a success** once there are as many as required, **and a failure** as soon as
there would be too few even if all that are running succeeded. -/
theorem verdict_of_total (htotal : successes + failures + running = n) :
    (p.verdict n successes failures = .success ↔ p.required n ≤ successes) ∧
      (p.verdict n successes failures = .failure ↔ successes + running < p.required n) ∧
      (p.verdict n successes failures = .running ↔
        successes < p.required n ∧ p.required n ≤ successes + running) := by
  -- more failures than there may be: the rest are too few
  have hlost : n < failures + p.required n ↔ successes + running < p.required n := by omega
  unfold verdict
  simp only [hlost]
  by_cases hmet : p.required n ≤ successes
  · rw [if_pos hmet]
    refine ⟨iff_of_true rfl hmet, iff_of_false Status.noConfusion ?_,
      iff_of_false Status.noConfusion ?_⟩ <;> omega
  · rw [if_neg hmet]
    by_cases hshort : successes + running < p.required n
    · rw [if_pos hshort]
      refine ⟨iff_of_false Status.noConfusion hmet, iff_of_true rfl hshort,
        iff_of_false Status.noConfusion ?_⟩
      omega
    · rw [if_neg hshort]
      refine ⟨iff_of_false Status.noConfusion hmet, iff_of_false Status.noConfusion hshort,
        iff_of_true rfl ?_⟩
      omega

end Policy

/-! ## One tick -/

namespace Composite

variable {N G : Type}

/-- What a parallel reports is the verdict, whether it is done or not. -/
theorem status_parallel (m : Machine N G) (p : Policy) (f : Frame) (cs : List N) (w : World G) :
    ((parallel p).tick m f cs w).status =
      p.verdict cs.length ((m.tickAll f cs w).1.count .success)
        ((m.tickAll f cs w).1.count .failure) := by
  rw [tick, tickParallel]
  dsimp only
  cases p.verdict cs.length ((m.tickAll f cs w).1.count .success)
    ((m.tickAll f cs w).1.count .failure) <;> rfl

/-- **One tick of a parallel.** It ticks each child once, in order. When all have reported it
succeeds if as many as required did, and fails if too few would even if all that are running
succeeded; otherwise it is running. It cannot be both, and it is one of the two if nothing is
running. So a parallel that requires all fails with the first failure, one that requires one of its
children fails when all have, for no children too, and one that requires a majority succeeds with
half of them. -/
theorem parallel_tally (m : Machine N G) (p : Policy) (f : Frame) (cs : List N) (w : World G) :
    let status := ((parallel p).tick m f cs w).status
    let notes := (parallel p).record m f cs w
    let successes := (notes.map (Note.status m)).count .success
    let failures := (notes.map (Note.status m)).count .failure
    let running := (notes.map (Note.status m)).count .running
    let required := p.required cs.length
    notes.map Note.child = cs.zipIdx ∧
    successes + failures + running = cs.length ∧
    (status = .success ↔ required ≤ successes) ∧
    (status = .failure ↔ successes + running < required) ∧
    (status = .running ↔ successes < required ∧ required ≤ successes + running) ∧
    ¬ (required ≤ successes ∧ successes + running < required) ∧
    (running = 0 → required ≤ successes ∨ successes + running < required) ∧
    match p with
    | .requireAll => status = .failure ↔ 1 ≤ failures
    | .requireOne => status = .failure ↔ failures = cs.length
    | .requireMajority =>
      (status = .success ↔ cs.length ≤ 2 * successes) ∧
        (status = .failure ↔ cs.length < 2 * failures ∧ 2 * successes < cs.length) := by
  intro status notes successes failures running required
  obtain ⟨hchildren, hstatuses⟩ := record_parallel m f cs w p
  have htotal : successes + failures + running = cs.length := by
    rw [← m.length_tickAll f cs w, ← hstatuses]
    exact Status.count_total _
  have hverdict : status = p.verdict cs.length successes failures := by
    have hstatus := status_parallel m p f cs w
    rwa [← hstatuses] at hstatus
  obtain ⟨hsuccess, hfailure, hrunning⟩ := Policy.verdict_of_total (p := p) htotal
  rw [hverdict]
  refine ⟨hchildren, htotal, hsuccess, hfailure, hrunning, by omega, by omega, ?_⟩
  cases p with
  -- each policy is put in for what it requires, and the rest is arithmetic
  | requireAll =>
    rw [hfailure]
    show successes + running < cs.length ↔ 1 ≤ failures
    omega
  | requireOne =>
    rw [hfailure]
    show successes + running < 1 ↔ failures = cs.length
    omega
  | requireMajority =>
    rw [hsuccess, hfailure]
    show ((cs.length + 1) / 2 ≤ successes ↔ _) ∧ (successes + running < (cs.length + 1) / 2 ↔ _)
    omega

end Composite

end Instinct
