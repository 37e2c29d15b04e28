import Instinct.Proofs.Commitment
import Instinct.Proofs.Weights.Rounded

/-! # Weighted selectors, with good weights and without

The weights of a weighted selector count only if there is one for each child and their sum is
positive. Otherwise it does what a random selector does, throughout.

* **`HasWeight`** — a child has a positive weight.
* **`Node.weights_of_finish`** — what the check of a node says about its weights.
* **`pickChild_hasWeight`**, **`pickChild_eq_pickUniform`** — a choice with good weights, and one
  without.
* **`Composite.weighted_hasWeight`** — with good weights only children that have one are ticked.
* **`Composite.tickChosen_any`** — a tick does not depend on what is kept beside the draws.
* **`Composite.SameDraws`**, **`Composite.sameDraws_occasion`** — a weighted selector and a random
  one in the same state, and that they stay so.
* **`Composite.weighted_eq_random`** — without them the run is that of a random selector. -/

namespace Instinct

variable {N G : Type}

/-! ## (1) With good weights -/

/-- **A child has a positive weight.** -/
def HasWeight (ws : List Float32) (i : Nat) : Prop := ∃ hi : i < ws.length, 0 < ws[i]

/-- A check that was passed found as many weights as children, each of them finite and none of them
negative. -/
theorem Node.weights_of_finish {title : Option String} {ws : List Float32} {d : Draws}
    {cs : List (Node G)} (h : (composite title (.weighted (some ws) d) cs).finish = .ok ()) :
    ws.length = cs.length ∧ ∀ w ∈ ws, w.isFinite = true ∧ ¬ w < 0 := by
  rw [finish] at h
  by_cases hlength : ws.length = cs.length
  · refine ⟨hlength, ?_⟩
    intro w hw
    rw [if_neg (not_not_intro hlength)] at h
    have hvalid : firstInvalidWeight ws = none := by
      cases hfirst : firstInvalidWeight ws with
      | none => rfl
      | some found =>
        rw [hfirst] at h
        cases h
    -- an invalid weight would have been found at its place
    obtain ⟨i, hi, rfl⟩ := List.getElem_of_mem hw
    have hmem : (ws[i], i) ∈ ws.zipIdx :=
      List.mk_mem_zipIdx_iff_getElem?.mpr (List.getElem?_eq_getElem hi)
    have hgood := List.find?_eq_none.mp (Option.map_eq_none_iff.mp hvalid) _ hmem
    simpa using hgood
  · rw [if_pos hlength] at h
    cases h

/-- **A choice with good weights** picks a child that has one. -/
theorem pickChild_hasWeight {ws : List Float32} (hws : ∀ w ∈ ws, ¬ w < 0)
    (htotal : 0 < weightTotal ws) (g : Generator) :
    HasWeight ws (pickChild (some ws) ws.length g) := by
  rw [pickChild, if_pos ⟨rfl, htotal⟩]
  exact weighable_single.pickWeighted_positive hws htotal (unitInterval_not_neg _)

/-! ## (2) Without -/

/-- **A choice without good weights** is one among children that are all alike. -/
theorem pickChild_eq_pickUniform {weights : Option (List Float32)} {n : Nat}
    (h : ∀ ws ∈ weights, ws.length ≠ n ∨ ¬ 0 < weightTotal ws) :
    pickChild weights n = pickUniform n := by
  funext g
  cases weights with
  | none => rfl
  | some ws =>
    rw [pickChild, if_neg]
    -- a draw by weight needs both a weight for each child and a positive sum; one of the two fails
    rintro ⟨hlength, htotal⟩
    rcases h ws rfl with hcount | hzero
    · exact hcount hlength
    · exact hzero htotal

/-- A tick of one child leaves as many as there were. -/
theorem Machine.length_tickAt (m : Machine N G) (f : Frame) (i : Nat) (ns : List N) (w : World G) :
    (m.tickAt f i ns w).node.length = ns.length := by
  induction ns generalizing i with
  | nil => rw [Machine.tickAt_nil]
  | cons n ns ih =>
    cases i with
    | zero => rfl
    | succ i => exact congrArg (· + 1) (ih i)

namespace Composite

/-- **A tick of a composite that commits to a child** does not depend on what is kept beside the
draws. -/
theorem tickChosen_any (m : Machine N G) (pick : Generator → Nat) (f : Frame) (d : Draws)
    (cs : List N) (w : World G) :
    ∃ o : Outcome (Draws × List N) G, o.node.2.length = cs.length ∧
      ∀ make, tickChosen m make pick f d cs w = o.map (Prod.map make id) := by
  by_cases hempty : cs.isEmpty
  · refine ⟨⟨.failure, (d, cs), w⟩, rfl, ?_⟩
    intro make
    rw [tickChosen, if_pos hempty]
    rfl
  · -- the choice is made before the composite is made up again, so it is the same for any `make`
    let i := d.chosen.getD (pick (d.generator f))
    let o := m.tickAt f i cs w
    let held := d.hold i
    refine ⟨⟨o.status, (if o.status.isDone then held.release else held, o.node), o.world⟩,
      m.length_tickAt f i cs w, ?_⟩
    intro make
    rw [tickChosen, if_neg hempty]
    obtain ⟨stream, count, chosen⟩ := d
    cases chosen <;> rfl

/-- **One tick without good weights** is that of a random selector. -/
theorem tick_weighted_eq_random (m : Machine N G) {weights : Option (List Float32)} {cs : List N}
    (h : ∀ ws ∈ weights, ws.length ≠ cs.length ∨ ¬ 0 < weightTotal ws) (f : Frame) (d : Draws)
    (w : World G) :
    ∃ o : Outcome (Draws × List N) G, o.node.2.length = cs.length ∧
      (weighted weights d).tick m f cs w = o.map (Prod.map (weighted weights) id) ∧
      (random d).tick m f cs w = o.map (Prod.map random id) := by
  obtain ⟨o, hlength, hall⟩ := tickChosen_any m (pickUniform cs.length) f d cs w
  refine ⟨o, hlength, ?_, hall random⟩
  rw [tick, pickChild_eq_pickUniform h]
  exact hall (weighted weights)

/-- The same is written down. -/
theorem record_weighted_eq_random (m : Machine N G) {weights : Option (List Float32)} {cs : List N}
    (h : ∀ ws ∈ weights, ws.length ≠ cs.length ∨ ¬ 0 < weightTotal ws) (f : Frame) (d : Draws)
    (w : World G) : (weighted weights d).record m f cs w = (random d).record m f cs w := by
  have hnumbered : ∀ ws ∈ weights, ws.length ≠ cs.zipIdx.length ∨ ¬ 0 < weightTotal ws := by
    rwa [List.length_zipIdx]
  obtain ⟨o, -, hweighted, hrandom⟩ :=
    tick_weighted_eq_random m.noting hnumbered f d (w.beside [])
  rw [record, record, hweighted, hrandom]
  rfl

/-- **A weighted selector and a random one in the same state**: the same draws, the same children,
of which there are `n`, and the same world. -/
def SameDraws (weights : Option (List Float32)) (n : Nat)
    (s t : (Composite × List N) × World G) : Prop :=
  ∃ d, s.1.1 = .weighted weights d ∧ t.1.1 = .random d ∧ s.1.2 = t.1.2 ∧ s.1.2.length = n ∧
    s.2 = t.2

/-- **They stay so**, and what is done to the children is the same. -/
theorem sameDraws_occasion (m : Machine N G) {weights : Option (List Float32)} {n : Nat}
    (h : ∀ ws ∈ weights, ws.length ≠ n ∨ ¬ 0 < weightTotal ws) (a : Move G)
    {s t : (Composite × List N) × World G} (hst : SameDraws weights n s t) :
    (occasion m a t).1 = (occasion m a s).1 ∧
      SameDraws weights n (occasion m a s).2 (occasion m a t).2 := by
  obtain ⟨⟨c, cs⟩, w⟩ := s
  obtain ⟨⟨c', cs'⟩, w'⟩ := t
  obtain ⟨d, hc, hc', hchildren, hlength, hworld⟩ := hst
  dsimp only at hc hc' hchildren hlength hworld
  subst hc hc' hchildren hlength hworld
  -- a tick draws alike on both sides, a reset lets go of the draws on both
  cases a with
  | tick f =>
    obtain ⟨o, ho, hweighted, hrandom⟩ := tick_weighted_eq_random m h f d w
    have hrecord := record_weighted_eq_random m h f d w
    rw [occasion_tick, occasion_tick, hrecord, hweighted, hrandom]
    exact ⟨rfl, o.node.1, rfl, rfl, rfl, ho, rfl⟩
  | reset => exact ⟨rfl, d.release, rfl, rfl, rfl, List.length_map _, rfl⟩
  | meanwhile change => exact ⟨rfl, d, rfl, rfl, rfl, rfl, rfl⟩

end Composite

/-! ## (3) Whole runs -/

namespace Composite

/-- **A child without a weight is never chosen.** The weights of a weighted selector have passed the
check of the node, and their sum is positive. Then whatever is done to it, it is committed only to
children with a positive weight, each tick that begins with a fresh choice is one of such a child,
and so was every tick before. -/
theorem weighted_hasWeight {title : Option String} {ws : List Float32} {stream : UInt64}
    {cs : List (Node G)}
    (hfinish : (Node.composite title (.weighted (some ws) { stream }) cs).finish = .ok ())
    (htotal : 0 < weightTotal ws) (moves : List (Move G)) (w : World G) :
    let m : Machine (Node G) G := Node.asMachine
    let c : Composite × List (Node G) := (.weighted (some ws) { stream }, cs)
    let n := (m.composite.run moves c w).2.1
    ∃ d, n.1 = .weighted (some ws) d ∧ (∀ i, d.chosen = some i → HasWeight ws i) ∧
      (d.chosen = none → ∀ f v, ∃ e, n.1.record m f n.2 v = [e] ∧ HasWeight ws e.number) ∧
      ∀ x ∈ (occasions m moves c w).1, ∀ e ∈ x.notes, HasWeight ws e.number := by
  intro m c n
  obtain ⟨hcount, hvalid⟩ := Node.weights_of_finish hfinish
  have hws : ∀ w ∈ ws, ¬ w < 0 := fun w hw => (hvalid w hw).2
  have hpick (f : Frame) (k : Nat) :
      HasWeight ws (turn (pickChild (some ws)) cs.length stream f k) := by
    rw [turn, ← hcount]
    exact pickChild_hasWeight hws htotal _
  have hpick_lt (f : Frame) (k : Nat) :
      turn (pickChild (some ws)) cs.length stream f k < cs.length := by
    obtain ⟨hlt, -⟩ := hpick f k
    rwa [hcount] at hlt
  have hrun : (m.composite.run moves c w).2 = (occasions m moves c w).2 :=
    congrArg Prod.snd (run_eq_occasions m moves c w)
  have hn : n = (occasions m moves c w).2.1 := congrArg Prod.fst hrun
  obtain ⟨held, k, hmemory, hlength, htenure⟩ :=
    (Commits.weighted (some ws)).stands_occasions m hpick_lt moves w
  obtain ⟨hheld, hnumbers⟩ := htenure.forall_number hpick
  rw [hn]
  refine ⟨_, hmemory, hheld, ?_, hnumbers⟩
  -- nothing is chosen yet, so the next tick begins with choice number `k`
  rintro rfl f v
  have hi : turn (pickChild (some ws)) cs.length stream f k
      < (occasions m moves c w).2.1.2.length := (hpick_lt f k).trans_eq hlength.symm
  rw [hmemory, (Commits.weighted (some ws)).record_at m f hi (by rw [hlength]; rfl)]
  exact ⟨_, rfl, hpick f k⟩

/-- With one positive weight only that child is ever ticked. -/
theorem weighted_hasWeight_single :
    let ws : List Float32 := [0, 3, 0]
    let cs : List (Node Unit) := [.fixed .failure, .fixed .success, .fixed .running]
    let w : World Unit := ⟨.empty, { game := () }⟩
    let f (tick : UInt64) : Frame := { tick }
    let moves : List (Move Unit) := [.tick (f 0), .tick (f 1), .reset, .tick (f 2)]
    let history := (occasions Node.asMachine moves (.weighted (some ws) {}, cs) w).1
    (Node.composite none (.weighted (some ws) {}) cs).finish = .ok () ∧ 0 < weightTotal ws ∧
    history.filterMap Occasion.status? = [.success, .success, .success] ∧
    ∀ x ∈ history, ∀ e ∈ x.notes, e.number = 1 := by
  intro ws cs w f moves history
  have hfinish : (Node.composite none (.weighted (some ws) {}) cs).finish = .ok () := rfl
  -- the first and the last weight are nothing, so the draws can only hit the one between
  have htotal : 0 < weightTotal ws := by decide +kernel
  obtain ⟨d, -, -, -, hhistory⟩ := weighted_hasWeight hfinish htotal moves w
  refine ⟨hfinish, htotal, by decide +kernel, ?_⟩
  intro x hx e he
  obtain ⟨hi, hpos⟩ := hhistory x hx e he
  generalize e.number = i at hi hpos ⊢
  match i, hi with
  | 0, _ => exact absurd hpos weighable_single.zero_flat
  | 1, _ => rfl
  | 2, _ => exact absurd hpos weighable_single.zero_flat

/-- **Without good weights a weighted selector is a random selector.** It has no weights, or not one
for each child, or their sum is not positive. Then whatever is done to it, the children that are
ticked and what they and it report, its draws and the child that it is committed to, and what
becomes of the children and of the world, are those of a random selector with the same children and
the same stream. -/
theorem weighted_eq_random (m : Machine N G) {weights : Option (List Float32)} {cs : List N}
    (h : ∀ ws ∈ weights, ws.length ≠ cs.length ∨ ¬ 0 < weightTotal ws) (stream : UInt64)
    (moves : List (Move G)) (w : World G) :
    let history (c : Composite) := (occasions m moves (c, cs) w).1
    let run (c : Composite) := m.composite.run moves (c, cs) w
    let c : Composite := .weighted weights { stream }
    let c' : Composite := .random { stream }
    history c = history c' ∧ (run c).1 = (run c').1 ∧
    (∃ d, (run c).2.1.1 = .weighted weights d ∧ (run c').2.1.1 = .random d) ∧
    (run c).2.1.2 = (run c').2.1.2 ∧ (run c).2.2 = (run c').2.2 := by
  intro history run c c'
  have hstep : ∀ a b s t, a = b → SameDraws weights cs.length s t →
      (occasion m b t).1 = (occasion m a s).1 ∧
        SameDraws weights cs.length (occasion m a s).2 (occasion m b t).2 := by
    rintro a _ s t rfl hst
    exact sameDraws_occasion m h a hst
  have hstart : SameDraws weights cs.length ((c, cs), w) ((c', cs), w) :=
    ⟨{ stream }, rfl, rfl, rfl, rfl, rfl⟩
  -- the two runs go along side by side, with the same draws at every moment
  have hsame : List.Forall₂ (· = ·) moves moves := List.forall₂_same.mpr fun _ _ => rfl
  obtain ⟨hhistory, d, hweighted, hrandom, hchildren, -, hworld⟩ :=
    runSteps_together hstep hsame hstart
  have hrun (c : Composite) :
      run c = ((history c).filterMap Occasion.status?, (occasions m moves (c, cs) w).2) :=
    run_eq_occasions m moves (c, cs) w
  rw [hrun, hrun]
  exact ⟨hhistory.symm, congrArg (List.filterMap Occasion.status?) hhistory.symm,
    ⟨d, hweighted, hrandom⟩, hchildren, hworld⟩

/-- With zeros for weights the two selectors choose the same children. -/
theorem weighted_eq_random_zeros :
    let m : Machine (Node Unit) Unit := Node.asMachine
    let cs : List (Node Unit) := [.fixed .success, .fixed .failure]
    let w : World Unit := ⟨.empty, { game := () }⟩
    let f (tick : UInt64) : Frame := { tick }
    let moves : List (Move Unit) := [.tick (f 0), .tick (f 1), .reset, .tick (f 2)]
    let weights : Option (List Float32) := some [0, 0]
    let history (c : Composite) := (occasions m moves (c, cs) w).1
    (∀ ws ∈ weights, ws.length ≠ cs.length ∨ ¬ 0 < weightTotal ws) ∧
    history (.weighted weights { stream := 3 }) = history (.random { stream := 3 }) ∧
    (history (.random { stream := 3 })).map (fun x => x.notes.map Note.number) =
      [[1], [0], [], [1]] := by
  intro m cs w f moves weights history
  have hzero : ∀ ws ∈ weights, ws.length ≠ cs.length ∨ ¬ 0 < weightTotal ws := by
    -- a weight for each child, but they add up to nothing
    intro ws hws
    obtain rfl := Option.mem_some.mp hws
    exact .inr (by decide +kernel)
  obtain ⟨hhistory, -⟩ := weighted_eq_random m hzero 3 moves w
  exact ⟨hzero, hhistory, by decide +kernel⟩

end Composite

end Instinct
