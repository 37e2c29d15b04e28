import Instinct.Proofs.Succession
import Instinct.Proofs.Uniform
import Instinct.Proofs.Weights

/-! # The run of a composite that commits to a child

A random or weighted selector chooses a child and keeps to it until the child is done or the
selector is reset. Over a whole run the ticks fall into stints of one child each, and each stint
begins with a draw of its own.

* **`Occasion`**, **`Composite.occasions`** — a run, tick by tick and reset by reset.
* **`idle`**, **`freshTicks`** — whether nothing is under way; the fresh choices of a run.
* **`Composite.Commits`** — the composites that commit to a child, and how each of them chooses.
* **`Composite.Commits.tick_at`** — one tick, as a tick of the child that is chosen.
* **`Tenure`** — a run as it should be: which child is held after it and how many were chosen.
* **`Composite.Commits.stands_occasions`** — every run is one.
* **`Composite.commitment`** — what this comes to. -/

namespace Instinct

variable {N G : Type}

/-! ## (1) Runs, occasion by occasion -/

/-- **One thing done to a composite** within a run. -/
inductive Occasion (N G : Type) where
  /-- It was ticked in a frame. -/
  | tick (frame : Frame) (lap : Lap N G)
  /-- It was reset. -/
  | reset

namespace Occasion

/-- What the composite reported; nothing if it was reset. -/
def status? : Occasion N G → Option Status
  | tick _ lap => some lap.status
  | reset => none

/-- The ticks of the children. -/
def notes : Occasion N G → List (Note N G)
  | tick _ lap => lap.notes
  | reset => []

/-- Whether this ends what is under way. -/
def ends : Occasion N G → Bool
  | tick _ lap => lap.status.isDone
  | reset => true

/-- What was written down in a tick is what was written in its lap. -/
@[simp] theorem notes_tick (f : Frame) (l : Lap N G) : (tick f l).notes = l.notes := rfl

/-- In a reset nothing is written down. -/
@[simp] theorem notes_reset : (reset : Occasion N G).notes = [] := rfl

/-- A tick ends a stint if its lap was done. -/
@[simp] theorem ends_tick (f : Frame) (l : Lap N G) : (tick f l).ends = l.status.isDone := rfl

/-- A reset ends a stint. -/
@[simp] theorem ends_reset : (reset : Occasion N G).ends = true := rfl

end Occasion

/-- **Nothing is under way**: nothing was done yet, or the last that was done was an end. -/
def idle (past : List (Occasion N G)) : Bool := past.getLast?.all Occasion.ends

/-- The fresh choices from an occasion on, before which nothing is under way or something is. -/
def freshTicksFrom : (idle : Bool) → List (Occasion N G) → List (Frame × Lap N G)
  | _, [] => []
  | true, .tick frame lap :: later => (frame, lap) :: freshTicksFrom lap.status.isDone later
  | false, .tick _ lap :: later => freshTicksFrom lap.status.isDone later
  | _, .reset :: later => freshTicksFrom true later

/-- **The fresh choices of a run**: the ticks that came when nothing was under way. -/
def freshTicks (past : List (Occasion N G)) : List (Frame × Lap N G) := freshTicksFrom true past

/-- Before anything happened no child is committed to. -/
@[simp] theorem idle_nil : idle ([] : List (Occasion N G)) = true := rfl

/-- Whether a child is committed to is told by the last occasion. -/
@[simp] theorem idle_concat (past : List (Occasion N G)) (x : Occasion N G) :
    idle (past ++ [x]) = x.ends := by
  simp [idle]

/-- An occasion that is no end leaves something under way. -/
theorem idle_append {past stint : List (Occasion N G)} (hsome : stint ≠ [])
    (hends : ∀ x ∈ stint, ¬ x.ends) : idle (past ++ stint) = false := by
  induction stint using List.reverseRecOn with
  | nil => exact absurd rfl hsome
  | append_singleton stint x _ =>
    rw [← List.append_assoc, idle_concat]
    exact Bool.eq_false_of_not_eq_true (hends x (List.mem_append_right _ List.mem_cons_self))

/-- The last item of a list that ends with another list is the last of that one, unless it is
empty. -/
theorem eq_nil_or_concat_of_append {α : Type} {past before stint : List α} {x : α}
    (h : past ++ [x] = before ++ stint) :
    stint = [] ∨ ∃ stint', stint = stint' ++ [x] ∧ past = before ++ stint' := by
  induction stint using List.reverseRecOn with
  | nil => exact .inl rfl
  | append_singleton stint y _ =>
    rw [← List.append_assoc] at h
    obtain ⟨hpast, hx⟩ := List.append_inj' h rfl
    exact .inr ⟨stint, by rw [List.singleton_inj.mp hx], hpast⟩

/-- The ticks that choose afresh, with one occasion more at the end. -/
theorem freshTicksFrom_concat (free : Bool) (past : List (Occasion N G)) (x : Occasion N G) :
    freshTicksFrom free (past ++ [x]) =
      freshTicksFrom free past ++ freshTicksFrom (past.getLast?.elim free Occasion.ends) [x] := by
  -- induction from the front, with the state that the stint begins in left open
  induction past generalizing free with
  | nil => rfl
  | cons y past ih =>
    have hlast : (y :: past).getLast?.elim free Occasion.ends =
        past.getLast?.elim y.ends Occasion.ends := by
      cases past <;> simp [List.getLast?_cons]
    rw [List.cons_append, hlast]
    cases y with
    | reset => cases free <;> exact ih true
    | tick frame lap =>
      cases free with
      | false => exact ih lap.status.isDone
      | true => exact congrArg ((frame, lap) :: ·) (ih lap.status.isDone)

/-- A tick is a fresh choice if nothing is under way. -/
theorem freshTicks_concat (past : List (Occasion N G)) (x : Occasion N G) :
    freshTicks (past ++ [x]) = freshTicks past ++ freshTicksFrom (idle past) [x] := by
  rw [freshTicks, freshTicksFrom_concat, idle]
  cases past.getLast? <;> rfl

namespace Composite

/-- One thing done to a composite, with the ticks of its children. -/
def occasion (m : Machine N G) : Move G → (Composite × List N) × World G →
    Option (Occasion N G) × (Composite × List N) × World G
  | .tick frame, (c, w) =>
    let o := m.composite.tick frame c w
    (some (.tick frame ⟨c.1.record m frame c.2 w, o.status⟩), o.node, o.world)
  | .reset, (c, w) => (some .reset, m.composite.resetIn c w)
  | .meanwhile change, (c, w) => (none, c, change w)

/-- A tick of a composite is an occasion that tells what the lap was. -/
theorem occasion_tick (m : Machine N G) (f : Frame) (c : Composite) (cs : List N) (w : World G) :
    occasion m (.tick f) ((c, cs), w) =
      (some (.tick f ⟨c.record m f cs w, (c.tick m f cs w).status⟩), (c.tick m f cs w).node,
        (c.tick m f cs w).world) := rfl

/-- **The run of a composite**, occasion by occasion. -/
def occasions (m : Machine N G) (moves : List (Move G)) (c : Composite × List N) (w : World G) :
    List (Occasion N G) × (Composite × List N) × World G := runSteps (occasion m) moves (c, w)

/-- It is the run of the composite. -/
theorem run_eq_occasions (m : Machine N G) (moves : List (Move G)) (c : Composite × List N)
    (w : World G) :
    m.composite.run moves c w =
      ((occasions m moves c w).1.filterMap Occasion.status?, (occasions m moves c w).2) := by
  refine runSteps_filterMap (fun a s => ?_) moves (c, w)
  cases a <;> rfl

end Composite

/-! ## (2) One tick -/

/-- The machine at an index, where there is one. -/
theorem Machine.tickAt_of_lt (m : Machine N G) (f : Frame) {i : Nat} {ns : List N}
    (hi : i < ns.length) (w : World G) :
    m.tickAt f i ns w = (m.tick f ns[i] w).map (ns.set i) := by
  -- the place and the list are taken apart together
  induction ns generalizing i with
  | nil => cases hi
  | cons n ns ih =>
    cases i with
    | zero => rfl
    | succ i =>
      rw [Machine.tickAt, ih (Nat.lt_of_succ_lt_succ hi)]
      rfl

namespace Composite

/-- **The composites that commit to a child**, by the composite with its draws and its choice among
so many children. -/
inductive Commits : (Draws → Composite) → (Nat → Generator → Nat) → Prop
  | random : Commits .random pickUniform
  | weighted (ws : Option (List Float32)) : Commits (.weighted ws) (pickChild ws)

namespace Commits

variable {make : Draws → Composite} {pick : Nat → Generator → Nat}

/-- A composite that commits ticks the child it has committed to. -/
theorem tick (h : Commits make pick) (m : Machine N G) (f : Frame) (d : Draws) (cs : List N)
    (w : World G) :
    (make d).tick m f cs w = tickChosen m make (pick cs.length) f d cs w := by
  cases h <;> rfl

/-- A reset lets go of the child committed to. -/
theorem reset (h : Commits make pick) (d : Draws) : (make d).reset = make d.release := by
  cases h <;> rfl

/-- **A choice among so many children picks one of them.** -/
theorem pick_lt (h : Commits make pick) (d : Draws) (f : Frame) {n : Nat} (hsome : 1 ≤ n)
    (hfew : n ≤ UInt32.size) : pick n (d.generator f) < n := by
  have huniform : pickUniform n (d.generator f) < n := d.pick_lt f hsome hfew
  -- a weighted choice falls back on the uniform one unless there is a weight for each child
  cases h with
  | random => exact huniform
  | weighted ws =>
    cases ws with
    | none => exact huniform
    | some ws =>
      rw [pickChild]
      by_cases hws : ws.length = n ∧ 0 < weightTotal ws
      · have hne : ws ≠ [] := List.length_pos_iff.mp (hws.1.symm ▸ hsome)
        rw [if_pos hws]
        exact (pickWeighted_lt hne _).trans_eq hws.1
      · rw [if_neg hws]
        exact huniform

end Commits

end Composite

/-- The draws once a child is held: a fresh choice is made only if none was. -/
def Draws.hold (d : Draws) (i : Nat) : Draws :=
  match d.chosen with
  | some _ => d
  | none => d.commit i

namespace Composite.Commits

variable {make : Draws → Composite} {pick : Nat → Generator → Nat}

section

variable (h : Commits make pick) (m : Machine N G) (f : Frame) {d : Draws} {cs : List N} {i : Nat}
  (hi : i < cs.length) (hheld : d.chosen.getD (pick cs.length (d.generator f)) = i) (w : World G)

include h hheld

/-- **A tick is one of the child that is held**, or else of the one that a fresh choice picks. -/
theorem tick_at :
    let o := m.tick f cs[i] w
    let held := d.hold i
    (make d).tick m f cs w =
      ⟨o.status, (make (if o.status.isDone then held.release else held), cs.set i o.node),
        o.world⟩ := by
  have hsome : ¬ cs.isEmpty := by
    rw [List.isEmpty_iff]
    exact List.ne_nil_of_length_pos (Nat.zero_lt_of_lt hi)
  rw [h.tick, tickChosen, if_neg hsome, Draws.hold]
  cases hchosen : d.chosen with
  -- committed already: the place is the one that is held
  | some j =>
    obtain rfl : j = i := by rwa [hchosen] at hheld
    dsimp only
    rw [m.tickAt_of_lt f hi]
    rfl
  -- not committed: the place is the one that is drawn
  | none =>
    have hpick : pick cs.length (d.generator f) = i := by rwa [hchosen] at hheld
    dsimp only
    rw [hpick, m.tickAt_of_lt f hi]
    rfl

/-- So it is written down. -/
theorem record_at : (make d).record m f cs w = [⟨⟨f, cs[i], w⟩, i⟩] := by
  have hlength : cs.zipIdx.length = cs.length := List.length_zipIdx
  have hi' : i < cs.zipIdx.length := by rwa [hlength]
  have hheld' : d.chosen.getD (pick cs.zipIdx.length (d.generator f)) = i := by rwa [hlength]
  have hchild : cs.zipIdx[i] = (cs[i], i) := by rw [List.getElem_zipIdx, Nat.zero_add]
  rw [record, h.tick_at m.noting f hi' hheld', hchild]
  rfl

end

end Composite.Commits

/-! ## (3) Tenures -/

/-- **The tick of a composite was handed on to one child**, and what the child reported was
returned. -/
structure Lap.Relays (m : Machine N G) (f : Frame) (l : Lap N G) (e : Note N G) : Prop where
  notes : l.notes = [e]
  frame : e.frame = f
  status : l.status = e.status m

/-- The child that is held after a tick, by the child that was ticked. -/
def Lap.held (l : Lap N G) (i : Nat) : Option Nat := if l.status.isDone then none else some i

/-- A lap lets go of its child exactly if it is done. -/
theorem Lap.held_eq_none_iff (l : Lap N G) (i : Nat) : l.held i = none ↔ l.status.isDone := by
  simp [Lap.held]

/-- The child that a lap holds on to is the one it ticked. -/
theorem Lap.eq_of_held {l : Lap N G} {i j : Nat} (h : l.held i = some j) : j = i := by
  simp only [Lap.held, Option.ite_none_left_eq_some, Option.some.injEq] at h
  exact h.2.symm

/-- **A run as it should be**: after some occasions a child is held, or none, and so many were
chosen. The choice number `k` in a frame is `pick frame k`. -/
inductive Tenure (m : Machine N G) (pick : Frame → Nat → Nat) :
    List (Occasion N G) → Option Nat → Nat → Prop
  /-- Nothing was done yet. -/
  | start : Tenure m pick [] none 0
  /-- No child is held, so one is chosen. -/
  | choose {past k f l} (e : Note N G) (before : Tenure m pick past none k)
      (relayed : l.Relays m f e) (fresh : e.number = pick f k) :
      Tenure m pick (past ++ [.tick f l]) (l.held e.number) (k + 1)
  /-- The child that is held is ticked again. -/
  | keep {past k f l} (e : Note N G) (before : Tenure m pick past (some e.number) k)
      (relayed : l.Relays m f e) : Tenure m pick (past ++ [.tick f l]) (l.held e.number) k
  /-- A reset lets go of the child. -/
  | reset {past held k} (before : Tenure m pick past held k) :
      Tenure m pick (past ++ [.reset]) none k

namespace Tenure

variable {m : Machine N G} {pick : Frame → Nat → Nat} {past : List (Occasion N G)}
  {held : Option Nat} {k : Nat}

/-- No child is held exactly when nothing is under way. -/
theorem eq_none_iff (h : Tenure m pick past held k) : held = none ↔ idle past := by
  cases h with
  | start => simp
  | choose e _ _ _ => rw [Lap.held_eq_none_iff, idle_concat, Occasion.ends_tick]
  | keep e _ _ => rw [Lap.held_eq_none_iff, idle_concat, Occasion.ends_tick]
  | reset _ => simp

/-- A run up to some occasion is one too. -/
theorem of_append {later : List (Occasion N G)} (h : Tenure m pick (past ++ later) held k) :
    ∃ held k, Tenure m pick past held k := by
  -- occasions are taken off the end one by one
  induction later using List.reverseRecOn generalizing held k with
  | nil => exact ⟨held, k, by rwa [List.append_nil] at h⟩
  | append_singleton later x ih =>
    rw [← List.append_assoc] at h
    generalize hall : past ++ later ++ [x] = all at h
    cases h with
    | start => exact absurd hall (by simp)
    | choose e before _ _ => exact ih ((List.append_inj' hall rfl).1 ▸ before)
    | keep e before _ => exact ih ((List.append_inj' hall rfl).1 ▸ before)
    | reset before => exact ih ((List.append_inj' hall rfl).1 ▸ before)

/-- Each tick was handed on to one child. -/
theorem exists_relays (h : Tenure m pick past held k) {f : Frame} {l : Lap N G}
    (hmem : .tick f l ∈ past) : ∃ e, l.Relays m f e := by
  have hlast {past : List (Occasion N G)} {f' : Frame} {l' : Lap N G} {e : Note N G}
      (relayed : l'.Relays m f' e) (hmem : .tick f l ∈ past ++ [.tick f' l'])
      (ih : .tick f l ∈ past → ∃ e, l.Relays m f e) : ∃ e, l.Relays m f e := by
    rcases List.mem_append.mp hmem with hbefore | hnow
    · exact ih hbefore
    · cases List.mem_singleton.mp hnow
      exact ⟨e, relayed⟩
  -- each occasion either was the one asked for, or came after it
  induction h with
  | start => cases hmem
  | choose e _ relayed _ ih => exact hlast relayed hmem ih
  | keep e _ relayed ih => exact hlast relayed hmem ih
  | reset _ ih => exact ih (by simpa using hmem)

/-- What holds of the children that are ticked, once another one is. -/
theorem forall_notes_tick {f : Frame} {l : Lap N G} {e : Note N G} (relayed : l.Relays m f e)
    {P : Nat → Prop} :
    (∀ x ∈ past ++ [.tick f l], ∀ y ∈ x.notes, P y.number) ↔
      (∀ x ∈ past, ∀ y ∈ x.notes, P y.number) ∧ P e.number := by
  rw [List.forall_mem_append, List.forall_mem_singleton, Occasion.notes_tick, relayed.notes,
    List.forall_mem_singleton]

/-- A reset ticks none. -/
theorem forall_notes_reset {P : Nat → Prop} :
    (∀ x ∈ past ++ [.reset], ∀ y ∈ x.notes, P y.number) ↔
      ∀ x ∈ past, ∀ y ∈ x.notes, P y.number := by
  rw [List.forall_mem_append, List.forall_mem_singleton]
  simp

/-- What is true of all choices is true of all children that are ticked or held. -/
theorem forall_number {P : Nat → Prop} (hpick : ∀ f k, P (pick f k))
    (h : Tenure m pick past held k) :
    (∀ i, held = some i → P i) ∧ ∀ x ∈ past, ∀ e ∈ x.notes, P e.number := by
  -- what was drawn satisfies it, and what is held was drawn before
  induction h with
  | start => simp
  | choose e _ relayed fresh ih =>
    have hnow : P e.number := by
      rw [fresh]
      apply hpick
    constructor
    · intro i hi
      rwa [Lap.eq_of_held hi]
    · exact (forall_notes_tick relayed).mpr ⟨ih.2, hnow⟩
  | keep e _ relayed ih =>
    have hnow : P e.number := ih.1 _ rfl
    constructor
    · intro i hi
      rwa [Lap.eq_of_held hi]
    · exact (forall_notes_tick relayed).mpr ⟨ih.2, hnow⟩
  | reset _ ih =>
    constructor
    · intro i hi
      cases hi
    · exact forall_notes_reset.mpr ih.2

/-- **From a fresh choice on one child is ticked**, until something comes to an end. -/
theorem single (h : Tenure m pick past held k) {before stint : List (Occasion N G)}
    (hpast : past = before ++ stint) (hidle : idle before)
    (hstint : ∀ x ∈ stint.dropLast, ¬ x.ends) :
    ∃ i, (∀ x ∈ stint, ∀ e ∈ x.notes, e.number = i) ∧
      (stint ≠ [] → ∀ j, held = some j → j = i) := by
  have hearlier {stint : List (Occasion N G)} {x : Occasion N G}
      (hstint : ∀ y ∈ (stint ++ [x]).dropLast, ¬ y.ends) : ∀ y ∈ stint, ¬ y.ends := by
    rwa [List.dropLast_concat] at hstint
  induction h generalizing stint with
  | start =>
    obtain ⟨-, rfl⟩ := List.append_eq_nil_iff.mp hpast.symm
    exact ⟨0, by simp⟩
  | @choose past k f l e hbefore relayed fresh ih =>
    rcases eq_nil_or_concat_of_append hpast with rfl | ⟨stint, rfl, rfl⟩
    · exact ⟨0, by simp⟩
    -- nothing was under way, so the stint begins here
    have hempty : stint = [] := by
      by_contra hsome
      have hfree := hbefore.eq_none_iff.mp rfl
      rw [idle_append hsome (hearlier hstint)] at hfree
      cases hfree
    subst hempty
    refine ⟨e.number, ?_, ?_⟩
    · simp [relayed.notes]
    · intro _ j hj
      exact Lap.eq_of_held hj
  | @keep past k f l e hbefore relayed ih =>
    rcases eq_nil_or_concat_of_append hpast with rfl | ⟨stint, rfl, rfl⟩
    · exact ⟨0, by simp⟩
    -- a child was held, so the stint began before
    have hsome : stint ≠ [] := by
      rintro rfl
      rw [List.append_nil] at hbefore
      cases hbefore.eq_none_iff.mpr hidle
    obtain ⟨i, hnumbers, hheld⟩ :=
      ih rfl fun x hx => hearlier hstint x (List.mem_of_mem_dropLast hx)
    have hsame : e.number = i := hheld hsome _ rfl
    refine ⟨i, (forall_notes_tick relayed (P := (· = i))).mpr ⟨hnumbers, hsame⟩, ?_⟩
    intro _ j hj
    rw [Lap.eq_of_held hj, hsame]
  | @reset past held k hbefore ih =>
    rcases eq_nil_or_concat_of_append hpast with rfl | ⟨stint, rfl, rfl⟩
    · exact ⟨0, by simp⟩
    obtain ⟨i, hnumbers, -⟩ :=
      ih rfl fun x hx => hearlier hstint x (List.mem_of_mem_dropLast hx)
    refine ⟨i, (forall_notes_reset (P := (· = i))).mpr hnumbers, ?_⟩
    intro _ j hj
    cases hj

/-- **The choices are as many as they should be**, and they were made in turn. -/
theorem freshTicks_eq (h : Tenure m pick past held k) :
    (freshTicks past).length = k ∧ ∀ j f l, (freshTicks past)[j]? = some (f, l) →
      ∀ e ∈ l.notes, e.number = pick f j := by
  -- the count of choices grows with each fresh tick and at no other time
  induction h with
  | start => simp [freshTicks, freshTicksFrom]
  | @choose past k f l e before relayed fresh ih =>
    obtain ⟨hlength, hnumbers⟩ := ih
    -- no child was committed to, so this tick is one that chooses
    have hconcat : freshTicks (past ++ [.tick f l]) = freshTicks past ++ [(f, l)] := by
      rw [freshTicks_concat, before.eq_none_iff.mp rfl]
      rfl
    rw [hconcat]
    constructor
    · rw [List.length_append, List.length_singleton, hlength]
    · intro j f' l' hj
      by_cases hlt : j < (freshTicks past).length
      · rw [List.getElem?_append_left hlt] at hj
        exact hnumbers j f' l' hj
      · -- it is the last one
        rw [List.getElem?_append_right (Nat.le_of_not_lt hlt), List.getElem?_singleton] at hj
        split at hj
        · cases hj
          obtain rfl : j = k := by omega
          rw [relayed.notes]
          simpa using fresh
        · cases hj
  | @keep past k f l e before relayed ih =>
    -- a child was committed to, so this tick is none that chooses
    have hidle : idle past = false := by
      apply Bool.eq_false_of_not_eq_true
      intro hidle
      cases before.eq_none_iff.mpr hidle
    have hconcat : freshTicks (past ++ [.tick f l]) = freshTicks past := by
      rw [freshTicks_concat, hidle]
      exact List.append_nil _
    rwa [hconcat]
  | @reset past held k before ih =>
    have hconcat : freshTicks (past ++ [.reset]) = freshTicks past := by
      rw [freshTicks_concat]
      cases idle past <;> exact List.append_nil _
    rwa [hconcat]

end Tenure

/-! ## (4) Every run is a tenure -/

/-- What is left of the draws once the child that is held has been ticked. -/
theorem Draws.held_eq (stream count : UInt64) (i : Nat) (l : Lap N G) :
    (if l.status.isDone then Draws.release ⟨stream, count, some i⟩ else ⟨stream, count, some i⟩) =
      ⟨stream, count, l.held i⟩ := by
  rw [Lap.held]
  split <;> rfl

namespace Composite

/-- The choice number `k` among `n` children. -/
def turn (pick : Nat → Generator → Nat) (n : Nat) (stream : UInt64) (f : Frame) (k : Nat) : Nat :=
  pick n (f.drawGenerator stream (.ofNat k))

/-- **How a composite that commits to a child stands** after some occasions. -/
def Stands (make : Draws → Composite) (pick : Nat → Generator → Nat) (stream : UInt64) (n : Nat)
    (m : Machine N G) (past : List (Occasion N G)) (c : Composite × List N) : Prop :=
  ∃ held k, c.1 = make ⟨stream, .ofNat k, held⟩ ∧ c.2.length = n ∧
    Tenure m (turn pick n stream) past held k

namespace Commits

variable {make : Draws → Composite} {pick : Nat → Generator → Nat}

/-- The child whose turn it is exists. -/
theorem turn_lt (h : Commits make pick) {n : Nat} (hsome : 1 ≤ n) (hfew : n ≤ UInt32.size)
    (stream : UInt64) (f : Frame) (k : Nat) : turn pick n stream f k < n :=
  h.pick_lt ⟨stream, .ofNat k, none⟩ f hsome hfew

/-- **One tick.** -/
theorem stands_tick (h : Commits make pick) {m : Machine N G} {stream : UInt64} {n : Nat}
    {past : List (Occasion N G)} {c : Composite × List N}
    (hpick : ∀ f k, turn pick n stream f k < n) (hc : Stands make pick stream n m past c)
    (f : Frame) (w : World G) :
    let o := m.composite.tick f c w
    Stands make pick stream n m (past ++ [.tick f ⟨c.1.record m f c.2 w, o.status⟩]) o.node := by
  obtain ⟨held, k, hmemory, rfl, hpast⟩ := hc
  obtain ⟨c, cs⟩ := c
  obtain rfl : c = make ⟨stream, .ofNat k, held⟩ := hmemory
  dsimp only at hpick hpast
  show Stands _ _ _ _ _
    (past ++ [.tick f ⟨_, ((make ⟨stream, .ofNat k, held⟩).tick m f cs w).status⟩])
    ((make ⟨stream, .ofNat k, held⟩).tick m f cs w).node
  cases held with
  | none =>
    -- no child is held, so the tick begins with a choice
    let i := turn pick cs.length stream f k
    have hi : i < cs.length := hpick f k
    rw [h.tick_at m f hi rfl, h.record_at m f hi rfl]
    refine ⟨_, k + 1, ?_, List.length_set, .choose ⟨⟨f, cs[i], w⟩, i⟩ hpast ⟨rfl, rfl, rfl⟩ rfl⟩
    rw [← Draws.held_eq, UInt64.ofNat_add]
    rfl
  | some i =>
    have hi : i < cs.length := (hpast.forall_number (P := (· < cs.length)) hpick).1 i rfl
    rw [h.tick_at m f hi rfl, h.record_at m f hi rfl]
    refine ⟨_, k, ?_, List.length_set, .keep ⟨⟨f, cs[i], w⟩, i⟩ hpast ⟨rfl, rfl, rfl⟩⟩
    rw [← Draws.held_eq]
    rfl

/-- **Every run is a tenure**, as long as only children are picked. -/
theorem stands_occasions (h : Commits make pick) (m : Machine N G) {stream : UInt64} {cs : List N}
    (hpick : ∀ f k, turn pick cs.length stream f k < cs.length) (moves : List (Move G))
    (w : World G) :
    let r := occasions m moves (make { stream }, cs) w
    Stands make pick stream cs.length m r.1 r.2.1 := by
  -- the state is told by the history: which child is held, and how many choices there were
  let I (past : List (Occasion N G)) (s : (Composite × List N) × World G) : Prop :=
    Stands make pick stream cs.length m past s.1
  have hstep : ∀ a ∈ moves, ∀ past s, I past s →
      I (past ++ (occasion m a s).1.toList) (occasion m a s).2 := by
    rintro a - past ⟨c, w⟩ hI
    cases a with
    -- a tick holds on to the child or lets go of it; the choices were counted there
    | tick frame => exact h.stands_tick hpick hI frame w
    | reset =>
      obtain ⟨held, k, hmemory, hlength, hpast⟩ := hI
      refine ⟨none, k, ?_, (List.length_map _).trans hlength, hpast.reset⟩
      show c.1.reset = _
      rw [hmemory, h.reset]
      rfl
    | meanwhile change => simpa [occasion, I] using hI
  have hstart : I [] ((make { stream }, cs), w) := ⟨none, 0, rfl, rfl, .start⟩
  exact runSteps_history hstep hstart

end Commits

/-- **The run of a random or weighted selector**, whatever its weights are.

* After every run it is committed to one of its children or to none, to none exactly when its last
  tick was done, when it was reset since or when nothing was done yet.
* Each of its ticks is one tick of one of its children, and reports what that child does.
* From a fresh choice up to the end of the child that was chosen, or up to a reset, only this child
  is ticked.
* Choice number `k` of its whole life is made with draw number `k` in the frame of its tick. No two
  draws come from the same stream, as long as the draw numbers last. -/
theorem commitment {make : Draws → Composite} {pick : Nat → Generator → Nat}
    (h : Commits make pick) (m : Machine N G) (stream : UInt64) {cs : List N}
    (hsome : 1 ≤ cs.length) (hfew : cs.length ≤ UInt32.size) (moves : List (Move G)) (w : World G) :
    let r := m.composite.run moves (make { stream }, cs) w
    let history := (occasions m moves (make { stream }, cs) w).1
    r.1 = history.filterMap Occasion.status? ∧
    r.2.1.2.length = cs.length ∧
    (∃ d, r.2.1.1 = make d ∧ d.stream = stream ∧ d.count = .ofNat (freshTicks history).length ∧
      (∀ i, d.chosen = some i → i < cs.length) ∧ (d.chosen = none ↔ idle history)) ∧
    (∀ f l, .tick f l ∈ history → ∃ e, l.Relays m f e ∧ e.number < cs.length) ∧
    (∀ before stint later, history = before ++ stint ++ later → idle before →
      (∀ x ∈ stint.dropLast, ¬ x.ends) → ∃ i, ∀ x ∈ stint, ∀ e ∈ x.notes, e.number = i) ∧
    (∀ (k : Nat) (f : Frame) (l : Lap N G), (freshTicks history)[k]? = some (f, l) →
      ∀ e ∈ l.notes, e.number = pick cs.length (f.drawGenerator stream (.ofNat k))) ∧
    ((freshTicks history).length ≤ UInt64.size → ∀ j k, j < k → k < (freshTicks history).length →
      drawStream stream (.ofNat j) ≠ drawStream stream (.ofNat k)) := by
  intro r history
  have hrun : r =
      (history.filterMap Occasion.status?, (occasions m moves (make { stream }, cs) w).2) :=
    run_eq_occasions m moves (make { stream }, cs) w
  have hpick : ∀ f k, turn pick cs.length stream f k < cs.length := h.turn_lt hsome hfew stream
  obtain ⟨held, k, hmemory, hlength, htenure⟩ := h.stands_occasions m hpick moves w
  obtain ⟨hcount, hchoices⟩ := htenure.freshTicks_eq
  obtain ⟨hheld, hnumbers⟩ := htenure.forall_number (P := (· < cs.length)) hpick
  rw [hrun]
  refine ⟨rfl, hlength, ⟨_, hmemory, rfl, congrArg UInt64.ofNat hcount.symm, hheld,
    htenure.eq_none_iff⟩, ?relays, ?single, hchoices, ?streams⟩
  case relays =>
    intro f l hmem
    obtain ⟨e, he⟩ := htenure.exists_relays hmem
    have hnote : e ∈ l.notes := he.notes ▸ List.mem_cons_self
    exact ⟨e, he, hnumbers _ hmem e hnote⟩
  case single =>
    intro before stint later hhistory hidle hstint
    have hwhole : Tenure m (turn pick cs.length stream) (before ++ stint ++ later) held k := by
      rw [← hhistory]
      exact htenure
    -- what came after the stint does not matter
    obtain ⟨_, _, hstretch⟩ := hwhole.of_append
    obtain ⟨i, hi, -⟩ := hstretch.single rfl hidle hstint
    exact ⟨i, hi⟩
  case streams =>
    intro hall i j hij hj heq
    have hwords : UInt64.ofNat i = UInt64.ofNat j := drawStream_inj_draw.mp heq
    have hvalues := congrArg UInt64.toNat hwords
    rw [UInt64.toNat_ofNat_of_lt' (by omega), UInt64.toNat_ofNat_of_lt' (by omega)] at hvalues
    omega

/-- A weighted selector with one weight for three children: it keeps to the first child until it is
reset, and then to the second one. -/
theorem commitment_one_weight :
    let m : Machine (Node Unit) Unit := Node.asMachine
    let cs : List (Node Unit) := [.fixed .running, .fixed .running, .fixed .running]
    let w : World Unit := ⟨.empty, { game := () }⟩
    let f (tick : UInt64) : Frame := { tick }
    let moves : List (Move Unit) := [.tick (f 0), .tick (f 1), .reset, .tick (f 2), .tick (f 3)]
    let history := (occasions m moves (.weighted (some [1]) { stream := 7 }, cs) w).1
    1 ≤ cs.length ∧ cs.length ≤ UInt32.size ∧ ¬ idle history ∧
    history.map (fun x => x.notes.map Note.number) = [[0], [0], [], [1], [1]] ∧
    (∀ (k : Nat) (f : Frame) (l : Lap (Node Unit) Unit), (freshTicks history)[k]? = some (f, l) →
      ∀ e ∈ l.notes, e.number = pickChild (some [1]) 3 (f.drawGenerator 7 (.ofNat k))) ∧
    drawStream 7 0 ≠ drawStream 7 1 := by
  intro m cs w f moves history
  have hsome : 1 ≤ cs.length := by decide
  have hfew : cs.length ≤ UInt32.size := by decide
  -- two ticks choose afresh: the first one and the one after the reset
  have hlength : (freshTicks history).length = 2 := by decide +kernel
  obtain ⟨-, -, -, -, -, hchoices, hstreams⟩ :=
    commitment (.weighted (some [1])) m 7 hsome hfew moves w
  have hfirst : 1 < (freshTicks history).length := hlength ▸ by decide
  have hlast : (freshTicks history).length ≤ UInt64.size := hlength ▸ by decide
  exact ⟨hsome, hfew, by decide +kernel, by decide +kernel, hchoices,
    hstreams hlast 0 1 Nat.zero_lt_one hfirst⟩

end Composite

end Instinct
