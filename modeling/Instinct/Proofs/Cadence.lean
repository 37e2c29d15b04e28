import Instinct.Demo.Arena
import Instinct.Node.Kinds
import Instinct.Proofs.Turns
import Mathlib.Data.List.Induction

/-! # On which frames a mind thinks, and what it reports on the others

The number of a frame, the simulated time, the death of the agent, the pace and the last status are
all kept in different places and changed in different cases of an update. Over a whole run they add
up to a law about frame numbers.

* **`Look.Thinks`** — the agent is alive, and it is the turn of this frame.
* **`Pace.thinksOn_eq`** — the turn of a frame, by its number.
* **`Mind.Kept`** — what a mind remembers of the frames so far.
* **`Mind.kept_run`** — it remembers so after every run.
* **`Mind.update_by_cadence`** — what every frame presents, comes to and reports. -/

namespace Instinct

namespace Pace

/-- **It is the turn of a frame**, by its number. -/
def Due (pace : Pace) (n : Nat) : Prop := (n + pace.offset.toNat) % max pace.every.toNat 1 = 0

instance (pace : Pace) (n : Nat) : Decidable (pace.Due n) :=
  inferInstanceAs (Decidable ((n + pace.offset.toNat) % max pace.every.toNat 1 = 0))

/-- A period of zero frames counts as one frame. -/
theorem toNat_period (every : UInt32) : (period every).toNat = max every.toNat 1 := by
  unfold period
  by_cases h : every = 0
  · rw [if_pos h, h]
    rfl
  · have hpos : every.toNat ≠ 0 := fun h₀ => h (UInt32.toNat_inj.mp h₀)
    rw [if_neg h]
    omega

/-- **Which frames are to think on**, as long as the counter and the offset have room. -/
theorem thinksOn_eq (pace : Pace) {n : Nat} (hfits : n + pace.offset.toNat < 2 ^ 64) :
    pace.thinksOn (.ofNat n) = decide (pace.Due n) := by
  have hn : (UInt64.ofNat n).toNat = n := by rw [UInt64.toNat_ofNat', Nat.mod_eq_of_lt (by omega)]
  have hsum : (UInt64.ofNat n + pace.offset.toUInt64).toNat = n + pace.offset.toNat := by
    rw [UInt64.toNat_add, hn, UInt32.toNat_toUInt64, Nat.mod_eq_of_lt hfits]
  unfold thinksOn
  rw [Bool.eq_iff_iff, decide_eq_true_iff, beq_iff_eq, ← UInt64.toNat_inj, UInt64.toNat_mod, hsum,
    UInt32.toNat_toUInt64, toNat_period]
  rfl

end Pace

/-- **The frame of a look is one that the tree is ticked in.** -/
def Look.Thinks (pace : Pace) (l : Look) : Prop :=
  l.board.flag Keys.isDead = false ∧ pace.Due l.frame.tick.toNat

instance (pace : Pace) (l : Look) : Decidable (l.Thinks pace) :=
  inferInstanceAs (Decidable (_ ∧ _))

/-- How many of some frames the tree was ticked in. -/
def Look.thoughts (pace : Pace) (looks : List Look) : Nat := looks.countP (·.Thinks pace)

/-- One more frame is one more thought, if it is one to think on. -/
theorem Look.thoughts_concat (pace : Pace) (looks : List Look) (l : Look) :
    thoughts pace (looks ++ [l]) = thoughts pace looks + if l.Thinks pace then 1 else 0 := by
  simp [thoughts, List.countP_singleton]

/-- What was reported last, `Status.running` if nothing was. -/
def Look.previous (looks : List Look) : Status := (looks.getLast?.map Look.status).getD .running

/-- After one more frame it is that frame's report that came last. -/
theorem Look.previous_concat (looks : List Look) (l : Look) :
    previous (looks ++ [l]) = l.status := by
  simp [previous]

namespace Mind

variable {G : Type}

/-- **What a mind remembers** of the frames so far. -/
structure Kept (tree : Tree (Node G)) (pace : Pace) (spans : List Duration) (looks : List Look)
    (m : Mind G) : Prop where
  clock : m.clock = { tick := .ofNat spans.length, now := Turn.elapsed spans, seed := pace.seed }
  last : m.last.getD .running = Look.previous looks
  ticks : m.tree.ticks = tree.ticks + .ofNat (Look.thoughts pace looks)
  pace : m.pace = pace

variable {tree : Tree (Node G)} {pace : Pace} {spans : List Duration} {looks : List Look}
  {m : Mind G} {dt : Duration}

/-- A mind that has not seen a frame yet. -/
theorem kept_ofTree (tree : Tree (Node G)) (pace : Pace) : Kept tree pace [] [] (.ofTree tree pace)
    where
  clock := rfl
  last := rfl
  ticks := (UInt64.add_zero tree.ticks).symm
  pace := rfl

/-- Whatever changes the blackboard, the agent or the target leaves it as it is. -/
theorem Kept.congr {m' : Mind G} (h : Kept tree pace spans looks m) (hpace : m'.pace = m.pace)
    (hclock : m'.clock = m.clock) (hlast : m'.last = m.last)
    (hticks : m'.tree.ticks = m.tree.ticks) : Kept tree pace spans looks m' where
  clock := hclock.trans h.clock
  last := hlast ▸ h.last
  ticks := hticks.trans h.ticks
  pace := hpace.trans h.pace

/-- The frame that comes next. -/
theorem Kept.frame (h : Kept tree pace spans looks m) (dt : Duration) :
    m.frame dt = { tick := .ofNat spans.length, now := Turn.elapsed (spans ++ [dt]), dt,
                   seed := pace.seed } := by
  rw [Mind.frame, h.clock, Turn.elapsed_concat]
  rfl

variable [Collaborators G] {s : Stage G}

/-- **What the next frame comes to**, by its number. -/
theorem Kept.update (h : Kept tree pace spans looks m)
    (hfits : spans.length + pace.offset.toNat < 2 ^ 64) (dt : Duration) (s : Stage G) :
    m.update dt s =
      if (m.briefed dt s).flag Keys.isDead then
        (.failure, { m.refreshed dt s with last := some .failure }, s)
      else if pace.Due spans.length then
        let o := (m.refreshed dt s).tree.tick Node.asMachine (m.frame dt) s
        (o.1, { m.refreshed dt s with tree := o.2.1, last := some o.1 }, o.2.2)
      else (Look.previous looks, m.refreshed dt s, s) := by
  -- pace and counter are what they are remembered to be, so the turn is told by the number
  have hthinks : m.pace.thinksOn (m.frame dt).tick = decide (pace.Due spans.length) := by
    rw [h.pace, h.frame dt, pace.thinksOn_eq hfits]
  cases hdead : (m.briefed dt s).flag Keys.isDead with
  | true => exact update_of_dead hdead
  | false =>
    rw [if_neg Bool.false_ne_true]
    by_cases hdue : pace.Due spans.length
    · rw [if_pos hdue]
      exact update_of_thinks hdead (hthinks.trans (decide_eq_true hdue))
    · rw [if_neg hdue, ← h.last]
      exact update_of_rests hdead (hthinks.trans (decide_eq_false hdue))

/-- One more frame to remember. -/
theorem Kept.snoc {m' : Mind G} {status : Status} (h : Kept tree pace spans looks m)
    (hfits : spans.length + pace.offset.toNat < 2 ^ 64)
    (hclock : m'.clock = (m.clock.advance dt).2) (hlast : m'.last.getD .running = status)
    (hticks : m'.tree.ticks = m.tree.ticks +
      if (m.briefed dt s).flag Keys.isDead = false ∧ pace.Due spans.length then 1 else 0)
    (hpace : m'.pace = m.pace) :
    Kept tree pace (spans ++ [dt]) (looks ++ [⟨m.frame dt, m.briefed dt s, status⟩]) m' where
  clock := by
    rw [hclock, h.clock, Turn.elapsed_concat, List.length_append, List.length_singleton,
      UInt64.ofNat_add]
    rfl
  last := by rw [hlast, Look.previous_concat]
  ticks := by
    -- the counter of frames still has room, so the frame bears its own number
    have hn : (UInt64.ofNat spans.length).toNat = spans.length := by
      rw [UInt64.toNat_ofNat', Nat.mod_eq_of_lt (by omega)]
    have hthinks : (⟨m.frame dt, m.briefed dt s, status⟩ : Look).Thinks pace ↔
        (m.briefed dt s).flag Keys.isDead = false ∧ pace.Due spans.length := by
      rw [Look.Thinks, h.frame dt, hn]
    rw [hticks, h.ticks, Look.thoughts_concat, if_congr hthinks rfl rfl, UInt64.ofNat_add,
      UInt64.add_assoc]
    congr 2
    split <;> rfl
  pace := hpace.trans h.pace

/-- **A frame is remembered.** -/
theorem Kept.take_update (h : Kept tree pace spans looks m)
    (hfits : spans.length + pace.offset.toNat < 2 ^ 64) (dt : Duration) (s : Stage G) :
    Kept tree pace (spans ++ [dt])
      (looks ++ [⟨m.frame dt, m.briefed dt s, (m.update dt s).1⟩]) (m.update dt s).2.1 := by
  rw [h.update hfits dt s]
  -- the three exits of an update: a dead agent, a frame to think on, and any other
  by_cases hdead : (m.briefed dt s).flag Keys.isDead = true
  · rw [if_pos hdead]
    refine h.snoc hfits rfl rfl ?_ rfl
    rw [if_neg fun halive => Bool.false_ne_true (halive.1.symm.trans hdead)]
    exact (UInt64.add_zero _).symm
  · rw [if_neg hdead]
    by_cases hdue : pace.Due spans.length
    · rw [if_pos hdue]
      refine h.snoc hfits rfl rfl ?_ rfl
      rw [if_pos ⟨Bool.eq_false_iff.mpr hdead, hdue⟩]
      rfl
    · rw [if_neg hdue]
      refine h.snoc hfits rfl h.last ?_ rfl
      rw [if_neg fun hthinks => hdue hthinks.2]
      exact (UInt64.add_zero _).symm

/-- **A mind remembers every run**, as long as the counter and the offset have room. -/
theorem kept_run (tree : Tree (Node G)) (pace : Pace) (turns : List (Turn G)) (s : Stage G)
    (hfits : (Turn.spans turns).length + pace.offset.toNat ≤ 2 ^ 64) :
    Kept tree pace (Turn.spans turns) (Mind.run turns (.ofTree tree pace) s).1
      (Mind.run turns (.ofTree tree pace) s).2.1 := by
  -- the last turn is split off: what was remembered before it is carried over that turn
  induction turns using List.reverseRecOn with
  | nil => exact kept_ofTree tree pace
  | append_singleton turns turn ih =>
    have hspans : Turn.spans (turns ++ [turn]) = Turn.spans turns ++ turn.span?.toList := by
      rw [Turn.spans, List.filterMap_append]
      cases turn <;> rfl
    rw [hspans, List.length_append] at hfits
    have ih := ih (by omega)
    rw [run_concat, hspans]
    cases turn with
    | update dt =>
      have hone : (Turn.update dt : Turn G).span?.toList.length = 1 := rfl
      exact ih.take_update (by omega) dt _
    -- none of the other turns is a frame
    | aim target =>
      simp only [take, Turn.span?, Option.toList_none, List.append_nil]
      exact ih.congr rfl rfl rfl rfl
    | drive agent =>
      simp only [take, Turn.span?, Option.toList_none, List.append_nil]
      exact ih.congr rfl rfl rfl rfl
    | meanwhile change =>
      simp only [take, Turn.span?, Option.toList_none, List.append_nil]
      exact ih.congr rfl rfl rfl rfl

/-- **What every frame presents, comes to and reports**, whatever happened before: the frame has the
next number and the sum of all lengths so far; the tree is ticked if the agent is alive and the
number is due; and as often as that was so it was ticked in all, which its counter tells modulo
`2 ^ 64`. -/
theorem update_by_cadence (tree : Tree (Node G)) (pace : Pace) (turns : List (Turn G))
    (s₀ : Stage G) (dt : Duration)
    (hfits : (Turn.spans turns).length + pace.offset.toNat < 2 ^ 64) :
    let n := (Turn.spans turns).length
    let r := Mind.run turns (.ofTree tree pace) s₀
    let r' := Mind.run (turns ++ [.update dt]) (.ofTree tree pace) s₀
    let m := r.2.1
    let s := r.2.2
    m.frame dt = { tick := .ofNat n, now := Turn.elapsed (Turn.spans turns ++ [dt]), dt,
                   seed := pace.seed } ∧
      (∀ agent, m.agent = some agent →
        (m.briefed dt s).flag Keys.isDead = Collaborators.isDead agent s.game) ∧
      m.update dt s =
        (if (m.briefed dt s).flag Keys.isDead then
          (.failure, { m.refreshed dt s with last := some .failure }, s)
        else if pace.Due n then
          let o := (m.refreshed dt s).tree.tick Node.asMachine (m.frame dt) s
          (o.1, { m.refreshed dt s with tree := o.2.1, last := some o.1 }, o.2.2)
        else (Look.previous r.1, m.refreshed dt s, s)) ∧
      r'.2.1.tree.ticks = tree.ticks + .ofNat (Look.thoughts pace r'.1) ∧
      (tree.ticks.toNat + Look.thoughts pace r'.1 < 2 ^ 64 →
        r'.2.1.tree.ticks.toNat = tree.ticks.toNat + Look.thoughts pace r'.1) := by
  intro n r r' m s
  have hkept : Kept tree pace (Turn.spans turns) r.1 m :=
    kept_run tree pace turns s₀ (by omega)
  have hticks : r'.2.1.tree.ticks = tree.ticks + .ofNat (Look.thoughts pace r'.1) := by
    have hkept' : Kept tree pace (Turn.spans turns ++ [dt])
        (r.1 ++ [⟨m.frame dt, m.briefed dt s, (m.update dt s).1⟩]) (m.update dt s).2.1 :=
      hkept.take_update hfits dt s
    have hrun : r' = (r.1 ++ [⟨m.frame dt, m.briefed dt s, (m.update dt s).1⟩],
        (m.update dt s).2) := run_concat turns (.update dt) _ s₀
    rw [hrun]
    exact hkept'.ticks
  refine ⟨hkept.frame dt, fun agent hagent => ?_, hkept.update hfits dt s, hticks, fun hroom => ?_⟩
  · rw [Blackboard.flag, Blackboard.getD, isDead_briefed hagent, Option.getD_some]
  · -- the counter has room, so it tells the number itself
    rw [hticks, UInt64.toNat_add, UInt64.toNat_ofNat', Nat.add_mod_mod, Nat.mod_eq_of_lt hroom]

/-- A mind that thinks on every third frame. In the second frame its agent is dead, and in the third
one, which is not to think on, it reports so again. -/
theorem update_by_cadence_revived :
    let pace : Pace := { every := 3, seed := 7 }
    let setDead (dead : Bool) : Turn Arena := .meanwhile fun w =>
      { w with board := w.board.set Keys.isDead dead }
    let turns : List (Turn Arena) :=
      [.update (.ofMillis 16), setDead true, .update (.ofMillis 17), setDead false]
    let tree : Tree (Node Arena) := { root := .fixed .success }
    let s₀ : Stage Arena := { game := { fighter := default, target := .zero } }
    let r := Mind.run turns (.ofTree tree pace) s₀
    (Turn.spans turns).length + pace.offset.toNat < 2 ^ 64 ∧
      r.1.map Look.status = [.success, .failure] ∧
      r.2.1.frame (.ofMillis 16)
        = { tick := 2, now := .ofMillis 49, dt := .ofMillis 16, seed := 7 } ∧
      (r.2.1.update (.ofMillis 16) r.2.2).1 = .failure ∧
      (Mind.run (turns ++ [.update (.ofMillis 16)]) (.ofTree tree pace) s₀).2.1.tree.ticks = 1 := by
  intro pace setDead turns tree s₀ r
  have hfits : (Turn.spans turns).length + pace.offset.toNat < 2 ^ 64 := by decide
  obtain ⟨hframe, -, hupdate, hticks, -⟩ :=
    update_by_cadence tree pace turns s₀ (.ofMillis 16) hfits
  have hpresent : (r.2.1.briefed (.ofMillis 16) r.2.2).flag Keys.isDead = false := by decide
  have hstatus : r.1.map Look.status = [.success, .failure] := by decide
  -- the general law says which exit is taken, and the rest is computed
  refine ⟨hfits, hstatus, hframe.trans (by decide), ?_, hticks.trans (by decide)⟩
  rw [hupdate, hpresent]
  decide

end Mind

end Instinct
