import Instinct.Demo.Arena
import Instinct.Node.Kinds
import Instinct.Proofs.Turns
import Mathlib.Data.List.Induction

/-! # What a mind remembers of its reports

An update that finds the agent dead and one that ticks the tree write down what they report. One on
a frame to rest on reports what was written down, or that it is running if nothing was, and writes
nothing. So the two agree from the first frame on that is not one to rest on, and not before.

* **`Look.Decides`** — the agent is dead, or it is a frame to think on.
* **`Mind.Remembers pace looks m`** — what `m` has written down of the frames so far.
* **`Mind.Remembers.update`**, **`Mind.remembers_run`** — an update keeps that, and so does a run.
* **`Mind.last_reported`** — what is remembered after an update is what it reported, once a frame
  has decided; until then updates report that they are running and nothing is remembered. -/

namespace Instinct

/-- **A frame that decides** what is reported: the agent is dead, or it is one to think on. -/
def Look.Decides (pace : Pace) (l : Look) : Prop :=
  l.board.flag Keys.isDead = true ∨ pace.thinksOn l.frame.tick = true

namespace Mind

variable {G : Type} {pace : Pace} {looks : List Look} {m m' : Mind G} {status : Status}

/-- **What a mind has written down** of the frames so far: the last report, if any of them has
decided. As long as none has all of them were reported as running. The frames are numbered from
zero. -/
structure Remembers (pace : Pace) (looks : List Look) (m : Mind G) : Prop where
  paced : m.pace = pace
  silent : (∀ l ∈ looks, ¬ l.Decides pace) → m.last = none ∧ ∀ l ∈ looks, l.status = .running
  spoken : ∀ l ∈ looks, l.Decides pace → m.last = looks.getLast?.map Look.status
  first : ∀ l ∈ looks.head?, l.frame.tick = 0
  clock : looks = [] → m.clock.tick = 0

/-- A mind that has not seen a frame yet. -/
theorem remembers_ofTree (tree : Tree (Node G)) (pace : Pace) :
    Remembers pace [] (.ofTree tree pace) where
  paced := rfl
  silent _ := ⟨rfl, nofun⟩
  spoken := nofun
  first := nofun
  clock _ := rfl

/-- Whatever leaves pace, clock and report alone changes nothing about this. -/
theorem Remembers.congr (h : Remembers pace looks m) (hpace : m'.pace = m.pace)
    (hclock : m'.clock = m.clock) (hlast : m'.last = m.last) : Remembers pace looks m' where
  paced := hpace.trans h.paced
  silent hnone := ⟨hlast.trans (h.silent hnone).1, (h.silent hnone).2⟩
  spoken l hl hdecides := hlast.trans (h.spoken l hl hdecides)
  first := h.first
  clock hnil := hclock ▸ h.clock hnil

/-- The first frame of all has number zero. -/
theorem Remembers.head (h : Remembers pace looks m) {l : Look}
    (hframe : l.frame.tick = m.clock.tick) :
    ∀ o ∈ (looks ++ [l]).head?, o.frame.tick = 0 := by
  cases looks with
  | nil =>
    intro o ho
    obtain rfl := Option.some.inj ho
    exact hframe.trans (h.clock rfl)
  | cons o os => exact h.first

/-- A frame that decides has its report written down. -/
theorem Remembers.decided (h : Remembers pace looks m) {l : Look} (hpace : m'.pace = m.pace)
    (hframe : l.frame.tick = m.clock.tick) (hl : l.Decides pace) (hlast : m'.last = some l.status) :
    Remembers pace (looks ++ [l]) m' where
  paced := hpace.trans h.paced
  silent hnone := absurd hl (hnone l (List.mem_append_right _ List.mem_cons_self))
  spoken _ _ _ := by rw [hlast, List.getLast?_concat, Option.map_some]
  first := h.head hframe
  clock hnil := absurd hnil (List.concat_ne_nil l looks)

/-- A frame to rest on has what was written down reported again. -/
theorem Remembers.rested (h : Remembers pace looks m) {l : Look} (hpace : m'.pace = m.pace)
    (hframe : l.frame.tick = m.clock.tick) (hl : ¬ l.Decides pace) (hlast : m'.last = m.last)
    (hstatus : l.status = m.last.getD .running) : Remembers pace (looks ++ [l]) m' where
  paced := hpace.trans h.paced
  silent hnone := by
    obtain ⟨hnothing, hrunning⟩ := h.silent fun o ho => hnone o (List.mem_append_left _ ho)
    refine ⟨hlast.trans hnothing, fun o ho => ?_⟩
    rcases List.mem_append.mp ho with ho | ho
    · exact hrunning o ho
    · obtain rfl := List.mem_singleton.mp ho
      rw [hstatus, hnothing, Option.getD_none]
  -- only a frame that decides has set anything to report
  spoken o ho hdecides := by
    rcases List.mem_append.mp ho with ho | ho
    · -- a frame before it has decided, so there is something to report again
      have hbefore := h.spoken o ho hdecides
      rw [hlast, List.getLast?_concat, Option.map_some, hstatus]
      cases hm : m.last with
      | some status => rfl
      | none =>
        rw [hm, eq_comm, Option.map_eq_none_iff, List.getLast?_eq_none_iff] at hbefore
        subst hbefore
        cases ho
    · obtain rfl := List.mem_singleton.mp ho
      exact absurd hdecides hl
  first := h.head hframe
  clock hnil := absurd hnil (List.concat_ne_nil l looks)

variable [Collaborators G]

/-- **An update is remembered.** -/
theorem Remembers.update (h : Remembers pace looks m) (dt : Duration) (s : Stage G) :
    Remembers pace (looks ++ [⟨m.frame dt, m.briefed dt s, (m.update dt s).1⟩])
      (m.update dt s).2.1 := by
  cases hdead : (m.briefed dt s).flag Keys.isDead with
  -- an agent that is dead fails without a tick of its tree
  | true =>
    rw [update_of_dead hdead]
    exact h.decided rfl rfl (.inl hdead) rfl
  | false =>
    cases hthinks : m.pace.thinksOn (m.frame dt).tick with
    | true =>
      rw [update_of_thinks hdead hthinks]
      exact h.decided rfl rfl (.inr (h.paced ▸ hthinks)) rfl
    | false =>
      rw [update_of_rests hdead hthinks]
      refine h.rested rfl rfl ?_ rfl rfl
      -- otherwise the frame was neither one to think on nor one of a dead agent
      rintro (hdecides | hdecides)
      · exact Bool.false_ne_true (hdead.symm.trans hdecides)
      · rw [← h.paced] at hdecides
        exact Bool.false_ne_true (hthinks.symm.trans hdecides)

/-- **A mind remembers its reports in every run.** -/
theorem remembers_run (tree : Tree (Node G)) (pace : Pace) (turns : List (Turn G)) (s : Stage G) :
    let r := Mind.run turns (.ofTree tree pace) s
    Remembers pace r.1 r.2.1 := by
  let I (looks : List Look) (x : Mind G × Stage G) : Prop := Remembers pace looks x.1
  have hstep : ∀ turn ∈ turns, ∀ looks x, I looks x →
      I (looks ++ (take turn x).1.toList) (take turn x).2 := by
    intro turn _ looks x h
    cases turn with
    -- only an update is a look; the rest leaves what is remembered
    | update dt => exact h.update dt x.2
    | aim target =>
      rw [take, Option.toList_none, List.append_nil]
      exact h.congr rfl rfl rfl
    | drive agent =>
      rw [take, Option.toList_none, List.append_nil]
      exact h.congr rfl rfl rfl
    | meanwhile change =>
      rw [take, Option.toList_none, List.append_nil]
      exact h.congr rfl rfl rfl
  have hstart : I [] (.ofTree tree pace, s) := remembers_ofTree tree pace
  exact runSteps_history hstep hstart

/-- **What is remembered after an update is what it reported**, once a frame has decided: the agent
was dead in it, or it was one to think on. As long as none has, updates report that they are
running, and nothing is remembered. A mind that thinks on its first frame remembers from there
on. -/
theorem last_reported (tree : Tree (Node G)) (pace : Pace) (turns : List (Turn G)) (s₀ : Stage G)
    (dt : Duration) :
    let before := Mind.run turns (.ofTree tree pace) s₀
    let after := before.2.1.update dt before.2.2
    let looks := (Mind.run (turns ++ [.update dt]) (.ofTree tree pace) s₀).1
    ((∃ l ∈ looks, l.Decides pace) → after.2.1.last = some after.1) ∧
    ((∀ l ∈ looks, ¬ l.Decides pace) → after.1 = .running ∧ after.2.1.last = none) ∧
    (pace.thinksOn 0 = true → after.2.1.last = some after.1) := by
  intro before after looks
  let l : Look := ⟨before.2.1.frame dt, before.2.1.briefed dt before.2.2, after.1⟩
  -- the update in question is the last of the run, and is remembered like all before
  have hlooks : looks = before.1 ++ [l] := congrArg (·.1) (run_concat turns (.update dt) _ s₀)
  have hbefore : Remembers pace before.1 before.2.1 := remembers_run tree pace turns s₀
  have hafter : Remembers pace (before.1 ++ [l]) after.2.1 := hbefore.update dt before.2.2
  have hspoken : ∀ o ∈ looks, o.Decides pace → after.2.1.last = some after.1 := by
    intro o ho hdecides
    rw [hlooks] at ho
    rw [hafter.spoken o ho hdecides, List.getLast?_concat]
    rfl
  refine ⟨fun ⟨o, ho, hdecides⟩ => hspoken o ho hdecides, fun hnone => ?_, fun hzero => ?_⟩
  · rw [hlooks] at hnone
    obtain ⟨hnothing, hrunning⟩ := hafter.silent hnone
    exact ⟨hrunning l (List.mem_append_right _ List.mem_cons_self), hnothing⟩
  · -- there is a first frame, and that is one to think on
    obtain ⟨o, ho⟩ : ∃ o, (before.1 ++ [l]).head? = some o :=
      Option.isSome_iff_exists.mp (by simp)
    refine hspoken o (hlooks ▸ List.mem_of_head? ho) (.inr ?_)
    rw [hafter.first o ho]
    exact hzero

/-- **Before a frame has decided an update and what is remembered of it differ.** A mind that is to
rest on its first frame reports that it is running, and remembers nothing. -/
theorem last_unreported :
    let m : Mind Arena := .ofTree { root := .fixed .success } (.staggered 1 2)
    let after := m.update (.ofMillis 10) { game := { fighter := default, target := .zero } }
    after.1 = .running ∧ after.2.1.last = none := by
  decide

end Mind

end Instinct
