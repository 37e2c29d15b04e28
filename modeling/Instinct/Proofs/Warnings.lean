import Instinct.Demo.Arena
import Instinct.Node.Kinds
import Instinct.Proofs.Coupling.Exact
import Instinct.Proofs.Turns

/-! # Who warns over a mind that is not to warn

Every tree has a flag of its own that makes it warn when its root begins to fail. A mind sets the
flag of the tree that it drives and of no other: the trees of patterns keep theirs. So what is told
over a silenced mind is told by its patterns.

* **`Stage.warnings`**, **`Stage.unwarned`** — the warnings that were told, and the stage without.
* **`Node.hushed`**, **`Mind.hushed`** — the same with the flags of all trees off, those of patterns
  within patterns too.
* **`Node.Quiet`**, **`Node.hushed_eq_self`** — a node whose patterns have their flags off already.
* **`Coupling.hushing`** — a run beside the same run with all flags off.
* **`Mind.run_hushed`** — a silenced mind with all flags off makes the same run without a warning.
* **`Mind.warns_by_patterns`** — and with a flag on it may warn. -/

namespace Instinct

variable {G : Type}

/-! ## Warnings -/

/-- Whether a notice is a warning that a tree began to fail. -/
def Notice.isWarning : Notice → Bool
  | rootFailed _ _ => true
  | _ => false

namespace Stage

/-- The warnings that were told. -/
def warnings (s : Stage G) : Array Notice := s.notices.filter (·.isWarning)

/-- **The stage as if no warning had been told.** -/
def unwarned (s : Stage G) : Stage G := { s with notices := s.notices.filter (!·.isWarning) }

/-- Warnings are no part of the game. -/
@[simp] theorem game_unwarned (s : Stage G) : s.unwarned.game = s.game := rfl

/-- What becomes of the game is no warning. -/
@[simp] theorem unwarned_mapGame (s : Stage G) (f : G → G) :
    (s.mapGame f).unwarned = s.unwarned.mapGame f := rfl

/-- The warnings stay as they are when the game changes. -/
@[simp] theorem warnings_mapGame (s : Stage G) (f : G → G) :
    (s.mapGame f).warnings = s.warnings := rfl

/-- What is streamed is streamed all the same. -/
@[simp] theorem unwarned_stream (s : Stage G) (receiver : TraceStream) (e : TraceEvent) :
    (s.stream receiver e).unwarned = s.unwarned.stream receiver e := by
  cases receiver <;> rfl

/-- What is streamed is no warning. -/
@[simp] theorem warnings_stream (s : Stage G) (receiver : TraceStream) (e : TraceEvent) :
    (s.stream receiver e).warnings = s.warnings := by
  cases receiver <;> rfl

/-- A warning is seen among the warnings only. -/
theorem unwarned_notify_of_warning {n : Notice} (h : n.isWarning = true) (s : Stage G) :
    (s.notify n).unwarned = s.unwarned := by
  simp [unwarned, notify, h]

/-- Any other notice is seen among the others only. -/
theorem unwarned_notify {n : Notice} (h : n.isWarning = false) (s : Stage G) :
    (s.notify n).unwarned = s.unwarned.notify n := by
  simp [unwarned, notify, h]

/-- No other notice is a warning. -/
theorem warnings_notify {n : Notice} (h : n.isWarning = false) (s : Stage G) :
    (s.notify n).warnings = s.warnings := by
  simp [warnings, notify, h]

end Stage

/-! ## All flags off -/

namespace Node

/-- A node with the flags of all its patterns off, as far as `levels` levels reach. -/
def hushedTo : (levels : Nat) → Node G → Node G
  | 0, n => n
  | levels + 1, n => n.mapBelow (hushedTo levels) fun _ => false

/-- **A node with the flags of all its patterns off**, those of patterns within patterns too. -/
def hushed (n : Node G) : Node G := hushedTo n.levels n

/-- **A node whose own patterns have their flags off.** -/
def Quiet : Node G → Prop
  | patterns _ s => ∀ e ∈ s.repertoire.groups.entries, ∀ p ∈ e.2, p.tree.warns = false
  | _ => True

/-- The flags of a node are those of its own patterns and those of the nodes below. -/
theorem hushed_eq (n : Node G) : n.hushed = n.mapBelow hushed fun _ => false := by
  refine unroll hushedTo (mapBelow · fun _ => false) (fun _ _ => rfl) ?_ n
  intro f g n hbelow
  apply mapBelow_congr hbelow
  intro title s hs e he p hp
  rfl

/-- **Where all flags are off** there is none to be turned off. -/
theorem hushed_eq_self {n : Node G} (h : n.Everywhere Quiet) : n.hushed = n := by
  induction h with
  | @intro n hn _ ih =>
    rw [hushed_eq]
    calc n.mapBelow hushed (fun _ => false)
        = n.mapBelow id id := by
          refine mapBelow_congr ih ?_
          rintro title s rfl e he p hp
          exact (hn e he p hp).symm
      _ = n := n.mapBelow_id

end Node

/-- The tree with all flags off, its own too. -/
def Tree.hushed (t : Tree (Node G)) : Tree (Node G) :=
  { t with root := t.root.hushed, warns := false }

/-- The mind with the flags of all trees off. -/
def Mind.hushed (m : Mind G) : Mind G := { m with tree := m.tree.hushed }

/-! ## A run beside the same run with all flags off -/

/-- **A run beside the same run with all flags off**, in which nothing is warned of but what was
before. -/
def Coupling.hushing (before : Array Notice) : Coupling G where
  delay := 0
  seeded := True
  slots _ := True
  boards b b' := b = b'
  stages s s' := s'.unwarned = s.unwarned ∧ s'.warnings = before
  tells n := n.isWarning = false
  flags _ b' := b' = false
  game_eq {s s'} h := by
    rw [← s'.game_unwarned, h.1, s.game_unwarned]
  mapGame h f := by
    rw [Stage.unwarned_mapGame, Stage.unwarned_mapGame, h.1]
    exact ⟨rfl, h.2⟩
  notify h n hn := by
    rw [Stage.unwarned_notify hn, Stage.unwarned_notify hn, Stage.warnings_notify hn, h.1]
    exact ⟨rfl, h.2⟩
  warn h b b' hb root tick := by
    subst hb
    rw [if_neg Bool.false_ne_true]
    cases b with
    | false => exact h
    | true =>
      rw [if_pos rfl, Stage.unwarned_notify_of_warning rfl]
      exact h
  emit {w w'} hb hs e := by
    refine ⟨by rw [World.emit, World.emit, hb], ?_⟩
    rw [World.emit, World.emit, ← hb]
    dsimp only
    cases w.board.get? Keys.traceStream with
    | none => exact hs
    | some receiver =>
      dsimp only
      rw [Stage.unwarned_stream, Stage.unwarned_stream, Stage.warnings_stream, hs.1]
      exact ⟨rfl, hs.2⟩
  tells_message _ _ _ := rfl
  put h name _ v := Coupling.put_of_eq h name v
  removeName h name _ := Coupling.removeName_of_eq h name
  handles h := Coupling.handles_of_eq h
  slots_handles := Coupling.slots_of_all

namespace Coupling

variable {before : Array Notice}

/-- Both runs are at the same time and draw alike. -/
theorem level_hushing : (hushing before : Coupling G).Level := ⟨rfl, trivial⟩

/-- A frame goes with itself. -/
theorem frames_hushing (f : Frame) : (hushing before : Coupling G).Frames f f :=
  level_hushing.frames_iff.mpr rfl

/-- With all flags off none is on. -/
theorem told_hushing : (hushing before : Coupling G).Told fun _ => false :=
  ⟨rfl, fun h => h, fun h => h⟩

/-- **A node goes with the one with all flags off**, and with no other. -/
theorem hushed_iff_layered (n n' : Node G) :
    n.hushed = n' ↔ (hushing before).Layered (fun c c' => c.hushed = c') n n' := by
  constructor
  · rintro rfl
    have hblind : (hushing before).Blind n :=
      blind_of_boards_eq level_hushing (fun _ _ => Iff.rfl) (fun _ => trivial)
        fun _ _ _ _ => rfl
    rw [n.hushed_eq]
    exact layered_mapBelow (fun _ => rfl) (fun _ => rfl) (level_hushing.oblivious hblind)
      fun _ _ => rfl
  · intro h
    rw [n.hushed_eq]
    exact h.eq_mapBelow told_hushing

/-- **Ticks and resets leave each node beside the one with all flags off.** -/
theorem steps_hushing : (hushing before : Coupling G).Steps (fun n n' => n.hushed = n')
    Node.asMachine Node.asMachine := Steps.asMachine hushed_iff_layered

/-- The trees that go together. -/
theorem trees_hushing_iff {t t' : Tree (Node G)} :
    (hushing before : Coupling G).Trees (fun n n' => n.hushed = n') t t' ↔ t' = t.hushed := by
  constructor
  · rintro ⟨hroot, hboard, hlast, hticks, hwarns⟩
    have hboard : t.board = t'.board := hboard
    have hwarns : t'.warns = false := hwarns
    obtain ⟨root, board, last, ticks, warns⟩ := t'
    dsimp only at hroot hboard hlast hticks hwarns
    rw [Tree.hushed, hroot, hboard, hlast, hticks, hwarns]
  · rintro rfl
    exact ⟨rfl, rfl, rfl, rfl, rfl⟩

end Coupling

/-! ## The run with all flags off -/

/-- **The game has nothing to do with warnings**: it does not look at them when it goes on by
itself, and tells none. -/
def Turn.Unwarning : Turn G → Prop
  | meanwhile change => ∀ w w' : World G, w'.board = w.board →
      w'.stage.unwarned = w.stage.unwarned →
      (change w').board = (change w).board ∧
        (change w').stage.unwarned = (change w).stage.unwarned ∧
        (change w').stage.warnings = w'.stage.warnings
  | _ => True

namespace Mind

variable {before : Array Notice} {s s' : Stage G} {m : Mind G}

/-- What two runs keep one of which has all flags off. -/
def Hushed (before : Array Notice) (r r' : Mind G × Stage G) : Prop :=
  r'.1 = r.1.hushed ∧ r'.2.unwarned = r.2.unwarned ∧ r'.2.warnings = before

variable [Collaborators G]

/-- **One frame with all flags off.** -/
theorem Hushed.update (hs : s'.unwarned = s.unwarned ∧ s'.warnings = before) (dt : Duration) :
    m.hushed.briefed dt s' = m.briefed dt s ∧
    (m.hushed.update dt s').1 = (m.update dt s).1 ∧
    Hushed before (m.update dt s).2 (m.hushed.update dt s').2 := by
  have hgame : s'.game = s.game := by rw [← s'.game_unwarned, hs.1, s.game_unwarned]
  have hbriefed : m.hushed.briefed dt s' = m.briefed dt s := by
    unfold briefed
    rw [hgame]
    rfl
  -- the blackboard of the frame is the same, as it is written from the game
  have hrefreshed : m.hushed.refreshed dt s' = (m.refreshed dt s).hushed := by
    unfold refreshed
    rw [hbriefed]
    rfl
  refine ⟨hbriefed, ?_⟩
  -- the three exits of an update are taken on both sides or on neither
  cases hdead : (m.briefed dt s).flag Keys.isDead with
  | true =>
    rw [update_of_dead hdead, update_of_dead (m := m.hushed) (hbriefed ▸ hdead), hrefreshed]
    exact ⟨rfl, rfl, hs⟩
  | false =>
    have hdead' : (m.hushed.briefed dt s').flag Keys.isDead = false := hbriefed ▸ hdead
    cases hthinks : m.pace.thinksOn (m.frame dt).tick with
    | true =>
      have htrees : (Coupling.hushing before).Trees (fun n n' => n.hushed = n')
          (m.refreshed dt s).tree (m.refreshed dt s).tree.hushed :=
        Coupling.trees_hushing_iff.mpr rfl
      obtain ⟨hstatus, htree, hstage⟩ :=
        Coupling.steps_hushing.tree (Coupling.frames_hushing (m.frame dt)) htrees hs
      have htree := Coupling.trees_hushing_iff.mp htree
      rw [update_of_thinks hdead hthinks, update_of_thinks (m := m.hushed) hdead' hthinks,
        hrefreshed]
      refine ⟨hstatus, ?_, hstage⟩
      exact congrArg₂ (fun tree status =>
        { (m.refreshed dt s).hushed with tree := tree, last := some status }) htree hstatus
    | false =>
      rw [update_of_rests hdead hthinks, update_of_rests (m := m.hushed) hdead' hthinks,
        hrefreshed]
      exact ⟨rfl, rfl, hs⟩

/-- **One turn with all flags off.** -/
theorem Hushed.take {r r' : Mind G × Stage G} (h : Hushed before r r') {turn : Turn G}
    (hturn : turn.Unwarning) :
    (Mind.take turn r').1 = (Mind.take turn r).1 ∧
      Hushed before (Mind.take turn r).2 (Mind.take turn r').2 := by
  obtain ⟨m, s⟩ := r
  obtain ⟨m', s'⟩ := r'
  obtain ⟨hm, hs⟩ := h
  dsimp only at hm hs
  subst hm
  cases turn with
  | update dt =>
    obtain ⟨hbriefed, hstatus, hafter⟩ := Hushed.update (m := m) hs dt
    refine ⟨?_, hafter⟩
    exact congrArg₂ (fun board status => some (Look.mk (m.frame dt) board status)) hbriefed hstatus
  | aim target => exact ⟨rfl, rfl, hs⟩
  | drive agent => exact ⟨rfl, rfl, hs⟩
  -- a change from outside does not look at the warnings and adds none
  | meanwhile change =>
    obtain ⟨hboard, hunwarned, hwarnings⟩ :=
      hturn ⟨m.tree.board, s⟩ ⟨m.tree.board, s'⟩ rfl hs.1
    refine ⟨rfl, ?_, hunwarned, hwarnings.trans hs.2⟩
    exact congrArg (fun board => (m.mapBoard fun _ => board).hushed) hboard

/-- **Only its patterns warn over a silenced mind.** Take a mind that is not to warn, over any tree,
and the same over the tree with the flags of all patterns off, those of patterns within patterns
too. Whatever happens to both, their frames present and come to the same, and minds, game, streams
and notices are the same but for the warnings: the second mind adds none to those there were. So a
mind that is not to warn, and no pattern of which is, never warns. -/
theorem run_hushed (tree : Tree (Node G)) {pace : Pace} (hpace : pace.warnOnFailure = false)
    {turns : List (Turn G)} (hturns : ∀ turn ∈ turns, turn.Unwarning) (s : Stage G) :
    let r := Mind.run turns (.ofTree tree pace) s
    let r' := Mind.run turns (.ofTree tree.hushed pace) s
    r'.1 = r.1 ∧ r'.2.1 = r.2.1.hushed ∧ r'.2.2.unwarned = r.2.2.unwarned ∧
      r'.2.2.warnings = s.warnings ∧
      (tree.root.Everywhere Node.Quiet → r.2.2.warnings = s.warnings) := by
  intro r r'
  have hstart : Hushed s.warnings (.ofTree tree pace, s) (.ofTree tree.hushed pace, s) := by
    refine ⟨?_, rfl, rfl⟩
    unfold ofTree
    rw [hpace]
    rfl
  have hall : List.Forall₂ (fun turn turn' : Turn G => turn = turn' ∧ turn.Unwarning) turns turns :=
    List.forall₂_same.mpr fun turn hturn => ⟨rfl, hturns turn hturn⟩
  have hstep : ∀ (turn turn' : Turn G) (r r' : Mind G × Stage G),
      turn = turn' ∧ turn.Unwarning → Hushed s.warnings r r' →
      (Mind.take turn' r').1 = (Mind.take turn r).1 ∧
        Hushed s.warnings (Mind.take turn r).2 (Mind.take turn' r').2 := by
    rintro turn _ r r' ⟨rfl, hturn⟩ hr
    exact hr.take hturn
  obtain ⟨hlooks, hmind, hunwarned, hwarnings⟩ := runSteps_together hstep hall hstart
  refine ⟨hlooks, hmind, hunwarned, hwarnings, fun hquiet => ?_⟩
  -- there is nothing to be turned off, so both runs are the same
  have hsame : (ofTree tree.hushed pace : Mind G) = ofTree tree pace := by
    unfold ofTree Tree.hushed
    rw [Node.hushed_eq_self hquiet]
  have hruns : r' = r := by
    show Mind.run turns (.ofTree tree.hushed pace) s = Mind.run turns (.ofTree tree pace) s
    rw [hsame]
  rw [← hruns]
  exact hwarnings

/-- A pack whose wolf bites in vain: both patterns warn, one within the other, and with all flags
off neither does. -/
theorem run_hushed_pack :
    let bite : Pattern (Node Arena) Arena := { name := "bite", tree := { root := .fixed .failure } }
    let wolf : Node Arena := .patternsOf "wolf" (.ofPatterns "wolf" [bite])
    let hunt : Pattern (Node Arena) Arena := { name := "hunt", tree := { root := wolf } }
    let tree : Tree (Node Arena) := { root := .patternsOf "pack" (.ofPatterns "pack" [hunt]) }
    let pace : Pace := { warnOnFailure := false }
    let turns : List (Turn Arena) := [.update (.ofMillis 16), .aim none, .update (.ofMillis 17)]
    let s : Stage Arena := { game := { fighter := default, target := .zero } }
    let r := Mind.run turns (.ofTree tree pace) s
    let r' := Mind.run turns (.ofTree tree.hushed pace) s
    pace.warnOnFailure = false ∧ (∀ turn ∈ turns, turn.Unwarning) ∧
      r.2.2.warnings = #[.rootFailed "Failure" 0, .rootFailed "AttackPatterns" 0] ∧
      r'.1.map Look.status = [.failure, .failure] ∧ r'.2.2.warnings = #[] := by
  intro bite wolf hunt tree pace turns s r r'
  have hturns : ∀ turn ∈ turns, turn.Unwarning := by
    simp [turns, Turn.Unwarning]
  have hpace : pace.warnOnFailure = false := rfl
  obtain ⟨hlooks, -, -, hwarnings, -⟩ := run_hushed tree hpace hturns s
  have hstatuses : r.1.map Look.status = [.failure, .failure] := by decide +kernel
  refine ⟨hpace, hturns, by decide +kernel, ?_, hwarnings⟩
  exact (congrArg (List.map Look.status) hlooks).trans hstatuses

/-- **A silenced mind may still warn through its patterns.** A wolf that bites in vain over a mind
that is not to warn. -/
theorem warns_by_patterns :
    let bite : Pattern (Node Arena) Arena := { name := "bite", tree := { root := .fixed .failure } }
    let tree : Tree (Node Arena) := { root := .patternsOf "wolf" (.ofPatterns "wolf" [bite]) }
    let s : Stage Arena := { game := { fighter := default, target := .zero } }
    let r := Mind.run [.update (.ofMillis 16)] (.ofTree tree { warnOnFailure := false }) s
    s.warnings = #[] ∧ r.2.2.warnings = #[.rootFailed "Failure" 0] := by
  decide +kernel

end Mind

end Instinct
