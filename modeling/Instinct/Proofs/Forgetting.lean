import Instinct.Node.Kinds
import Instinct.Proofs.AsBuilt
import Instinct.Proofs.Notices

/-! # A reset forgets the run

What a node will do depends on what it was built as, on what lasts, on the blackboard and on the
game, where callbacks keep what they remember, and not on how all this came about. After a reset,
and wherever else a child is given up, two histories that agree on these cannot be told apart.

* **`Stage.SameNews`** — the same was told and streamed since.
* **`Node.SameFuture`** — nodes that no ticks and resets can tell apart.
* **`Coupling.beside`** — runs that differ in what was told and streamed before.
* **`Node.sameFuture`** — the future of a node has nothing to do with what was told and streamed.
* **`Node.forgets`** — resets, timeouts, guards and parallels leave nodes as they were built, but
  for what lasts. -/

namespace Instinct

variable {G : Type}

/-! ## The same future -/

/-- **The same was told and streamed** since the stages `s` and `s'`. -/
def Stage.SameNews (s s' r r' : Stage G) : Prop :=
  ∃ told events, r.notices = s.notices ++ told ∧ r.streamed = s.streamed ++ events ∧
    r'.notices = s'.notices ++ told ∧ r'.streamed = s'.streamed ++ events

namespace Stage.SameNews

variable {s s' r r' : Stage G}

/-- Nothing was told yet. -/
theorem refl (s s' : Stage G) : SameNews s s' s s' :=
  ⟨#[], #[], (Array.append_empty).symm, (Array.append_empty).symm, (Array.append_empty).symm,
    (Array.append_empty).symm⟩

/-- The game is not news. -/
theorem mapGame (h : SameNews s s' r r') (f f' : G → G) :
    SameNews s s' (r.mapGame f) (r'.mapGame f') := h

/-- One more notice on both sides. -/
theorem notify (h : SameNews s s' r r') (n : Notice) :
    SameNews s s' (r.notify n) (r'.notify n) := by
  obtain ⟨told, events, hr, hrs, hr', hrs'⟩ := h
  refine ⟨told.push n, events, ?_, hrs, ?_, hrs'⟩
  · rw [Stage.notify, hr, Array.append_push]
  · rw [Stage.notify, hr', Array.append_push]

/-- One more event streamed on both sides. -/
theorem stream (h : SameNews s s' r r') (receiver : TraceStream) (e : TraceEvent) :
    SameNews s s' (r.stream receiver e) (r'.stream receiver e) := by
  cases receiver with
  | discard => exact h
  | receiver i =>
    obtain ⟨told, events, hr, hrs, hr', hrs'⟩ := h
    refine ⟨told, events.push (i, e), hr, ?_, hr', ?_⟩
    · rw [Stage.stream, hrs, Array.append_push]
    · rw [Stage.stream, hrs', Array.append_push]

end Stage.SameNews

/-- **Nodes that no ticks and resets can tell apart**: they report the same, and leave the same
node, the same blackboard and the same game, and tell and stream the same meanwhile. -/
def Node.SameFuture (a a' : Node G × World G) : Prop :=
  ∀ later : List (Move G), (∀ change, .meanwhile change ∉ later) →
    let r := asMachine.run later a.1 a.2
    let r' := asMachine.run later a'.1 a'.2
    r'.1 = r.1 ∧ r'.2.1 = r.2.1 ∧ r'.2.2.board = r.2.2.board ∧ r'.2.2.game = r.2.2.game ∧
      Stage.SameNews a.2.stage a'.2.stage r.2.2.stage r'.2.2.stage

/-! ## Runs that differ in what was told before -/

/-- **Runs that differ in what was told and streamed** before the stages `s` and `s'`. -/
def Coupling.beside (s s' : Stage G) : Coupling G where
  delay := 0
  seeded := True
  slots _ := True
  boards b b' := b = b'
  stages r r' := r'.game = r.game ∧ Stage.SameNews s s' r r'
  tells n := ∀ e, n ≠ .patternLost e
  flags b b' := b' = b
  game_eq h := h.1
  mapGame h f := ⟨congrArg f h.1, h.2.mapGame f f⟩
  notify h n _ := ⟨h.1, h.2.notify n⟩
  warn {r r'} h {b b'} hb root tick := by
    obtain rfl := hb
    -- a root that has been told about is not told about again
    cases b' with
    | true => exact ⟨h.1, h.2.notify _⟩
    | false => exact h
  emit {w w'} hb h e := by
    refine ⟨by rw [World.emit, World.emit, hb], ?_⟩
    show _ ∧ Stage.SameNews s s' _ _
    rw [World.emit, World.emit, ← hb]
    dsimp only
    -- the same receiver hears of the event on both sides, or nobody does
    cases w.board.get? Keys.traceStream with
    | none => exact h
    | some receiver =>
      refine ⟨?_, h.2.stream receiver e⟩
      rw [Stage.game_stream, Stage.game_stream]
      exact h.1
  tells_message level text tick e := Notice.message_ne_patternLost level text tick e
  put h name _ v := Coupling.put_of_eq h name v
  removeName h name _ := Coupling.removeName_of_eq h name
  handles h := Coupling.handles_of_eq h
  slots_handles := Coupling.slots_of_all

namespace Coupling

variable {s s' : Stage G}

/-- Neither time nor seeds differ between the runs. -/
theorem level_beside : (beside s s').Level := ⟨rfl, trivial⟩

/-- A node that drives no patterns cannot tell the runs apart. -/
theorem blind_beside {n : Node G} (h : n.Patternless) : (beside s s').Blind n := by
  refine blind_of_boards_eq level_beside (fun _ _ => Iff.rfl) (fun _ => trivial) ?_
  rintro title sel rfl
  exact h.elim

/-- **The same node on both sides**, driving no patterns. -/
def Same (n n' : Node G) : Prop := n.Everywhere Node.Patternless ∧ n = n'

/-- Lists of nodes that are the same in each place are the same list. -/
theorem eq_of_forall₂_same {ns ns' : List (Node G)} (h : List.Forall₂ Same ns ns') :
    (∀ n ∈ ns, n.Everywhere Node.Patternless) ∧ ns = ns' := by
  obtain ⟨hns, hsame⟩ := (List.forall₂_and_left _ _).mp h
  rw [List.forall₂_eq_eq_eq] at hsame
  exact ⟨hns, hsame⟩

/-- Nodes are the same exactly if they are the same layer over the same children. -/
theorem same_iff_layered (n n' : Node G) : Same n n' ↔ (beside s s').Layered Same n n' := by
  rw [layered_iff_twins level_beside]
  constructor
  · rintro ⟨⟨hn, hbelow⟩, rfl⟩
    have hblind : (beside s s').Blind n := blind_beside hn
    exact ⟨twins_self level_beside (fun _ => rfl) (fun _ => rfl) hblind
      fun c hc => ⟨hbelow c hc, rfl⟩, hblind⟩
  · rintro ⟨htwins, hblind⟩
    cases htwins with
    | composite hcs =>
      obtain ⟨hall, rfl⟩ := eq_of_forall₂_same hcs
      exact ⟨⟨trivial, hall⟩, rfl⟩
    | decorator hc =>
      cases hc with
      | none => exact ⟨⟨trivial, List.forall_mem_nil _⟩, rfl⟩
      | some hc =>
        obtain ⟨hc, rfl⟩ := hc
        exact ⟨⟨trivial, List.forall_mem_singleton.mpr hc⟩, rfl⟩
    | leaf => exact ⟨⟨trivial, List.forall_mem_nil _⟩, rfl⟩
    -- a leaf that drives patterns might tell of a lost one
    | patterns => exact absurd rfl (hblind default default)
    | custom hcs =>
      obtain ⟨hall, rfl⟩ := eq_of_forall₂_same hcs
      exact ⟨⟨trivial, hall⟩, rfl⟩

/-- Nodes that drive no patterns do the same, whatever was told before. -/
theorem steps_beside : (beside s s').Steps Same (Node.asMachine : Machine (Node G) G)
    Node.asMachine := Steps.asMachine same_iff_layered

/-- The same node in worlds that differ in what was told before `s` and `s'`. -/
def Abreast (s s' : Stage G) (a a' : Node G × World G) : Prop :=
  Same a.1 a'.1 ∧ (beside s s').Worlds a.2 a'.2

/-- A tick or a reset on either side. -/
theorem Abreast.make {a a' : Node G × World G} (h : Abreast s s' a a') {move : Move G}
    (hmove : ∀ change, move ≠ .meanwhile change) :
    (Node.asMachine.make move a').1 = (Node.asMachine.make move a).1 ∧
      Abreast s s' (Node.asMachine.make move a).2 (Node.asMachine.make move a').2 := by
  obtain ⟨hn, hw⟩ := h
  cases move with
  | tick frame =>
    have ho := steps_beside.tick (level_beside.frames_iff.mpr (Eq.refl frame)) hn hw
    exact ⟨congrArg some ho.status, ho.node, ho.world⟩
  | reset => exact ⟨rfl, steps_beside.resetIn hn hw⟩
  | meanwhile change => exact absurd rfl (hmove change)

end Coupling

namespace Node

open Coupling

/-- **The future of a node has nothing to do with what was told and streamed before.** -/
theorem sameFuture {n : Node G} (hn : n.Everywhere Patternless) {w w' : World G}
    (hboard : w'.board = w.board) (hgame : w'.game = w.game) : SameFuture (n, w) (n, w') := by
  intro later hlater
  -- the two runs start from different news and go on abreast
  have hstart : Abreast w.stage w'.stage (n, w) (n, w') :=
    ⟨⟨hn, rfl⟩, hboard.symm, hgame, Stage.SameNews.refl _ _⟩
  -- changes from outside are left out: they might look at the news
  have hmoves : List.Forall₂ (fun move move' : Move G => move = move' ∧
      ∀ change, move ≠ .meanwhile change) later later := by
    refine List.forall₂_same.mpr fun move hmove => ⟨rfl, ?_⟩
    rintro change rfl
    exact hlater change hmove
  have hstep : ∀ (move move' : Move G) (a a' : Node G × World G),
      (move = move' ∧ ∀ change, move ≠ .meanwhile change) → Abreast w.stage w'.stage a a' →
      (asMachine.make move' a').1 = (asMachine.make move a).1 ∧
        Abreast w.stage w'.stage (asMachine.make move a).2 (asMachine.make move' a').2 := by
    rintro move _ a a' ⟨rfl, hmove⟩ ha
    exact ha.make hmove
  obtain ⟨hreports, ⟨-, hnode⟩, hend⟩ := runSteps_together hstep hmoves hstart
  have hstage : (asMachine.run later n w').2.2.game = (asMachine.run later n w).2.2.game ∧
      Stage.SameNews w.stage w'.stage (asMachine.run later n w).2.2.stage
        (asMachine.run later n w').2.2.stage := hend.stage
  exact ⟨hreports, hnode.symm, hend.board.symm, hstage.1, hstage.2⟩

/-- A stock node drives no patterns. -/
theorem patternless_of_stock {n : Node G} (h : n.Everywhere Stock) : n.Everywhere Patternless := by
  refine h.mono fun n hn => ?_
  cases n with
  | patterns title s => exact hn
  | _ => exact trivial

/-! ## Given up -/

section GivenUp

variable {title : Option String} {c : Node G} {cs : List (Node G)} {f : Frame} {w : World G}

/-- A reset leaves a node as it was built, but for what lasts, and nothing else is changed. -/
theorem resetIn_of_stock (h : c.Everywhere Stock) (w : World G) :
    asMachine.resetIn c w = (c.asBuilt.carrying c.lasting, w) := by
  have hgame : c.onReset w.game = w.game := onReset_of_stock h w.game
  have hworld : w.mapGame c.onReset = w := by
    show { w with stage := { w.stage with game := c.onReset w.game } } = w
    rw [hgame]
    rfl
  show (c.reset, w.mapGame c.onReset) = _
  rw [reset_eq_carrying h, hworld]

/-- **A timeout that has expired** gives its child up. -/
theorem tick_timeout_expired {limit : Duration} {started : Option Duration}
    (hc : c.Everywhere Stock) (hlate : limit < f.elapsedSince (started.getD f.now)) :
    (decorator title (.timeout limit started) (some c)).tick f w
      = ⟨.failure, decorator title (.timeout limit none) (some (c.asBuilt.carrying c.lasting)),
          w⟩ := by
  rw [tick_eq, tickLayer, Decorator.tick, Decorator.tickAround]
  dsimp only
  rw [if_pos hlate, resetIn_of_stock hc]
  rfl

/-- **A guard that does not hold** has the child given up. -/
theorem tick_conditional_false {guard : Guard G} (hc : c.Everywhere Stock)
    (hfalse : (guard f w.board w.game).1 = false) :
    (decorator title (.conditional guard) (some c)).tick f w
      = ⟨.failure, decorator title (.conditional guard) (some (c.asBuilt.carrying c.lasting)),
          w.mapGame fun _ => (guard f w.board w.game).2⟩ := by
  rw [tick_eq, tickLayer, Decorator.tick, Decorator.tickAround]
  dsimp only
  rw [hfalse, if_neg Bool.false_ne_true, resetIn_of_stock hc]
  rfl

/-- **A parallel that concludes** gives all of its children up, once they are ticked. -/
theorem tick_parallel_concluded {policy : Policy} (hcs : ∀ c ∈ cs, c.Everywhere Stock)
    (hdone : ((composite title (.parallel policy) cs).tick f w).status ≠ .running) :
    ((composite title (.parallel policy) cs).tick f w).node
      = composite title (.parallel policy)
          (carryingAll (asBuiltAll cs) (lastingAll (asMachine.tickAll f cs w).2.1)) := by
  -- what the children are built as does not change while they are ticked
  obtain ⟨hall, -⟩ := Drift.steps_stock.tickAll (f := f) (w := w) hcs trivial
  have hreset : (asMachine.tickAll f cs w).2.1.map reset
      = carryingAll (asBuiltAll cs) (lastingAll (asMachine.tickAll f cs w).2.1) := by
    rw [← Drift.asBuiltAll_of_becomes hall.becomes, carryingAll_lastingAll]
    exact List.map_congr_left fun c hc => reset_eq_carrying (hall.nodes c hc)
  rw [← hreset]
  rw [tick_eq, tickLayer, Composite.tick] at hdone ⊢
  dsimp only [Composite.tickParallel] at hdone ⊢
  -- a parallel that is running is excluded, and any other one resets its children
  split at hdone
  · exact absurd rfl hdone
  · rfl

end GivenUp

/-- What lasts puts no leaf that drives patterns anywhere. -/
theorem stock_carrying {n : Node G} (h : n.Everywhere Stock) (l : Lasting) :
    (n.carrying l).Everywhere Stock := by
  rw [← everywhere_stock_asBuilt_iff, asBuilt_carrying]
  exact everywhere_stock_asBuilt_iff.mpr h

/-- **Nothing of a run outlives a reset but what lasts.** Let `n₀` be a tree of nodes that come with
the library, as it was built.

* After any run, a reset leaves the tree as it was built, but for what lasts, and changes nothing
  else.
* So two runs that agree on what lasts, on the blackboard and on the game have the same future after
  a reset.
* Where `n₀` is a timeout that expires, a conditional whose guard does not hold, or a parallel that
  concludes, its children are left as they were built, but for what lasts, in whatever state they
  were.
* So they have the same future too: that of a tree depends on what it was built as, on what lasts,
  on the blackboard and on the game alone. -/
theorem forgets {n₀ : Node G} (hbuilt : n₀.asBuilt = n₀) (hstock : n₀.Everywhere Stock) :
    (∀ moves w, let r := (asMachine.run moves n₀ w).2
      asMachine.resetIn r.1 r.2 = (n₀.carrying r.1.lasting, r.2)) ∧
    (∀ moves w moves' w', let r := (asMachine.run moves n₀ w).2
      let r' := (asMachine.run moves' n₀ w').2
      r'.1.lasting = r.1.lasting → r'.2.board = r.2.board → r'.2.game = r.2.game →
        SameFuture (asMachine.resetIn r.1 r.2) (asMachine.resetIn r'.1 r'.2)) ∧
    (∀ title limit c₀, n₀ = decorator title (.timeout limit none) (some c₀) →
      ∀ started c f w, c.asBuilt = c₀ → limit < f.elapsedSince (started.getD f.now) →
        (decorator title (.timeout limit started) (some c)).tick f w
          = ⟨.failure, decorator title (.timeout limit none) (some (c₀.carrying c.lasting)), w⟩) ∧
    (∀ title guard c₀, n₀ = decorator title (.conditional guard) (some c₀) →
      ∀ c f w, c.asBuilt = c₀ → (guard f w.board w.game).1 = false →
        (decorator title (.conditional guard) (some c)).tick f w
          = ⟨.failure, decorator title (.conditional guard) (some (c₀.carrying c.lasting)),
              w.mapGame fun _ => (guard f w.board w.game).2⟩) ∧
    (∀ title policy cs₀, n₀ = composite title (.parallel policy) cs₀ →
      ∀ cs f w, asBuiltAll cs = cs₀ →
        ((composite title (.parallel policy) cs).tick f w).status ≠ .running →
        ((composite title (.parallel policy) cs).tick f w).node
          = composite title (.parallel policy)
              (carryingAll cs₀ (lastingAll (asMachine.tickAll f cs w).2.1))) ∧
    (∀ n : Node G, n.Everywhere Stock → ∀ l w w', w'.board = w.board → w'.game = w.game →
      SameFuture (n.carrying l, w) (n.carrying l, w')) := by
  -- what is left after a reset is what was built, with what lasts from the run
  have hreset (moves : List (Move G)) (w : World G) :
      asMachine.resetIn (asMachine.run moves n₀ w).2.1 (asMachine.run moves n₀ w).2.2
        = (n₀.carrying (asMachine.run moves n₀ w).2.1.lasting, (asMachine.run moves n₀ w).2.2) := by
    obtain ⟨hrun, hsame⟩ := asBuilt_run hstock moves w
    rw [resetIn_of_stock hrun, hsame, hbuilt]
  have hfuture (n : Node G) (hn : n.Everywhere Stock) (l : Lasting) (w w' : World G)
      (hboard : w'.board = w.board) (hgame : w'.game = w.game) :
      SameFuture (n.carrying l, w) (n.carrying l, w') :=
    sameFuture (patternless_of_stock (stock_carrying hn l)) hboard hgame
  refine ⟨hreset, ?histories, ?timeout, ?conditional, ?parallel, hfuture⟩
  case histories =>
    intro moves w moves' w' r r' hlasting hboard hgame
    rw [hreset, hreset]
    have hlasting : (asMachine.run moves' n₀ w').2.1.lasting
        = (asMachine.run moves n₀ w).2.1.lasting := hlasting
    rw [hlasting]
    -- two runs that agree on what lasts are reset to the same node
    exact hfuture n₀ hstock _ _ _ hboard hgame
  -- the child is stock because what it was built as is
  case timeout =>
    rintro title limit c₀ rfl started c f w rfl hlate
    have hc := (everywhere_decorator.mp hstock).2 c.asBuilt rfl
    exact tick_timeout_expired (everywhere_stock_asBuilt_iff.mp hc) hlate
  case conditional =>
    rintro title guard c₀ rfl c f w rfl hfalse
    have hc := (everywhere_decorator.mp hstock).2 c.asBuilt rfl
    exact tick_conditional_false (everywhere_stock_asBuilt_iff.mp hc) hfalse
  case parallel =>
    rintro title policy cs₀ rfl cs f w rfl hdone
    have hcs := (everywhere_composite.mp hstock).2
    rw [asBuiltAll_eq, List.forall_mem_map] at hcs
    exact tick_parallel_concluded (fun c hc => everywhere_stock_asBuilt_iff.mp (hcs c hc)) hdone

/-- A tree that is given up while a sequence below a succeeder is running, with a cooldown under way
and a choice made. -/
theorem forgets_guarded :
    let inner (cursor : Nat) : Node Unit :=
      .composite none (.sequence cursor) [.fixed .success, .fixed .running]
    let tree (cursor : Nat) (finished : Option Duration) (choices : UInt64) (inner : Node Unit) :
        Node Unit :=
      .composite none (.sequence cursor)
        [.decorator none (.cooldown (.ofMillis 50) finished) (some (.succeeder (some inner))),
          .composite none (.random { stream := 3, count := choices }) [.fixed .success],
          .fixed .running]
    let n₀ := tree 0 none 0 (inner 0)
    let w : World Unit := ⟨.empty, { game := () }⟩
    let r := asMachine.run [.tick (.atMillis 7)] n₀ w
    n₀.asBuilt = n₀ ∧ n₀.Everywhere Stock ∧ r.1 = [.running] ∧
      r.2.1 = tree 2 (some (.ofMillis 7)) 1 (inner 1) ∧
      (asMachine.resetIn r.2.1 r.2.2).1 = tree 0 (some (.ofMillis 7)) 1 (inner 0) := by
  intro inner tree n₀ w r
  have hbuilt : n₀.asBuilt = n₀ := rfl
  have hstock : n₀.Everywhere Stock := by
    simp [n₀, tree, inner, succeeder, fixed, Stock]
  have hrun : r.2.1 = tree 2 (some (.ofMillis 7)) 1 (inner 1) := rfl
  have hreset := (forgets hbuilt hstock).1 [.tick (.atMillis 7)] w
  refine ⟨hbuilt, hstock, rfl, hrun, ?_⟩
  calc (asMachine.resetIn r.2.1 r.2.2).1
      = n₀.carrying r.2.1.lasting := congrArg Prod.fst hreset
    _ = tree 0 (some (.ofMillis 7)) 1 (inner 0) := by rw [hrun]; rfl

end Node

end Instinct
