import Instinct.Proofs.Coupling

/-! # Patterns side by side

Trees, patterns and repertoires whose nodes are machines that keep up, and the leaf that drives
them.

* **`Coupling.Trees`**, **`Patterns`**, **`Repertoires`**, **`Selections`** — alike but for the
  nodes, the blackboards and the times of the last starts.
* **`Coupling.Steps.tree`**, **`pattern`** — one tick of a tree and of a pattern.
* **`Coupling.Repertoires.select`** — the same pattern is selected on both sides.
* **`Coupling.Steps.selection`** — one tick of the leaf. -/

namespace Instinct

namespace Coupling

variable {N G : Type} (K : Coupling G)

/-! ## Trees and patterns alike -/

/-- Situations that go together. -/
structure Situations (s s' : Situation) : Prop where
  frame : K.Frames s.frame s'.frame
  enemy : s'.enemy = s.enemy
  target : s'.target = s.target
  scene : s'.scene = s.scene

/-- A condition with the same answer on both sides. -/
def Conditions (condition : Situation → G → Bool × G) : Prop :=
  ∀ ⦃s s'⦄, K.Situations s s' → ∀ g, condition s' g = condition s g

/-- Trees alike but for their nodes, their blackboards and whether they warn. -/
inductive Trees (R : N → N → Prop) : Tree N → Tree N → Prop
  | mk {t t'} (root : R t.root t'.root) (board : K.boards t.board t'.board)
      (last : t'.last = t.last) (ticks : t'.ticks = t.ticks)
      (warns : K.flags t.warns t'.warns) : Trees R t t'

/-- Patterns alike but for their trees and the times of their last starts. -/
inductive Patterns (R : N → N → Prop) : Pattern N G → Pattern N G → Prop
  | mk {p p'} (name : p'.name = p.name) (tree : K.Trees R p.tree p'.tree)
      (priority : p'.priority = p.priority) (cooldown : p'.cooldown = p.cooldown)
      (lastUsed : K.Stamps p.lastUsed p'.lastUsed) (condition : p'.condition = p.condition)
      (asked : ∀ c ∈ p.condition, K.Conditions c) : Patterns R p p'

/-- Named groups of patterns that are alike. -/
inductive Groups (R : N → N → Prop) :
    String × List (Pattern N G) → String × List (Pattern N G) → Prop
  | mk {archetype ps ps'} (patterns : List.Forall₂ (K.Patterns R) ps ps') :
      Groups R (archetype, ps) (archetype, ps')

/-- Repertoires that are alike. -/
inductive Repertoires (R : N → N → Prop) : Repertoire N G → Repertoire N G → Prop
  | mk {r r'} (groups : List.Forall₂ (K.Groups R) r.groups.entries r'.groups.entries) :
      Repertoires R r r'

/-- Memories of leaves that drive repertoires that are alike, and that may tell of a pattern that is
gone. -/
inductive Selections (R : N → N → Prop) : Selection N G → Selection N G → Prop
  | mk {archetype r r' running lastChoice} (lost : ∀ e, K.tells (.patternLost e))
      (repertoire : K.Repertoires R r r') :
      Selections R ⟨archetype, r, running, lastChoice⟩ ⟨archetype, r', running, lastChoice⟩

/-- What starting or going on with a pattern gives on both sides. -/
inductive Results (R : N → N → Prop) :
    Except PatternError (Status × Repertoire N G × Stage G) →
    Except PatternError (Status × Repertoire N G × Stage G) → Prop
  | error {e} : Results R (.error e) (.error e)
  | ok {status r r' s s'} (repertoire : K.Repertoires R r r') (stage : K.stages s s') :
      Results R (.ok (status, r, s)) (.ok (status, r', s'))

variable {K} {R : N → N → Prop} {m m' : Machine N G}

/-- Blackboards that go together tell of situations that do. -/
theorem Worlds.situation {f f' : Frame} (hf : K.Frames f f') {w w' : World G}
    (hw : K.Worlds w w') :
    K.Situations (Situation.ofBoard f w.board) (Situation.ofBoard f' w'.board) := by
  obtain ⟨henemy, htarget, hscene⟩ := K.handles hw.board
  exact ⟨hf, henemy, htarget, hscene⟩

/-- **A tree keeps up**, by a tick of its root. -/
theorem Steps.tree (h : K.Steps R m m') {f f' : Frame} (hf : K.Frames f f') {t t' : Tree N}
    (ht : K.Trees R t t') {s s' : Stage G} (hs : K.stages s s') :
    (t'.tick m' f' s').1 = (t.tick m f s).1 ∧
    K.Trees R (t.tick m f s).2.1 (t'.tick m' f' s').2.1 ∧
    K.stages (t.tick m f s).2.2 (t'.tick m' f' s').2.2 := by
  obtain ⟨hroot, hboard, hlast, hticks, hwarns⟩ := ht
  have hworlds : K.Worlds ⟨t.board, s⟩ ⟨t'.board, s'⟩ := ⟨hboard, hs⟩
  have ho := h.tick hf hroot hworlds
  -- the closing event and the warning are the same on both sides
  have hevent := ho.world.emit (Tree.tickEvent f (m.tick f t.root ⟨t.board, s⟩).status)
  have hw : K.Worlds
      (t.warnIfFailing m f (m.tick f t.root ⟨t.board, s⟩).status
        (m.tick f t.root ⟨t.board, s⟩).node
        ((m.tick f t.root ⟨t.board, s⟩).world.emit
          (Tree.tickEvent f (m.tick f t.root ⟨t.board, s⟩).status)))
      (t'.warnIfFailing m' f' (m.tick f t.root ⟨t.board, s⟩).status
        (m'.tick f' t'.root ⟨t'.board, s'⟩).node
        ((m'.tick f' t'.root ⟨t'.board, s'⟩).world.emit
          (Tree.tickEvent f' (m.tick f t.root ⟨t.board, s⟩).status))) := by
    simp only [Tree.warnIfFailing, ite_and, hlast, h.name ho.node, hf.tick, Tree.tickEvent]
    split
    · split
      · exact hevent.warn hwarns _ _
      · exact hevent
    · exact hevent
  unfold Tree.tick
  dsimp only
  rw [ho.status]
  exact ⟨rfl, ⟨ho.node, hw.board, rfl, by rw [hticks], hwarns⟩, hw.stage⟩

/-- A reset keeps trees together. -/
theorem Steps.resetTree (h : K.Steps R m m') {t t' : Tree N} (ht : K.Trees R t t') :
    K.Trees R (t.reset m) (t'.reset m') := by
  obtain ⟨hroot, hboard, hlast, hticks, hwarns⟩ := ht
  exact ⟨h.reset hroot, hboard, rfl, hticks, hwarns⟩

/-- Writing a handle, or removing it, keeps blackboards together. -/
theorem boards_setOrRemove {α : Type} [Slot α] {b b' : Blackboard} (hb : K.boards b b')
    (key : Key α) (hkey : K.slots key.name) (hget : b'.get? key = b.get? key) (a : Option α) :
    K.boards (b.setOrRemove key a) (b'.setOrRemove key a) := by
  cases a with
  | some a => exact K.put hb hkey _
  -- the slot is removed on both sides or on neither, as both read the same
  | none =>
    simp only [Blackboard.setOrRemove, Blackboard.remove, hget]
    split
    · exact K.removeName hb hkey
    · exact hb

/-- Patterns that go together bear the same name. -/
theorem Patterns.name_eq {p p' : Pattern N G} (hp : K.Patterns R p p') : p'.name = p.name := by
  cases hp
  assumption

/-- The same situation is written on both blackboards. -/
theorem Patterns.briefedBoard {p p' : Pattern N G} (hp : K.Patterns R p p') {s s' : Situation}
    (hs : K.Situations s s') : K.boards (p.briefedBoard s) (p'.briefedBoard s') := by
  obtain ⟨-, ⟨-, hboard, -, -, -⟩, -, -, -, -, -⟩ := hp
  obtain ⟨henemy, htarget, hscene⟩ := K.slots_handles
  -- each handle is read off the blackboard that the one before left behind
  have h₁ := boards_setOrRemove hboard Keys.enemy henemy (K.handles hboard).1 s.enemy
  have h₂ := boards_setOrRemove h₁ Keys.target htarget (K.handles h₁).2.1 s.target
  have h₃ := boards_setOrRemove h₂ Keys.scene hscene (K.handles h₂).2.2 s.scene
  simp only [Pattern.briefedBoard, hs.enemy, hs.target, hs.scene]
  exact h₃

/-- The cooldown is over on both sides or on neither. -/
theorem Patterns.ready {p p' : Pattern N G} (hp : K.Patterns R p p') {f f' : Frame}
    (hf : K.Frames f f') : p'.ready f'.now = p.ready f.now := by
  obtain ⟨-, -, -, hcooldown, hused, -, -⟩ := hp
  have hremaining : p'.cooldownRemaining f'.now = p.cooldownRemaining f.now := by
    -- never started, or started on both sides with the delay between
    cases hp' : p.lastUsed with
    | none =>
      rw [hp'] at hused
      cases hu : p'.lastUsed with
      | none => simp only [Pattern.cooldownRemaining, hp', hu]
      | some b => rw [hu] at hused; cases hused
    | some a =>
      rw [hp'] at hused
      cases hu : p'.lastUsed with
      | none => rw [hu] at hused; cases hused
      | some b =>
        rw [hu] at hused
        cases hused with
        | some hab =>
          have he := hf.elapsedSince hab
          simp only [Frame.elapsedSince] at he
          simp only [Pattern.cooldownRemaining, hp', hu, hcooldown, he]
  rw [Pattern.ready, Pattern.ready, hremaining]

/-- **A pattern may be started on both sides or on neither**, and asking does the same. -/
theorem Patterns.eligible {p p' : Pattern N G} (hp : K.Patterns R p p') {s s' : Situation}
    (hs : K.Situations s s') (g : G) : p'.eligible s' g = p.eligible s g := by
  -- the condition is asked even if the cooldown is not over, as it may change the game
  have hready := hp.ready hs.frame
  obtain ⟨-, -, -, -, -, hcondition, hasked⟩ := hp
  have hpermitted : p'.permitted s' g = p.permitted s g := by
    unfold Pattern.permitted
    rw [hcondition]
    cases hc : p.condition with
    | none => rfl
    | some c => exact hasked c hc hs g
  rw [Pattern.eligible, Pattern.eligible, hready, hpermitted]

/-- **A pattern keeps up**, by a tick of its tree. -/
theorem Steps.pattern (h : K.Steps R m m') {p p' : Pattern N G} (hp : K.Patterns R p p')
    {s s' : Situation} (hs : K.Situations s s') {stage stage' : Stage G}
    (hstage : K.stages stage stage') :
    (p'.tick m' s' stage').1 = (p.tick m s stage).1 ∧
    K.Patterns R (p.tick m s stage).2.1 (p'.tick m' s' stage').2.1 ∧
    K.stages (p.tick m s stage).2.2 (p'.tick m' s' stage').2.2 := by
  have hbriefed := hp.briefedBoard hs
  obtain ⟨hname, ⟨hroot, -, hlast, hticks, hwarns⟩, hpriority, hcooldown, hused, hcondition,
    hasked⟩ := hp
  -- the private blackboard is briefed anew on each side, and the rest is as it was
  have hbriefedTree : K.Trees R { p.tree with board := p.briefedBoard s }
      { p'.tree with board := p'.briefedBoard s' } :=
    ⟨hroot, hbriefed, hlast, hticks, hwarns⟩
  obtain ⟨hstatus, htree, hstage'⟩ :=
    h.tree (hs.frame.salted (nameSalt p.name)) hbriefedTree hstage
  simp only [Pattern.tick, hname]
  exact ⟨hstatus, ⟨rfl, htree, hpriority, hcooldown, hused, hcondition, hasked⟩, hstage'⟩

/-! ## Repertoires -/

/-- Looking up an archetype finds groups that are alike, or none on either side. -/
theorem Repertoires.group {r r' : Repertoire N G} (hr : K.Repertoires R r r')
    (archetype : String) :
    Option.Rel (List.Forall₂ (K.Patterns R)) (r.groups.get? archetype)
      (r'.groups.get? archetype) := by
  -- the names are the same, so a look-up stops at the same entry
  obtain ⟨hgroups⟩ := hr
  unfold NameMap.Raw.get?
  generalize r.groups.entries = es at hgroups ⊢
  generalize r'.groups.entries = es' at hgroups ⊢
  induction hgroups with
  | nil => exact .none
  | cons hg _ ih =>
    obtain ⟨hpatterns⟩ := hg
    unfold NameMap.Raw.lookup
    split
    · exact .some hpatterns
    · exact ih

/-- The patterns of an archetype go together. -/
theorem Repertoires.available {r r' : Repertoire N G} (hr : K.Repertoires R r r')
    (archetype : String) :
    List.Forall₂ (K.Patterns R) (r.available archetype) (r'.available archetype) := by
  have hgroup := hr.group archetype
  unfold Repertoire.available
  generalize r.groups.get? archetype = g at hgroup ⊢
  generalize r'.groups.get? archetype = g' at hgroup ⊢
  cases hgroup with
  | none => exact .nil
  | some hps => exact hps

/-- Looking for a name finds patterns that go together, or none on either side. -/
theorem find?_patterns {ps ps' : List (Pattern N G)} (hps : List.Forall₂ (K.Patterns R) ps ps')
    (name : String) :
    Option.Rel (K.Patterns R) (ps.find? (·.name = name)) (ps'.find? (·.name = name)) := by
  induction hps with
  | nil => exact .none
  | @cons p p' _ _ hp _ ih =>
    -- the names are the same, so the search stops at the same pattern
    by_cases hn : p.name = name
    · rw [List.find?_cons_of_pos (by simpa using hn),
        List.find?_cons_of_pos (by simpa [hp.name_eq] using hn)]
      exact .some hp
    · rw [List.find?_cons_of_neg (by simpa using hn),
        List.find?_cons_of_neg (by simpa [hp.name_eq] using hn)]
      exact ih

/-- **A pattern is found on both sides or missed for the same reason.** -/
theorem Repertoires.find {r r' : Repertoire N G} (hr : K.Repertoires R r r')
    (archetype name : String) :
    (∃ e, r.find archetype name = .error e ∧ r'.find archetype name = .error e) ∨
    ∃ p p', r.find archetype name = .ok p ∧ r'.find archetype name = .ok p' ∧
      K.Patterns R p p' := by
  have hgroup := hr.group archetype
  unfold Repertoire.find
  generalize r.groups.get? archetype = g at hgroup ⊢
  -- the archetype is missing on both sides, or neither
  generalize r'.groups.get? archetype = g' at hgroup ⊢
  cases hgroup with
  | none => exact .inl ⟨_, rfl, rfl⟩
  | @some ps ps' hps =>
    have hfound := find?_patterns hps name
    dsimp only
    generalize ps.find? (·.name = name) = q at hfound ⊢
    generalize ps'.find? (·.name = name) = q' at hfound ⊢
    cases hfound with
    | none => exact .inl ⟨_, rfl, rfl⟩
    | some hp => exact .inr ⟨_, _, rfl, rfl, hp⟩

/-- Changing the first pattern of a name alike keeps lists alike. -/
theorem changeFirst_patterns {ps ps' : List (Pattern N G)}
    (hps : List.Forall₂ (K.Patterns R) ps ps') (name : String)
    {c c' : Pattern N G → Pattern N G}
    (hc : ∀ p p', K.Patterns R p p' → K.Patterns R (c p) (c' p')) :
    List.Forall₂ (K.Patterns R) (Repertoire.changeFirst name c ps)
      (Repertoire.changeFirst name c' ps') := by
  induction hps with
  | nil => exact .nil
  | @cons p p' _ _ hp hps ih =>
    simp only [Repertoire.changeFirst, hp.name_eq]
    -- the pattern of that name is changed on both sides, with the others as they were
    split
    · exact .cons (hc _ _ hp) hps
    · exact .cons hp ih

/-- Changing one pattern alike keeps repertoires alike. -/
theorem Repertoires.modify {r r' : Repertoire N G} (hr : K.Repertoires R r r')
    (archetype name : String) {c c' : Pattern N G → Pattern N G}
    (hc : ∀ p p', K.Patterns R p p' → K.Patterns R (c p) (c' p')) :
    K.Repertoires R (r.modify archetype name c) (r'.modify archetype name c') := by
  obtain ⟨hgroups⟩ := hr
  refine ⟨?_⟩
  show List.Forall₂ (K.Groups R) (NameMap.Raw.modifyEntry archetype _ _)
    (NameMap.Raw.modifyEntry archetype _ _)
  generalize r.groups.entries = es at hgroups ⊢
  generalize r'.groups.entries = es' at hgroups ⊢
  induction hgroups with
  | nil => exact .nil
  | cons hg hgs ih =>
    obtain ⟨hps⟩ := hg
    unfold NameMap.Raw.modifyEntry
    split
    · exact .cons ⟨changeFirst_patterns hps name hc⟩ hgs
    · exact .cons ⟨hps⟩ ih

/-- At the same place stand patterns that are alike, or none on either side. -/
theorem getElem?_patterns {ps ps' : List (Pattern N G)} (hps : List.Forall₂ (K.Patterns R) ps ps')
    (place : Nat) : Option.Rel (K.Patterns R) ps[place]? ps'[place]? := by
  induction hps generalizing place with
  | nil => exact .none
  | cons hp _ ih =>
    cases place with
    | zero => exact .some hp
    | succ place => exact ih place

/-- **The same place is found on both sides**, and asking for it does the same to the game. -/
theorem bestFrom_patterns {s s' : Situation} (hs : K.Situations s s')
    {ps ps' : List (Pattern N G)} (hps : List.Forall₂ (K.Patterns R) ps ps') (i : Nat)
    (best : Option (Nat × Int32)) (g : G) :
    Repertoire.bestFrom s' i ps' best g = Repertoire.bestFrom s i ps best g := by
  induction hps generalizing i best g with
  | nil => rfl
  | @cons p p' _ _ hp _ ih =>
    -- priorities are the same, and so are the answers to whether a pattern may be started
    have hpriority : p'.priority = p.priority := by
      obtain ⟨-, -, hpriority, -, -, -, -⟩ := hp
      exact hpriority
    simp only [Repertoire.bestFrom, hp.eligible hs, hpriority, ih]

/-- **The same pattern is selected on both sides**, and asking for it does the same to the game. -/
theorem Repertoires.select {r r' : Repertoire N G} (hr : K.Repertoires R r r')
    (archetype : String) {s s' : Situation} (hs : K.Situations s s') (g : G) :
    Option.Rel (K.Patterns R) (r.select archetype s g).1 (r'.select archetype s' g).1 ∧
    (r'.select archetype s' g).2 = (r.select archetype s g).2 := by
  have hps := hr.available archetype
  have hplace : r'.bestPlace archetype s' g = r.bestPlace archetype s g := by
    unfold Repertoire.bestPlace
    rw [bestFrom_patterns hs hps]
  unfold Repertoire.select
  rw [hplace]
  obtain ⟨place, g⟩ := r.bestPlace archetype s g
  refine ⟨?_, rfl⟩
  cases place with
  | none => exact .none
  | some place => exact getElem?_patterns hps place

/-! ## The leaf that drives a repertoire -/

/-- Going on with a pattern, on both sides alike. -/
theorem Steps.resume (h : K.Steps R m m') {r r' : Repertoire N G} (hr : K.Repertoires R r r')
    (archetype name : String) {s s' : Situation} (hs : K.Situations s s') {stage stage' : Stage G}
    (hstage : K.stages stage stage') :
    K.Results R (r.resume m archetype name s stage) (r'.resume m' archetype name s' stage') := by
  unfold Repertoire.resume
  obtain ⟨e, he, he'⟩ | ⟨p, p', hp, hp', hpp⟩ := hr.find archetype name
  · rw [he, he']
    exact .error
  · obtain ⟨hstatus, hpattern, hstage'⟩ := h.pattern hpp hs hstage
    rw [hp, hp']
    simp only [hstatus]
    exact .ok (hr.modify archetype name fun _ _ _ => hpattern) hstage'

/-- Starting a pattern, on both sides alike. -/
theorem Steps.execute (h : K.Steps R m m') {r r' : Repertoire N G} (hr : K.Repertoires R r r')
    (archetype name : String) {s s' : Situation} (hs : K.Situations s s') {stage stage' : Stage G}
    (hstage : K.stages stage stage') :
    K.Results R (r.execute m archetype name s stage) (r'.execute m' archetype name s' stage') := by
  unfold Repertoire.execute
  obtain ⟨e, he, he'⟩ | ⟨p, p', hp, hp', hpp⟩ := hr.find archetype name
  · rw [he, he']
    exact .error
  · -- the only stamp that is made here: the present, on both sides
    have hmarked : K.Patterns R (p.markUsed s.frame.now) (p'.markUsed s'.frame.now) := by
      obtain ⟨hname, htree, hpriority, hcooldown, -, hcondition, hasked⟩ := hpp
      exact ⟨hname, htree, hpriority, hcooldown, .some hs.frame.now, hcondition, hasked⟩
    obtain ⟨hstatus, hpattern, hstage'⟩ := h.pattern hmarked hs hstage
    rw [hp, hp']
    simp only [hstatus]
    exact .ok (hr.modify archetype name fun _ _ _ => hpattern) hstage'

/-- Taking in what came of a pattern, on both sides alike. -/
theorem Selections.settle {sel sel' : Selection N G} (hsel : K.Selections R sel sel')
    {f f' : Frame} (hf : K.Frames f f') (name : String) {w w' : World G} (hw : K.Worlds w w')
    {x x' : Except PatternError (Status × Repertoire N G × Stage G)} (hx : K.Results R x x') :
    K.Outcomes (K.Selections R) (sel.settle f name w x) (sel'.settle f' name w' x') := by
  obtain ⟨hlost, hrepertoire⟩ := hsel
  cases hx with
  -- the pattern was lost on both sides, which may be told
  | error => exact ⟨rfl, ⟨hlost, hrepertoire⟩, hw.notify (hlost _)⟩
  | @ok status r r' s s' hr hs =>
    have hworld : K.Worlds ⟨w.board, s⟩ ⟨w'.board, s'⟩ := ⟨hw.board, hs⟩
    refine ⟨rfl, ⟨hlost, hr⟩, ?_⟩
    simp only [Selection.settle, Selection.executeEvent, hf.tick]
    exact hworld.emit _

/-- **The leaf keeps up**: it goes on with the same pattern, or starts the same one. -/
theorem Steps.selection (h : K.Steps R m m') {f f' : Frame} (hf : K.Frames f f')
    {sel sel' : Selection N G} (hsel : K.Selections R sel sel') {w w' : World G}
    (hw : K.Worlds w w') :
    K.Outcomes (K.Selections R) (sel.tick m f w) (sel'.tick m' f' w') := by
  have hs := hw.situation hf
  obtain @⟨archetype, r, r', running, lastChoice, hlost, hr⟩ := hsel
  cases running with
  | some name =>
    exact Selections.settle ⟨hlost, hr⟩ hf name hw (h.resume hr archetype name hs hw.stage)
  | none =>
    obtain ⟨hbest, hgame⟩ := hr.select archetype hs w.game
    -- asking the conditions may have changed the game, alike on both sides
    have hasked := hw.mapGame fun _ => (r.select archetype (Situation.ofBoard f w.board) w.game).2
    simp only [Selection.tick, hw.game, hgame, Selection.selectEvent, hf.tick]
    generalize (r.select archetype (Situation.ofBoard f w.board) w.game).1 = best at hbest ⊢
    generalize (r'.select archetype (Situation.ofBoard f' w'.board) w.game).1 = best' at hbest ⊢
    cases hbest with
    | none => exact ⟨rfl, ⟨hlost, hr⟩, hasked.emit _⟩
    | @some p p' hp =>
      have hchosen := hasked.emit { tick := f.tick, tag := patternSelectTag, label := some p.name }
      dsimp only
      rw [hp.name_eq]
      exact Selections.settle ⟨hlost, hr⟩ hf p.name hchosen
        (h.execute hr archetype p.name hs hchosen.stage)

/-- A reset keeps leaves that drive patterns together. -/
theorem Steps.resetSelection (h : K.Steps R m m') {sel sel' : Selection N G}
    (hsel : K.Selections R sel sel') : K.Selections R (sel.reset m) (sel'.reset m') := by
  obtain @⟨archetype, r, r', running, lastChoice, hlost, hr⟩ := hsel
  cases running with
  | none => exact ⟨hlost, hr⟩
  | some name =>
    -- the pattern is reset where it is kept, in the repertoire
    refine ⟨hlost, hr.modify archetype name fun p p' hp => ?_⟩
    obtain ⟨hname, htree, hpriority, hcooldown, hused, hcondition, hasked⟩ := hp
    exact ⟨hname, h.resetTree htree, hpriority, hcooldown, hused, hcondition, hasked⟩

/-- Resetting such a leaf does the same to the game on both sides. -/
theorem Steps.onResetSelection (h : K.Steps R m m') {sel sel' : Selection N G}
    (hsel : K.Selections R sel sel') : sel'.onReset m' = sel.onReset m := by
  obtain @⟨archetype, r, r', running, lastChoice, -, hr⟩ := hsel
  funext g
  cases running with
  -- nothing is running, so nothing is reset
  | none => rfl
  | some name =>
    have hfound := find?_patterns (hr.available archetype) name
    simp only [Selection.onReset, Option.bind_some, Repertoire.get?]
    generalize (r.available archetype).find? (·.name = name) = o at hfound ⊢
    generalize (r'.available archetype).find? (·.name = name) = o' at hfound ⊢
    cases hfound with
    | none => rfl
    | some hp =>
      obtain ⟨-, ⟨hroot, -, -, -, -⟩, -, -, -, -, -⟩ := hp
      simp only [Tree.onReset, h.onReset hroot]

end Coupling

end Instinct
