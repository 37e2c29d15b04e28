import Instinct.Node.Kinds
import Instinct.Proofs.Coupling.Exact
import Instinct.Proofs.Repertoire

/-! # Patterns are kept apart

Starting a pattern or going on with it is felt by that pattern and by the game, and by nothing else:
not by the other patterns of its repertoire, and not by the blackboard of the tree that holds it.

* **`Repertoire.Swaps archetype p p' r r'`** — `r'` is `r` with `p'` in the place of `p`.
* **`Blackboard.Briefs s b b'`** — `b'` is `b` with a situation written on it, which takes the place
  of whatever was told of an earlier one.
* **`Repertoire.Confined`** — what a tick of one pattern of a repertoire leaves behind.
* **`Blackboard.record`** — a blackboard with events recorded in its log, the one thing that a leaf
  which drives patterns does to it.
* **`Node.patterns_isolated`** — all of this for patterns made of nodes. -/

namespace Instinct

variable {N G : Type}

/-- Two relations along lists, one after the other. -/
theorem forall₂_comp {A B C : Type} {R : A → B → Prop} {S : B → C → Prop} {T : A → C → Prop}
    (hT : ∀ a b c, R a b → S b c → T a c) {as : List A} {bs : List B} {cs : List C}
    (h : List.Forall₂ R as bs) (h' : List.Forall₂ S bs cs) : List.Forall₂ T as cs := by
  induction h generalizing cs with
  | nil =>
    cases h'
    exact .nil
  | cons hab _ ih =>
    obtain ⟨c, cs, hbc, hcs, rfl⟩ := List.forall₂_cons_left_iff.mp h'
    exact .cons (hT _ _ _ hab hbc) (ih hcs)

/-! ## One pattern in the place of another -/

namespace Repertoire

/-- **`p'` in the place of `p`**, the first of its name among the patterns of an archetype. Every
other pattern is where it was and as it was. -/
structure Swaps (archetype : String) (p p' : Pattern N G) (r r' : Repertoire N G) : Prop where
  archetypes : r'.archetypes = r.archetypes
  elsewhere : ∀ a, a ≠ archetype → r'.available a = r.available a
  here : ∃ before after, r.available archetype = before ++ p :: after ∧
    r'.available archetype = before ++ p' :: after ∧ ∀ q ∈ before, q.name ≠ p.name

variable {r r' : Repertoire N G} {archetype name : String} {p p' : Pattern N G}
  {f : Pattern N G → Pattern N G}

/-- The pattern that is found by its name, and those before and behind it. -/
theorem changeFirst_of_find? {ps : List (Pattern N G)} (h : ps.find? (·.name = name) = some p) :
    ∃ before after, ps = before ++ p :: after ∧
      changeFirst name f ps = before ++ f p :: after ∧ ∀ q ∈ before, q.name ≠ name := by
  induction ps with
  | nil => cases h
  -- the first pattern of the name is here, or it is found behind this one
  | cons q ps ih =>
    by_cases hq : q.name = name
    · rw [List.find?_cons_of_pos (by simpa using hq)] at h
      obtain rfl := Option.some.inj h
      exact ⟨[], ps, rfl, if_pos hq, fun _ ho => nomatch ho⟩
    · rw [List.find?_cons_of_neg (by simpa using hq)] at h
      obtain ⟨before, after, hps, hchange, hbefore⟩ := ih h
      refine ⟨q :: before, after, congrArg (q :: ·) hps, ?_, List.forall_mem_cons.mpr ⟨hq, hbefore⟩⟩
      rw [changeFirst, if_neg hq, hchange]
      rfl

/-- Where no pattern bears the name, none is changed. -/
theorem changeFirst_of_find?_eq_none {ps : List (Pattern N G)}
    (h : ps.find? (·.name = name) = none) : changeFirst name f ps = ps := by
  induction ps with
  | nil => rfl
  | cons q ps ih =>
    rw [List.find?_eq_none, List.forall_mem_cons] at h
    obtain ⟨hq, hps⟩ := h
    rw [changeFirst, if_neg (by simpa using hq), ih (List.find?_eq_none.mpr hps)]

/-- **A change by name** puts the changed pattern in the place of the one that is found. -/
theorem swaps_modify (h : r.get? archetype name = some p) :
    Swaps archetype p (f p) r (r.modify archetype name f) where
  archetypes := NameMap.Raw.names_modify r.groups archetype _
  elsewhere _ ha := available_modify_of_ne ha f
  here := by
    obtain ⟨before, after, hps, hchange, hbefore⟩ := changeFirst_of_find? (f := f) h
    have hname : p.name = name := (mem_available_of_get? h).2
    refine ⟨before, after, hps, ?_, hname ▸ hbefore⟩
    rw [available_modify_self, hchange]

/-- A change by a name that nothing bears changes nothing. -/
theorem modify_of_get?_eq_none (h : r.get? archetype name = none) :
    r.modify archetype name f = r := by
  refine congrArg Repertoire.mk (NameMap.Raw.modify_eq_self fun ps hps => ?_)
  have havailable : r.available archetype = ps := by
    rw [available, Option.mem_def.mp hps, Option.getD_some]
  rw [get?, havailable] at h
  exact changeFirst_of_find?_eq_none h

/-- What a name finds after one pattern took the place of another. -/
theorem Swaps.get? (h : Swaps archetype p p' r r') (hname : p'.name = p.name) (a k : String) :
    r'.get? a k = if a = archetype ∧ k = p.name then some p' else r.get? a k := by
  -- in another archetype nothing has changed at all
  by_cases ha : a = archetype
  · subst ha
    obtain ⟨before, after, hr, hr', hbefore⟩ := h.here
    unfold Repertoire.get?
    rw [hr, hr', List.find?_append, List.find?_append]
    by_cases hk : k = p.name
    · -- in front of the place no pattern has the name, and so the new one is found there
      subst hk
      have hnone : before.find? (·.name = p.name) = none :=
        List.find?_eq_none.mpr (by simpa using hbefore)
      rw [hnone, if_pos ⟨rfl, rfl⟩, List.find?_cons_of_pos (by simpa using hname)]
      rfl
    · have hp : p.name ≠ k := Ne.symm hk
      have hp' : p'.name ≠ k := hname.symm ▸ hp
      rw [if_neg fun hand => hk hand.2, List.find?_cons_of_neg (by simpa using hp'),
        List.find?_cons_of_neg (by simpa using hp)]
  · rw [if_neg fun hand => ha hand.1, Repertoire.get?, Repertoire.get?, h.elsewhere a ha]

/-- Patterns that are replaced by others of their names keep the names. -/
theorem names_of_forall₂ {R : Pattern N G → Pattern N G → Prop}
    (hR : ∀ p p', R p p' → p'.name = p.name) {ps ps' : List (Pattern N G)}
    (h : List.Forall₂ R ps ps') : ps'.map (·.name) = ps.map (·.name) := by
  induction h with
  | nil => rfl
  | cons hp _ ih => rw [List.map_cons, List.map_cons, hR _ _ hp, ih]

/-- Along the lists each pattern is related to the one that is now in its place. -/
theorem Swaps.forall₂ (h : Swaps archetype p p' r r') {a : String}
    {R : Pattern N G → Pattern N G → Prop} (hsame : ∀ q, R q q) (hp : a = archetype → R p p') :
    List.Forall₂ R (r.available a) (r'.available a) := by
  have hall (qs : List (Pattern N G)) : List.Forall₂ R qs qs :=
    List.forall₂_same.mpr fun q _ => hsame q
  -- in the archetype itself the lists differ in one place
  by_cases ha : a = archetype
  · subst ha
    obtain ⟨before, after, hr, hr', -⟩ := h.here
    rw [hr, hr']
    exact List.rel_append (hall before) (.cons (hp rfl) (hall after))
  · rw [h.elsewhere a ha]
    exact hall _

/-- What is fixed about patterns stays, if it is the same for the two that are swapped. -/
theorem Swaps.rules (h : Swaps archetype p p' r r') (hp : p'.rules = p.rules) :
    r'.rules = r.rules := by
  funext a
  unfold Repertoire.rules
  by_cases ha : a = archetype
  · subst ha
    obtain ⟨before, after, hr, hr', -⟩ := h.here
    rw [hr, hr', List.map_append, List.map_append, List.map_cons, List.map_cons, hp]
  · rw [h.elsewhere a ha]

end Repertoire

/-! ## The blackboard of a pattern that is ticked -/

namespace Blackboard

/-- **A situation written on a blackboard.** Its slots read as what the situation holds, and as
nothing where it holds nothing, whatever was left in them; every other slot is as it was. -/
structure Briefs (s : Situation) (b b' : Blackboard) : Prop where
  enemy : b'.get? Keys.enemy = s.enemy
  target : b'.get? Keys.target = s.target
  scene : b'.get? Keys.scene = s.scene
  others : ∀ name, name ≠ Keys.enemy.name → name ≠ Keys.target.name → name ≠ Keys.scene.name →
    b'.value? name = b.value? name

/-- A blackboard with events recorded in its log, if it has one. -/
def record (b : Blackboard) (events : List TraceEvent) : Blackboard :=
  b.modify Keys.traceLog fun log => events.foldl .push log

variable {b : Blackboard} {events : List TraceEvent}

/-- Recording nothing does nothing. -/
theorem record_nil (b : Blackboard) : b.record [] = b := modify_eq_self fun _ _ => rfl

/-- Without a log nothing is recorded. -/
theorem record_of_no_log (h : b.get? Keys.traceLog = none) : b.record events = b :=
  modify_eq_self fun _ hlog => nomatch h.symm.trans hlog

/-- What is recorded in two steps is recorded in one. -/
theorem record_append (b : Blackboard) (events events' : List TraceEvent) :
    (b.record events).record events' = b.record (events ++ events') := by
  refine (b.modify_modify Keys.traceLog _ _).trans (congrArg (b.modify Keys.traceLog) ?_)
  funext log
  exact List.foldl_append.symm

/-- Recording is seen in the slot of the log only. -/
theorem value?_record {name : String} (h : name ≠ Keys.traceLog.name) :
    (b.record events).value? name = b.value? name := by
  rw [record, value?_modify, if_neg (Ne.symm h)]

end Blackboard

/-- **The blackboard that a pattern's tree is ticked on.** -/
theorem Pattern.briefs_briefedBoard (p : Pattern N G) (s : Situation) :
    p.tree.board.Briefs s (p.briefedBoard s) where
  -- each of the three slots is written once and then passed over
  enemy := by
    unfold briefedBoard
    rw [Blackboard.get?_setOrRemove_of_ne _ (by decide),
      Blackboard.get?_setOrRemove_of_ne _ (by decide), Blackboard.get?_setOrRemove]
  target := by
    unfold briefedBoard
    rw [Blackboard.get?_setOrRemove_of_ne _ (by decide), Blackboard.get?_setOrRemove]
  scene := Blackboard.get?_setOrRemove _ _ _
  others name henemy htarget hscene := by
    unfold briefedBoard
    rw [Blackboard.value?_setOrRemove_of_ne _ hscene.symm,
      Blackboard.value?_setOrRemove_of_ne _ htarget.symm,
      Blackboard.value?_setOrRemove_of_ne _ henemy.symm]

/-! ## Ticking one pattern of a repertoire -/

namespace Repertoire

variable {m : Machine N G} {r : Repertoire N G} {archetype name : String} {s : Situation}
  {stage : Stage G} {result : Status × Repertoire N G × Stage G} {e : PatternError}

/-- **What a tick of one pattern leaves behind.** The pattern was found by its name, its tree was
ticked on its own blackboard with the situation written on it, and it is the only one that is not as
it was. Besides its tree only the time of its last start may have changed. -/
def Confined (m : Machine N G) (r : Repertoire N G) (archetype name : String) (s : Situation)
    (stage : Stage G) (stamp : Option Duration → Option Duration)
    (result : Status × Repertoire N G × Stage G) : Prop :=
  ∃ p board, r.get? archetype name = some p ∧ p.tree.board.Briefs s board ∧
    let after := { p.tree with board }.tick m (s.frame.salted (nameSalt name)) stage
    result.1 = after.1 ∧ result.2.2 = after.2.2 ∧
      Swaps archetype p { p with tree := after.2.1, lastUsed := stamp p.lastUsed } r result.2.1 ∧
      result.2.1.rules = r.rules

/-- **A tick of the pattern that is found** is confined to it, whatever time it is stamped with. -/
theorem confined_tick {p : Pattern N G} (hp : r.get? archetype name = some p)
    (stamp : Option Duration → Option Duration) :
    let t := Pattern.tick m { p with lastUsed := stamp p.lastUsed } s stage
    r.Confined m archetype name s stage stamp
      (t.1, r.modify archetype name fun _ => t.2.1, t.2.2) := by
  intro t
  have hswaps := swaps_modify (f := fun _ => t.2.1) hp
  obtain rfl := (mem_available_of_get? hp).2
  exact ⟨p, p.briefedBoard s, hp, p.briefs_briefedBoard s, rfl, rfl, hswaps, hswaps.rules rfl⟩

/-- **Going on with a pattern** leaves the time of its last start. -/
theorem confined_resume (h : r.resume m archetype name s stage = .ok result) :
    r.Confined m archetype name s stage id result := by
  obtain ⟨p, hp, rfl⟩ := eq_of_resume h
  exact confined_tick hp id

/-- **Starting a pattern** stamps it with the present time. -/
theorem confined_execute (h : r.execute m archetype name s stage = .ok result) :
    r.Confined m archetype name s stage (fun _ => some s.frame.now) result := by
  obtain ⟨p, hp, rfl⟩ := eq_of_execute h
  exact confined_tick hp fun _ => some s.frame.now

/-- Where a pattern can be neither gone on with nor started, there is none of that name. -/
theorem get?_eq_none_of_error
    (h : r.resume m archetype name s stage = .error e ∨
      r.execute m archetype name s stage = .error e) : r.get? archetype name = none := by
  cases hp : r.get? archetype name with
  | none => rfl
  | some p =>
    rcases h with h | h
    · cases (resume_of_get? hp m s stage).symm.trans h
    · cases (execute_of_get? hp m s stage).symm.trans h

end Repertoire

/-! ## The blackboard of the tree around the patterns -/

namespace Selection

variable {m : Machine N G} {sel : Selection N G} {frame : Frame} {w : World G} {name : String}

/-- **Taking in what a pattern's tick gave** records an execution, and an error nothing. -/
theorem board_settle (sel : Selection N G) (frame : Frame) (name : String) (w : World G)
    (result : Except PatternError (Status × Repertoire N G × Stage G)) :
    ∃ events, (sel.settle frame name w result).world.board = w.board.record events := by
  cases result with
  | error e => exact ⟨[], w.board.record_nil.symm⟩
  | ok result => exact ⟨[executeEvent frame name result.1], rfl⟩

/-- **A tick of the leaf records events** on the blackboard and does nothing else to it. -/
theorem board_tick (m : Machine N G) (frame : Frame) (sel : Selection N G) (w : World G) :
    ∃ events, (sel.tick m frame w).world.board = w.board.record events := by
  unfold tick
  dsimp only
  split
  -- a running pattern is gone on with, and only an idle leaf selects
  · exact board_settle sel frame _ w _
  · split
    · exact ⟨[selectEvent frame none], rfl⟩
    · next p _ =>
      obtain ⟨events, hevents⟩ := board_settle { sel with lastChoice := some p.name } frame p.name
        (World.emit _ (selectEvent frame (some p.name))) _
      exact ⟨selectEvent frame (some p.name) :: events,
        hevents.trans (w.board.record_append [_] events)⟩

/-- A tick that finds the pattern in progress gone leaves all others and the game alone. -/
theorem tick_of_lost {e : PatternError} (hrunning : sel.running = some name)
    (hlost : sel.repertoire.resume m sel.archetype name (Situation.ofBoard frame w.board) w.stage =
      .error e) :
    sel.tick m frame w = ⟨.failure, { sel with running := none }, w.notify (.patternLost e)⟩ := by
  unfold tick
  simp only [hrunning, hlost, settle]

end Selection

/-! ## Patterns made of nodes -/

namespace Node

/-- **Patterns are kept apart.** Whatever a repertoire holds: to go on with a pattern or to start it
changes that pattern alone, whose tree is ticked on a blackboard that tells of the situation at hand
and of no other; where there is no such pattern nothing changes. And a tick of a leaf that drives
patterns does nothing to the blackboard around it but to record events in the log, if there is
one. -/
theorem patterns_isolated (r : Repertoire (Node G) G) (archetype name : String) (s : Situation)
    (stage : Stage G) :
    (∀ result, r.resume asMachine archetype name s stage = .ok result →
      r.Confined asMachine archetype name s stage id result) ∧
    (∀ result, r.execute asMachine archetype name s stage = .ok result →
      r.Confined asMachine archetype name s stage (fun _ => some s.frame.now) result) ∧
    (∀ e, r.resume asMachine archetype name s stage = .error e ∨
        r.execute asMachine archetype name s stage = .error e →
      r.get? archetype name = none ∧ ∀ f, r.modify archetype name f = r) ∧
    ∀ title (sel : Selection (Node G) G) frame (w : World G),
      let o := (patterns title sel).tick frame w
      (∃ events, o.world.board = w.board.record events) ∧
      (∀ name, name ≠ Keys.traceLog.name → o.world.board.value? name = w.board.value? name) ∧
      (w.board.get? Keys.traceLog = none → o.world.board = w.board) ∧
      ∀ name e, sel.running = some name →
        sel.repertoire.resume asMachine sel.archetype name (.ofBoard frame w.board) w.stage =
          .error e →
        o.node = patterns title { sel with running := none } ∧ o.world.game = w.game := by
  refine ⟨fun _ => Repertoire.confined_resume, fun _ => Repertoire.confined_execute, ?_, ?_⟩
  · intro e he
    have hnone := Repertoire.get?_eq_none_of_error he
    exact ⟨hnone, fun _ => Repertoire.modify_of_get?_eq_none hnone⟩
  · intro title sel frame w o
    have ho : o = (sel.tick asMachine frame w).map (patterns title) :=
      tick_eq frame (patterns title sel) w
    obtain ⟨events, hevents⟩ := sel.board_tick asMachine frame w
    -- what was recorded is the only difference there is on the blackboard
    have hboard : o.world.board = w.board.record events := by rw [ho, ← hevents]; rfl
    refine ⟨⟨events, hboard⟩, fun name hname => ?_, fun hlog => ?_, fun name e hrunning hlost => ?_⟩
    · rw [hboard, Blackboard.value?_record hname]
    · rw [hboard, Blackboard.record_of_no_log hlog]
    · rw [ho, Selection.tick_of_lost hrunning hlost]
      exact ⟨rfl, rfl⟩

/-- A wolf without a target, one of whose patterns has left something else in the slot of the
target, and a leaf whose pattern in progress is gone. -/
theorem patterns_isolated_wolf :
    let board := Blackboard.empty.setNamed Keys.target.name true
    let bite : Pattern (Node Unit) Unit :=
      { name := "bite", tree := { root := .wait (.ofMillis 5), board } }
    let howl : Pattern (Node Unit) Unit := { name := "howl", tree := { root := .wait .zero } }
    let r : Repertoire (Node Unit) Unit := .ofPatterns "wolf" [bite, howl]
    let s : Situation := { frame := .atMillis 7, enemy := some ⟨3⟩ }
    let w : World Unit := ⟨board, { game := () }⟩
    let sel : Selection (Node Unit) Unit :=
      { archetype := "wolf", repertoire := r, running := some "claw" }
    let lost : PatternError := .unknownPattern "wolf" "claw"
    (∃ result, r.resume asMachine "wolf" "bite" s w.stage = .ok result ∧
      r.Confined asMachine "wolf" "bite" s w.stage id result) ∧
    (∃ result, r.execute asMachine "wolf" "bite" s w.stage = .ok result ∧
      r.Confined asMachine "wolf" "bite" s w.stage (fun _ => some s.frame.now) result) ∧
    r.execute asMachine "wolf" "claw" s w.stage = .error lost ∧ r.get? "wolf" "claw" = none ∧
    ((patterns none sel).tick s.frame w).world.board = board ∧
    ((patterns none sel).tick s.frame w).node = patterns none { sel with running := none } := by
  intro board bite howl r s w sel lost
  have hbite : r.get? "wolf" "bite" = some bite := rfl
  obtain ⟨resumed, hresumed⟩ := Repertoire.exists_resume hbite asMachine s w.stage
  obtain ⟨executed, hexecuted⟩ := Repertoire.exists_execute hbite asMachine s w.stage
  obtain ⟨hresume, hexecute, -, -⟩ := patterns_isolated r "wolf" "bite" s w.stage
  obtain ⟨-, -, herror, hleaf⟩ := patterns_isolated r "wolf" "claw" s w.stage
  obtain ⟨-, -, hquiet, hgone⟩ := hleaf none sel s.frame w
  exact ⟨⟨resumed, hresumed, hresume resumed hresumed⟩,
    ⟨executed, hexecuted, hexecute executed hexecuted⟩, rfl, (herror lost (.inr rfl)).1,
    hquiet rfl, (hgone "claw" lost rfl rfl).1⟩

end Node

end Instinct
