import Instinct.Proofs.Calls

/-! # The ticks of children in the order of time

Children that bear numbers write each of their ticks into one diary, which is kept beside the game
and out of the sight of all. So what a tick of a composite leaves in the diary tells which children
it has ticked and in which order.

* **`Note N G`** — a tick that was made, and the number of the child that was ticked.
* **`Machine.noting`** — machines that keep a diary; **`Machine.shows_noting`** — they do the same
  as without one.
* **`Composite.record`** — what one tick of a composite leaves in the diary.
* **`Walked`** — what a walk over children writes down; **`Composite.InOrder.walked_record`**.
* **`Composite.record_parallel`** — a parallel ticks all children in order.
* **`Composite.calls_perm_record`** — the diary tells of the same ticks as records of the children.
* **`Composite.record_sublist`** — no composite ticks a child twice or goes back to an earlier
  one. -/

namespace Instinct

variable {N G : Type}

/-! ## (1) Machines that keep a diary -/

/-- **A note in a diary**: a tick that was made, and the number of the child that was ticked. -/
structure Note (N G : Type) extends Call N G where
  number : Nat

namespace Note

/-- The child that was ticked, as it was before, with its number. -/
def child (e : Note N G) : N × Nat := (e.node, e.number)

/-- What the tick reported. -/
def status (m : Machine N G) (e : Note N G) : Status := (e.outcome m).status

end Note

/-- **A game beside a diary**, oldest note first. -/
structure Diary (N G : Type) where
  game : G
  notes : List (Note N G) := []

namespace World

/-- The world as it is without the diary. -/
def bare (w : World (Diary N G)) : World G where
  board := w.board
  stage := { game := w.game.game, notices := w.stage.notices, streamed := w.stage.streamed }

/-- The world with a diary beside the game. -/
def beside (w : World G) (notes : List (Note N G)) : World (Diary N G) where
  board := w.board
  stage := { game := { game := w.game, notes }
             notices := w.stage.notices, streamed := w.stage.streamed }

/-- The world beside a diary is the world. -/
@[simp] theorem bare_beside (w : World G) (notes : List (Note N G)) :
    (w.beside notes).bare = w := rfl

/-- The diary beside a world is the diary. -/
@[simp] theorem notes_beside (w : World G) (notes : List (Note N G)) :
    (w.beside notes).game.notes = notes := rfl

end World

namespace Machine

variable {m : Machine N G}

/-- **Machines that bear numbers and write down each of their ticks.** -/
def noting (m : Machine N G) : Machine (N × Nat) (Diary N G) where
  tick f n w :=
    let o := m.tick f n.1 w.bare
    ⟨o.status, (o.node, n.2), o.world.beside (w.game.notes ++ [⟨⟨f, n.1, w.bare⟩, n.2⟩])⟩
  reset n := (m.reset n.1, n.2)
  onReset n d := { d with game := m.onReset n.1 d.game }
  name n := m.name n.1

/-- **Writing down changes nothing.** -/
theorem shows_noting (m : Machine N G) : m.noting.Shows m Prod.fst World.bare where
  tick _ _ _ := rfl
  reset _ := rfl
  onReset _ _ := rfl

/-- Resets are not written down. -/
theorem notes_onResetAll (ns : List (N × Nat)) (d : Diary N G) :
    (m.noting.onResetAll ns d).notes = d.notes := by
  induction ns generalizing d with
  | nil => rfl
  | cons n ns ih => exact ih (m.noting.onReset n d)

end Machine

/-! ## (2) What a composite writes down -/

/-- **The ticks of the children** within one tick of a composite, in the order of time. Children are
numbered from zero. -/
def Composite.record (m : Machine N G) (f : Frame) (c : Composite) (cs : List N) (w : World G) :
    List (Note N G) :=
  (c.tick m.noting f cs.zipIdx (w.beside [])).world.game.notes

/-- **The tick that is written down** is the tick itself. -/
theorem Composite.tick_eq_noting (m : Machine N G) (f : Frame) (c : Composite) (cs : List N)
    (w : World G) :
    c.tick m f cs w =
      (c.tick m.noting f cs.zipIdx (w.beside [])).shown (Prod.map id (List.map Prod.fst))
        World.bare := by
  have hshown := m.shows_noting.composite f c cs.zipIdx (w.beside [])
  rwa [List.zipIdx_map_fst, World.bare_beside] at hshown

/-- **What a walk writes down**: one note for each child that it passed, and one for the child at
which it stopped. -/
inductive Walked (m : Machine N G) (goOn : Status) :
    List (N × Nat) → List (Note N G) → Status → Nat → Prop
  /-- There is no child left. -/
  | done : Walked m goOn [] [] goOn 0
  /-- This child was passed. -/
  | pass {ns es s passed} (e : Note N G) (status : e.status m = goOn)
      (rest : Walked m goOn ns es s passed) :
      Walked m goOn (e.child :: ns) (e :: es) s (passed + 1)
  /-- At this child the walk stopped. -/
  | stop {ns} (e : Note N G) (status : e.status m ≠ goOn) :
      Walked m goOn (e.child :: ns) [e] (e.status m) 0

section Loops

variable {m : Machine N G} {goOn s : Status} {f : Frame} {ns : List (N × Nat)}
  {es : List (Note N G)} {passed : Nat}

/-- What was ticked on a walk are children in their order. -/
theorem Walked.sublist (h : Walked m goOn ns es s passed) : (es.map Note.child).Sublist ns := by
  induction h with
  | done => exact .slnil
  | pass e _ _ ih => exact ih.cons_cons e.child
  | stop e _ => exact (List.nil_sublist _).cons_cons e.child

/-- A walk writes down the children it ticks, and their statuses lead it. -/
theorem walked_walk (m : Machine N G) (goOn : Status) (f : Frame) (ns : List (N × Nat))
    (w : World (Diary N G)) :
    ∃ es, (walk m.noting goOn f ns w).world.game.notes = w.game.notes ++ es ∧
      Walked m goOn ns es (walk m.noting goOn f ns w).status
        (walk m.noting goOn f ns w).passed := by
  induction ns generalizing w with
  | nil => exact ⟨[], (List.append_nil _).symm, .done⟩
  | cons n ns ih =>
    let e : Note N G := ⟨⟨f, n.1, w.bare⟩, n.2⟩
    have hnotes : (m.noting.tick f n w).world.game.notes = w.game.notes ++ [e] := rfl
    have hstatus : (m.noting.tick f n w).status = e.status m := rfl
    rw [walk]
    dsimp only
    -- the walk goes on past this child, or ends with it
    by_cases hgo : (m.noting.tick f n w).status = goOn
    · rw [if_pos hgo]
      obtain ⟨es, hes, hwalked⟩ := ih (m.noting.tick f n w).world
      refine ⟨e :: es, ?_, .pass e (hstatus ▸ hgo) hwalked⟩
      rw [hes, hnotes, List.append_assoc, List.singleton_append]
    · rw [if_neg hgo]
      exact ⟨[e], hnotes, .stop e (hstatus ▸ hgo)⟩

/-- Ticking all children writes down each of them, in order. -/
theorem notes_tickAll (m : Machine N G) (f : Frame) (ns : List (N × Nat))
    (w : World (Diary N G)) :
    ∃ es, (m.noting.tickAll f ns w).2.2.game.notes = w.game.notes ++ es ∧
      es.map Note.child = ns ∧ es.map (Note.status m) = (m.noting.tickAll f ns w).1 := by
  induction ns generalizing w with
  | nil => exact ⟨[], (List.append_nil _).symm, rfl, rfl⟩
  | cons n ns ih =>
    let e : Note N G := ⟨⟨f, n.1, w.bare⟩, n.2⟩
    have hnotes : (m.noting.tick f n w).world.game.notes = w.game.notes ++ [e] := rfl
    obtain ⟨es, hes, hchildren, hstatuses⟩ := ih (m.noting.tick f n w).world
    rw [Machine.tickAll]
    refine ⟨e :: es, ?_, congrArg (n :: ·) hchildren, congrArg (e.status m :: ·) hstatuses⟩
    rw [hes, hnotes, List.append_assoc, List.singleton_append]

/-- Ticking the child at one place writes down that child, or nothing if there is none. -/
theorem notes_tickAt (m : Machine N G) (f : Frame) (i : Nat) (ns : List (N × Nat))
    (w : World (Diary N G)) :
    ∃ es, (m.noting.tickAt f i ns w).world.game.notes = w.game.notes ++ es ∧
      (es.map Note.child).Sublist ns := by
  induction ns generalizing i with
  | nil =>
    rw [Machine.tickAt_nil]
    exact ⟨[], (List.append_nil _).symm, .slnil⟩
  | cons n ns ih =>
    cases i with
    | zero => exact ⟨[⟨⟨f, n.1, w.bare⟩, n.2⟩], rfl, (List.nil_sublist ns).cons_cons n⟩
    | succ i =>
      obtain ⟨es, hes, hsub⟩ := ih i
      exact ⟨es, hes, hsub.cons n⟩

end Loops

namespace Composite

variable (m : Machine N G) (f : Frame) (cs : List N) (w : World G)

/-- When a composite is done nothing more is written down. -/
theorem notes_conclude (c : Composite) (ns : List (N × Nat)) (status : Status)
    (w : World (Diary N G)) :
    (c.conclude m.noting ns status w).world.game.notes = w.game.notes :=
  m.notes_onResetAll ns w.game

/-- **A composite that walks over its children** writes down the walk from its cursor. -/
theorem InOrder.walked_record {make : Nat → Composite} {goOn : Status}
    (h : InOrder make goOn) (cursor : Nat) :
    let r := walk m goOn f (cs.drop cursor) w
    Walked m goOn (cs.zipIdx.drop cursor) ((make cursor).record m f cs w) r.status r.passed := by
  intro r
  -- numbering the children and writing them down changes nothing about the walk
  have hshown := m.shows_noting.walk goOn f (cs.zipIdx.drop cursor) (w.beside [])
  rw [List.map_drop, List.zipIdx_map_fst, World.bare_beside] at hshown
  obtain ⟨es, hes, hwalked⟩ := walked_walk m goOn f (cs.zipIdx.drop cursor) (w.beside [])
  have hrecord : (make cursor).record m f cs w = es := by
    rw [record, h.tick, tickInOrder]
    -- whether or not the walk concludes, the resets at its end write nothing
    split
    · exact hes
    · rw [notes_conclude]
      exact hes
  have hstatus : r.status = _ := congrArg Walk.status hshown
  have hpassed : r.passed = _ := congrArg Walk.passed hshown
  rw [hrecord, hstatus, hpassed]
  exact hwalked

/-- **A parallel ticks every child once, in order**, and counts what they report. -/
theorem record_parallel (p : Policy) :
    ((parallel p).record m f cs w).map Note.child = cs.zipIdx ∧
      ((parallel p).record m f cs w).map (Note.status m) = (m.tickAll f cs w).1 := by
  have hshown := m.shows_noting.tickAll f cs.zipIdx (w.beside [])
  rw [List.zipIdx_map_fst, World.bare_beside] at hshown
  obtain ⟨es, hes, hchildren, hstatuses⟩ := notes_tickAll m f cs.zipIdx (w.beside [])
  have hrecord : (parallel p).record m f cs w = es := by
    rw [record, tick, tickParallel]
    dsimp only
    -- whether or not all are reset, the resets write nothing
    split
    · exact hes
    · rw [notes_conclude]
      exact hes
  rw [hrecord, hshown]
  exact ⟨hchildren, hstatuses⟩

/-- A composite that commits writes down one of its children at most. -/
theorem record_tickChosen (make : Draws → Composite) (pick : Generator → Nat) (d : Draws) :
    ((tickChosen m.noting make pick f d cs.zipIdx (w.beside [])).world.game.notes.map
      Note.child).Sublist cs.zipIdx := by
  rw [tickChosen]
  split
  · exact List.nil_sublist _
  · obtain ⟨es, hes, hsub⟩ := notes_tickAt m f _ cs.zipIdx (w.beside [])
    rw [hes]
    exact hsub

/-- **No composite ticks a child twice** within a tick, or goes back to one before it. -/
theorem record_sublist (c : Composite) :
    ((c.record m f cs w).map Note.child).Sublist cs.zipIdx := by
  cases c with
  | sequence cursor =>
    exact (InOrder.sequence.walked_record m f cs w cursor).sublist.trans (List.drop_sublist _ _)
  | selector cursor =>
    exact (InOrder.selector.walked_record m f cs w cursor).sublist.trans (List.drop_sublist _ _)
  | parallel policy =>
    -- all children are written down, each once
    rw [(record_parallel m f cs w policy).1]
  | random d => exact record_tickChosen m f cs w _ _ d
  | weighted ws d => exact record_tickChosen m f cs w _ _ d

end Composite

/-! ## (3) The diary and the records of watched children -/

/-- A machine with a record of its ticks. -/
abbrev Watched (N G : Type) := N × List (Call N G)

/-- A note on a watched child, without its record. -/
def Note.unwatched (e : Note (Watched N G) G) : Note N G :=
  ⟨⟨e.frame, e.node.1, e.world⟩, e.number⟩

/-- The world beside a diary of such notes. -/
def World.unwatched (w : World (Diary (Watched N G) G)) : World (Diary N G) :=
  w.bare.beside (w.game.notes.map Note.unwatched)

/-- The diary of watched machines is that of the machines themselves. -/
theorem Machine.shows_unwatched (m : Machine N G) :
    m.watched.noting.Shows m.noting (Prod.map Prod.fst id) World.unwatched where
  tick f n w := by
    -- a note loses what was recorded with the child, and nothing else
    let o := m.tick f n.1.1 w.bare
    have hnotes : ((m.watched.noting.tick f n w).world.game.notes).map Note.unwatched =
        w.game.notes.map Note.unwatched ++ [⟨⟨f, n.1.1, w.bare⟩, n.2⟩] := List.map_append
    exact congrArg (fun notes => Outcome.mk o.status (o.node, n.2) (o.world.beside notes))
      hnotes.symm
  reset _ := rfl
  onReset _ _ := rfl

/-- **What was added to the records was noted**, from one moment of a tick to another. -/
def Noted (ns ns' : List (Watched N G × Nat)) (w w' : World (Diary (Watched N G) G)) : Prop :=
  ∃ es, w'.game.notes = w.game.notes ++ es ∧
    (ns'.flatMap (·.1.2)).Perm (ns.flatMap (·.1.2) ++ es.map fun e => e.unwatched.toCall)

namespace Noted

variable {m : Machine N G} {f : Frame} {ns ns' : List (Watched N G × Nat)}
  {w w' : World (Diary (Watched N G) G)}

/-- Nothing was ticked and nothing written down. -/
theorem refl (ns : List (Watched N G × Nat)) (w : World (Diary (Watched N G) G)) :
    Noted ns ns w w := by
  refine ⟨[], (List.append_nil _).symm, ?_⟩
  rw [List.map_nil, List.append_nil]

/-- A child before the others is left alone. -/
theorem skip (n : Watched N G × Nat) (h : Noted ns ns' w w') :
    Noted (n :: ns) (n :: ns') w w' := by
  obtain ⟨es, hes, hperm⟩ := h
  refine ⟨es, hes, ?_⟩
  rw [List.flatMap_cons, List.flatMap_cons, List.append_assoc]
  exact hperm.append_left n.1.2

/-- A child before the others is ticked first. -/
theorem tick (n : Watched N G × Nat)
    (h : Noted ns ns' (m.watched.noting.tick f n w).world w') :
    Noted (n :: ns) ((m.watched.noting.tick f n w).node :: ns') w w' := by
  obtain ⟨es, hes, hperm⟩ := h
  refine ⟨⟨⟨f, n.1, w.bare⟩, n.2⟩ :: es, hes.trans (List.append_assoc _ _ _), ?_⟩
  rw [List.flatMap_cons, List.flatMap_cons, List.map_cons]
  have hrecord : (m.watched.noting.tick f n w).node.1.2 = n.1.2 ++ [⟨f, n.1.1, w.bare⟩] := rfl
  rw [hrecord, List.append_assoc, List.append_assoc]
  -- the new tick stands behind the record of this child, but before the notes on the others
  exact ((hperm.cons _).trans List.perm_middle.symm).append_left n.1.2

/-- A walk writes down the children whose records grow. -/
theorem walk (goOn : Status) (ns : List (Watched N G × Nat))
    (w : World (Diary (Watched N G) G)) :
    Noted ns (Instinct.walk m.watched.noting goOn f ns w).children w
      (Instinct.walk m.watched.noting goOn f ns w).world := by
  induction ns generalizing w with
  | nil => exact refl [] w
  | cons n ns ih =>
    rw [Instinct.walk]
    dsimp only
    split
    · exact (ih _).tick n
    · exact (refl ns _).tick n

/-- Ticking all children writes down those whose records grow. -/
theorem tickAll (ns : List (Watched N G × Nat)) (w : World (Diary (Watched N G) G)) :
    Noted ns (m.watched.noting.tickAll f ns w).2.1 w (m.watched.noting.tickAll f ns w).2.2 := by
  induction ns generalizing w with
  | nil => exact refl [] w
  | cons n ns ih => exact (ih _).tick n

/-- Ticking the child at one place writes it down as its record grows. -/
theorem tickAt (i : Nat) (ns : List (Watched N G × Nat))
    (w : World (Diary (Watched N G) G)) :
    Noted ns (m.watched.noting.tickAt f i ns w).node w
      (m.watched.noting.tickAt f i ns w).world := by
  induction ns generalizing i with
  | nil =>
    rw [Machine.tickAt_nil]
    exact refl [] w
  | cons n ns ih =>
    cases i with
    | zero => exact (refl ns _).tick n
    | succ i => exact (ih i).skip n

/-- Children before the others are left alone. -/
theorem behind (before : List (Watched N G × Nat)) (h : Noted ns ns' w w') :
    Noted (before ++ ns) (before ++ ns') w w' := by
  induction before with
  | nil => exact h
  | cons n before ih => exact ih.skip n

/-- Resets neither add to the records nor to the diary. -/
theorem conclude (h : Noted ns ns' w w') (c : Composite) (status : Status) :
    Noted ns (c.conclude m.watched.noting ns' status w').node.2 w
      (c.conclude m.watched.noting ns' status w').world := by
  obtain ⟨es, hes, hperm⟩ := h
  refine ⟨es, (Composite.notes_conclude m.watched c ns' status w').trans hes, ?_⟩
  show ((ns'.map m.watched.noting.reset).flatMap (·.1.2)).Perm _
  rwa [List.flatMap_map]

/-- **One tick of a composite.** -/
theorem composite (c : Composite) (ns : List (Watched N G × Nat))
    (w : World (Diary (Watched N G) G)) :
    Noted ns (c.tick m.watched.noting f ns w).node.2 w (c.tick m.watched.noting f ns w).world := by
  have hinOrder (make : Nat → Composite) (goOn : Status) (cursor : Nat) :
      Noted ns (Composite.tickInOrder m.watched.noting make goOn f cursor ns w).node.2 w
        (Composite.tickInOrder m.watched.noting make goOn f cursor ns w).world := by
    have hwalk := (walk (m := m) (f := f) goOn (ns.drop cursor) w).behind (ns.take cursor)
    rw [List.take_append_drop] at hwalk
    rw [Composite.tickInOrder]
    split
    · exact hwalk
    · exact hwalk.conclude _ _
  have hchosen (make : Draws → Composite) (pick : Generator → Nat) (d : Draws) :
      Noted ns (Composite.tickChosen m.watched.noting make pick f d ns w).node.2 w
        (Composite.tickChosen m.watched.noting make pick f d ns w).world := by
    rw [Composite.tickChosen]
    split
    · exact refl ns w
    · exact tickAt _ ns w
  -- three ways to go through the children, and resets that add nothing
  cases c with
  | sequence cursor => exact hinOrder _ _ cursor
  | selector cursor => exact hinOrder _ _ cursor
  | parallel policy =>
    have hall := tickAll (m := m) (f := f) ns w
    rw [Composite.tick, Composite.tickParallel]
    dsimp only
    split
    · exact hall
    · exact hall.conclude _ _
  | random d => exact hchosen _ _ d
  | weighted ws d => exact hchosen _ _ d

end Noted

/-- **The diary and the records tell of the same ticks.** -/
theorem Composite.calls_perm_record (m : Machine N G) (f : Frame) (c : Composite) (cs : List N)
    (w : World G) : (c.calls m f cs w).Perm ((c.record m f cs w).map Note.toCall) := by
  let ns : List (Watched N G × Nat) := (cs.map Machine.unrecorded).zipIdx
  let o := c.tick m.watched.noting f ns (w.beside [])
  obtain ⟨es, hes, hperm⟩ := Noted.composite (m := m) (f := f) c ns (w.beside [])
  have hcalls : c.calls m f cs w = o.node.2.flatMap (·.1.2) := by
    rw [calls, tick_eq_noting]
    exact List.flatMap_map _ _ _
  have hrecord : c.record m f cs w = es.map Note.unwatched := by
    have hshown := m.shows_unwatched.composite f c ns (w.beside [])
    rw [← List.zipIdx_map, Machine.map_unrecorded] at hshown
    have hnotes : c.record m f cs w = o.world.game.notes.map Note.unwatched :=
      congrArg (fun o : Outcome (Composite × List (N × Nat)) (Diary N G) => o.world.game.notes)
        hshown
    rw [hnotes, hes]
    rfl
  -- nothing was recorded before the tick
  have hfresh : ns.flatMap (·.1.2) = [] := by
    refine List.flatMap_eq_nil_iff.mpr fun n hn => ?_
    obtain ⟨c, -, hc⟩ := List.mem_map.mp (List.fst_mem_of_mem_zipIdx hn)
    rw [← hc]
    rfl
  rw [hfresh, List.nil_append] at hperm
  rw [hcalls, hrecord, List.map_map]
  exact hperm

end Instinct
