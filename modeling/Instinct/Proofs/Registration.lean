import Instinct.Node.Kinds
import Instinct.Proofs.Isolation
import Mathlib.Data.List.Forall2
import Mathlib.Data.List.Induction

/-! # Names tell the patterns of an archetype apart

A pattern is selected by its place in the list and started by its name. The two agree because a name
that is taken is refused, and because nothing that is done to a repertoire changes a name.

* **`Pattern.Becomes m p q`** — `q` is what has become of `p`.
* **`Repertoire.Evolves m r r'`** — `r'` holds what has become of the patterns of `r`.
* **`Repertoire.Use`**, **`Ledger`** — what is done to a repertoire, and a repertoire in use with
  the patterns that were accepted.
* **`Ledger.names_tell_apart`** — in any use the patterns of an archetype are what has become of
  those that were accepted, one for each name, and the one that is selected is the one that is
  started by its name. -/

namespace Instinct

variable {N G : Type}

/-! ## What becomes of patterns -/

/-- **What has become of a pattern** that was ticked, stamped and tuned any number of times. -/
inductive Pattern.Becomes (m : Machine N G) (p : Pattern N G) : Pattern N G → Prop
  | refl : Becomes m p p
  | tick {q} (before : Becomes m p q) (s : Situation) (stage : Stage G) :
      Becomes m p (q.tick m s stage).2.1
  | stamp {q} (before : Becomes m p q) (now : Duration) : Becomes m p (q.markUsed now)
  | tune {q} (before : Becomes m p q) (o : Override) : Becomes m p (Repertoire.overridden o q)

namespace Pattern.Becomes

variable {m : Machine N G} {p q q' : Pattern N G}

/-- One time after another. -/
theorem trans (h : Becomes m p q) (h' : Becomes m q q') : Becomes m p q' := by
  induction h' with
  | refl => exact h
  | tick _ s stage ih => exact ih.tick s stage
  | stamp _ now ih => exact ih.stamp now
  | tune _ o ih => exact ih.tune o

/-- A pattern keeps its name. -/
theorem name (h : Becomes m p q) : q.name = p.name := by
  induction h with
  | refl => rfl
  | tick _ _ _ ih => exact ih
  | stamp _ _ ih => exact ih
  | tune _ _ ih => exact ih

end Pattern.Becomes

namespace Repertoire

/-- **`r'` holds what has become of the patterns of `r`**, each in its place. -/
def Evolves (m : Machine N G) (r r' : Repertoire N G) : Prop :=
  ∀ a, List.Forall₂ (Pattern.Becomes m) (r.available a) (r'.available a)

variable {m : Machine N G} {r r' r'' : Repertoire N G} {archetype name : String}
  {p p' : Pattern N G} {s : Situation} {stage : Stage G}

/-- Whatever becomes of patterns, they bear the same names. -/
theorem names_of_forall₂_becomes {ps qs : List (Pattern N G)}
    (h : List.Forall₂ (Pattern.Becomes m) ps qs) : qs.map (·.name) = ps.map (·.name) :=
  names_of_forall₂ (fun _ _ hpq => hpq.name) h

namespace Evolves

/-- Nothing was done. -/
theorem refl (r : Repertoire N G) : Evolves m r r :=
  fun _ => List.forall₂_same.mpr fun _ _ => .refl

/-- One time after another. -/
theorem trans (h : Evolves m r r') (h' : Evolves m r' r'') : Evolves m r r'' :=
  fun a => forall₂_comp (fun _ _ _ => .trans) (h a) (h' a)

/-- One pattern in the place of what it was before. -/
theorem of_swaps (h : Swaps archetype p p' r r') (hp : Pattern.Becomes m p p') :
    Evolves m r r' :=
  fun _ => h.forall₂ (fun _ => .refl) fun _ => hp

/-- A change by name makes of one pattern what may become of it. -/
theorem modify {f : Pattern N G → Pattern N G}
    (hf : ∀ p, r.get? archetype name = some p → Pattern.Becomes m p (f p)) :
    Evolves m r (r.modify archetype name f) := by
  cases hp : r.get? archetype name with
  | none =>
    rw [modify_of_get?_eq_none hp]
    exact refl r
  | some p => exact of_swaps (swaps_modify hp) (hf p hp)

/-- Going on with a pattern ticks it. -/
theorem resume {result : Status × Repertoire N G × Stage G}
    (h : r.resume m archetype name s stage = .ok result) : Evolves m r result.2.1 := by
  obtain ⟨p, hp, rfl⟩ := eq_of_resume h
  exact of_swaps (swaps_modify hp) (.tick .refl s stage)

/-- Starting a pattern stamps it and ticks it. -/
theorem execute {result : Status × Repertoire N G × Stage G}
    (h : r.execute m archetype name s stage = .ok result) : Evolves m r result.2.1 := by
  obtain ⟨p, hp, rfl⟩ := eq_of_execute h
  exact of_swaps (swaps_modify hp) (.tick (.stamp .refl _) s stage)

/-- A tuning changes one pattern after another, as far as it goes. -/
theorem applyOverrides (entries : List (String × String × Override)) (r : Repertoire N G) :
    Evolves m r (applyOverrides entries r).1 := by
  induction entries generalizing r with
  | nil => exact refl r
  | cons entry entries ih =>
    obtain ⟨archetype, name, o⟩ := entry
    rw [Repertoire.applyOverrides]
    split
    · exact refl r
    · exact (modify fun p _ => .tune .refl o).trans (ih _)

end Evolves

/-- **Names stay distinct** while patterns go on. -/
theorem Distinct.evolves (hd : r.Distinct) (h : Evolves m r r') : r'.Distinct := by
  intro a
  rw [names_of_forall₂_becomes (h a)]
  exact hd a

/-! ## Adding patterns -/

/-- **Adding a pattern fails exactly where its name is taken.** -/
theorem register_eq_error_iff {e : PatternError} :
    r.register archetype p = .error e ↔
      e = .duplicatePattern archetype p.name ∧
        p.name ∈ (r.available archetype).map (·.name) := by
  rw [List.mem_map]
  unfold register
  -- a pattern of the name is found exactly where one bears it
  cases hq : r.get? archetype p.name with
  | none =>
    have hfree : ∀ q ∈ r.available archetype, q.name ≠ p.name := by
      simpa using List.find?_eq_none.mp hq
    simpa using fun _ => hfree
  | some q =>
    have htaken : ∃ q ∈ r.available archetype, q.name = p.name := ⟨q, mem_available_of_get? hq⟩
    rw [and_iff_left htaken, Except.error.injEq, eq_comm]

/-- **What is selected is the pattern that its name stands for**, the only one that bears it. -/
theorem get?_of_select (hd : r.Distinct) {g : G} (h : (r.select archetype s g).1 = some p) :
    r.get? archetype p.name = some p :=
  (get?_eq_some_iff hd).mpr ⟨(mayStart_of_select h).mem, rfl⟩

end Repertoire

/-! ## A repertoire in use -/

/-- **What is done to a repertoire.** -/
inductive Repertoire.Use (N G : Type) where
  /-- A pattern is added. -/
  | register (archetype : String) (p : Pattern N G)
  /-- A pattern is selected, for which conditions are asked. -/
  | select (archetype : String) (s : Situation)
  /-- A pattern is started. -/
  | execute (archetype name : String) (s : Situation)
  /-- A pattern is gone on with. -/
  | resume (archetype name : String) (s : Situation)
  /-- A tuning is applied, as far as it goes. -/
  | tune (t : Tuning)
  /-- The game goes on by itself. -/
  | meanwhile (change : Stage G → Stage G)

/-- **A repertoire in use**, with the patterns that were accepted, oldest first. -/
structure Ledger (N G : Type) where
  repertoire : Repertoire N G
  stage : Stage G
  accepted : List (String × Pattern N G) := []

namespace Ledger

open Repertoire

/-- Take in what a tick of a pattern gave. An error leaves everything as it was. -/
def took (l : Ledger N G) :
    Except PatternError (Status × Repertoire N G × Stage G) → Ledger N G
  | .ok (_, repertoire, stage) => { l with repertoire, stage }
  | .error _ => l

/-- One use of a repertoire. One that gives an error leaves everything as it was. -/
def take (m : Machine N G) (l : Ledger N G) : Use N G → Ledger N G
  | .register archetype p =>
    match l.repertoire.register archetype p with
    | .ok repertoire => { l with repertoire, accepted := l.accepted ++ [(archetype, p)] }
    | .error _ => l
  | .select archetype s =>
    { l with stage := l.stage.mapGame fun g => (l.repertoire.select archetype s g).2 }
  | .execute archetype name s => l.took (l.repertoire.execute m archetype name s l.stage)
  | .resume archetype name s => l.took (l.repertoire.resume m archetype name s l.stage)
  | .tune t => { l with repertoire := (l.repertoire.tune t).1 }
  | .meanwhile change => { l with stage := change l.stage }

/-- **A new repertoire after some uses.** -/
def run (m : Machine N G) (uses : List (Use N G)) (stage : Stage G) : Ledger N G :=
  uses.foldl (take m) { repertoire := .empty, stage }

/-- The accepted patterns of an archetype, oldest first. -/
def acceptedFor (l : Ledger N G) (archetype : String) : List (Pattern N G) :=
  (l.accepted.filter (·.1 = archetype)).map (·.2)

variable {m : Machine N G} {l l' : Ledger N G} {archetype : String} {p : Pattern N G}

/-- The last use comes after the others. -/
theorem run_concat (m : Machine N G) (uses : List (Use N G)) (use : Use N G) (stage : Stage G) :
    run m (uses ++ [use]) stage = (run m uses stage).take m use := by
  unfold run
  rw [List.foldl_append]
  rfl

/-- A tick that succeeds lets the patterns go on, and one that fails changes nothing; neither
accepts a pattern. -/
theorem evolves_took {t : Except PatternError (Status × Repertoire N G × Stage G)}
    (h : ∀ result, t = .ok result → Evolves m l.repertoire result.2.1) :
    Evolves m l.repertoire (l.took t).repertoire ∧ (l.took t).accepted = l.accepted := by
  cases t with
  | ok result => exact ⟨h result rfl, rfl⟩
  | error e => exact ⟨.refl _, rfl⟩

/-- **What a use does**: a pattern is added behind the others of its archetype, or what is there has
become something else. -/
theorem take_cases (m : Machine N G) (l : Ledger N G) (use : Use N G) :
    (∃ archetype p, use = .register archetype p ∧
      l.repertoire.register archetype p = .ok (l.take m use).repertoire ∧
      (l.take m use).accepted = l.accepted ++ [(archetype, p)]) ∨
    ((∀ archetype p, use = .register archetype p →
        p.name ∈ (l.repertoire.available archetype).map (·.name)) ∧
      Evolves m l.repertoire (l.take m use).repertoire ∧
      (l.take m use).accepted = l.accepted) := by
  cases use with
  | register archetype p =>
    cases h : l.repertoire.register archetype p with
    | ok r =>
      refine .inl ⟨archetype, p, rfl, ?_, ?_⟩ <;> simp only [take, h]
    -- a refused pattern leaves no trace
    | error e =>
      have hstays : l.take m (.register archetype p) = l := by simp only [take, h]
      rw [hstays]
      refine .inr ⟨?_, .refl _, rfl⟩
      rintro _ _ ⟨⟩
      exact (register_eq_error_iff.mp h).2
  | select archetype s => exact .inr ⟨nofun, .refl _, rfl⟩
  | execute archetype name s => exact .inr ⟨nofun, evolves_took fun _ => .execute⟩
  | resume archetype name s => exact .inr ⟨nofun, evolves_took fun _ => .resume⟩
  | tune t => exact .inr ⟨nofun, .applyOverrides _ _, rfl⟩
  | meanwhile change => exact .inr ⟨nofun, .refl _, rfl⟩

/-- **What every use keeps**: names are distinct, the patterns of an archetype are what has become
of those that were accepted, and the names that are taken are those that were asked for. -/
structure Kept (m : Machine N G) (uses : List (Use N G)) (l : Ledger N G) : Prop where
  distinct : l.repertoire.Distinct
  accepted : ∀ a, List.Forall₂ (Pattern.Becomes m) (l.acceptedFor a) (l.repertoire.available a)
  taken : ∀ a name, name ∈ (l.repertoire.available a).map (·.name) ↔
    ∃ p, .register a p ∈ uses ∧ p.name = name

/-- A new repertoire has accepted nothing and holds nothing. -/
theorem kept_initial (m : Machine N G) (stage : Stage G) :
    Kept m [] { repertoire := .empty, stage } where
  distinct := distinct_empty
  accepted _ := .nil
  taken a name := by simp [available_empty]

/-- A pattern is accepted for its own archetype only. -/
theorem acceptedFor_append (h : l'.accepted = l.accepted ++ [(archetype, p)]) (a : String) :
    l'.acceptedFor a = if archetype = a then l.acceptedFor a ++ [p] else l.acceptedFor a := by
  unfold acceptedFor
  rw [h, List.filter_append, List.map_append]
  by_cases ha : archetype = a
  · simp [ha]
  · simp [ha]

/-- What was asked for after one more use. -/
theorem asked_concat {uses : List (Use N G)} {use : Use N G} {a name : String} :
    (∃ p, .register a p ∈ uses ++ [use] ∧ p.name = name) ↔
      (∃ p, .register a p ∈ uses ∧ p.name = name) ∨ ∃ p, use = .register a p ∧ p.name = name := by
  simp only [List.mem_append, List.mem_singleton, or_and_right, exists_or, eq_comm (b := use)]

/-- **A use keeps what every use keeps.** -/
theorem Kept.take {uses : List (Use N G)} (h : Kept m uses l) (use : Use N G) :
    Kept m (uses ++ [use]) (l.take m use) := by
  rcases take_cases m l use with
    ⟨archetype, p, rfl, hregister, haccepted⟩ | ⟨hrefused, hevolves, haccepted⟩
  · obtain ⟨-, havailable⟩ := available_of_register hregister
    refine ⟨h.distinct.register hregister, fun a => ?_, fun a name => ?_⟩
    · -- the new pattern is the last of its archetype, both of those accepted and of those there
      rw [acceptedFor_append haccepted, havailable]
      by_cases ha : archetype = a
      · subst ha
        rw [if_pos rfl, if_pos rfl]
        exact List.rel_append (h.accepted archetype) (.cons .refl .nil)
      · rw [if_neg ha, if_neg ha]
        exact h.accepted a
    · rw [asked_concat, ← h.taken, havailable]
      by_cases ha : archetype = a
      · subst ha
        simp [eq_comm]
      · simp [ha]
  · refine ⟨h.distinct.evolves hevolves, fun a => ?_, fun a name => ?_⟩
    · have hsame : (l.take m use).acceptedFor a = l.acceptedFor a := by
        unfold acceptedFor
        rw [haccepted]
      rw [hsame]
      exact forall₂_comp (fun _ _ _ => .trans) (h.accepted a) (hevolves a)
    · -- what was refused had been asked for before
      rw [asked_concat, ← h.taken, names_of_forall₂_becomes (hevolves a)]
      refine ⟨.inl, ?_⟩
      rintro (htaken | ⟨p, rfl, rfl⟩)
      · exact htaken
      · exact hrefused a p rfl

/-- **What every run keeps.** -/
theorem kept_run (m : Machine N G) (uses : List (Use N G)) (stage : Stage G) :
    Kept m uses (run m uses stage) := by
  induction uses using List.reverseRecOn with
  | nil => exact kept_initial m stage
  | append_singleton uses use ih =>
    rw [run_concat]
    exact ih.take use

/-- **Names tell the patterns of an archetype apart**, whatever is done to a new repertoire: how
ever patterns are added, selected, started, gone on with and tuned. Those available are what has
become of those that were accepted, in that order. A pattern is refused exactly if one of its name
is there, that is, if one was asked for before, and then nothing changes. And in any situation the
pattern that is selected is the one that its name stands for: to start it by its name stamps and
ticks that one, in its place. -/
theorem names_tell_apart (m : Machine N G) (uses : List (Use N G)) (stage : Stage G) :
    let l := run m uses stage
    l.repertoire.Distinct ∧
    (∀ a, List.Forall₂ (Pattern.Becomes m) (l.acceptedFor a) (l.repertoire.available a)) ∧
    (∀ a p e, l.repertoire.register a p = .error e ↔
      e = .duplicatePattern a p.name ∧ p.name ∈ (l.repertoire.available a).map (·.name)) ∧
    (∀ a name, name ∈ (l.repertoire.available a).map (·.name) ↔
      ∃ p, .register a p ∈ uses ∧ p.name = name) ∧
    (∀ a p e, l.repertoire.register a p = .error e → l.take m (.register a p) = l) ∧
    ∀ a s g p, (l.repertoire.select a s g).1 = some p →
      l.repertoire.get? a p.name = some p ∧
      ∀ s' stage', let t := (p.markUsed s'.frame.now).tick m s' stage'
        ∃ r, l.repertoire.execute m a p.name s' stage' = .ok (t.1, r, t.2.2) ∧
          Swaps a p t.2.1 l.repertoire r := by
  intro l
  obtain ⟨hdistinct, haccepted, htaken⟩ := kept_run m uses stage
  refine ⟨hdistinct, haccepted, fun a p e => register_eq_error_iff, htaken, ?_, ?_⟩
  · -- an error is returned with what was there before
    intro a p e he
    show (match l.repertoire.register a p with | .ok _ => _ | .error _ => l) = l
    rw [he]
  · -- what is selected is found by its name, and that is what is executed
    intro a s g p hp
    have hget := get?_of_select hdistinct hp
    refine ⟨hget, fun s' stage' => ⟨_, execute_of_get? hget m s' stage', ?_⟩⟩
    exact swaps_modify (f := fun _ => ((p.markUsed s'.frame.now).tick m s' stage').2.1) hget

/-- A wolf that has bitten and cannot bite again yet, after a second bite was refused. -/
theorem names_tell_apart_wolf :
    let bite : Pattern (Node Unit) Unit :=
      { name := "bite", tree := { root := .wait .zero }, cooldown := .ofMillis 9 }
    let howl : Pattern (Node Unit) Unit := { name := "howl", tree := { root := .wait .zero } }
    let s : Situation := { frame := .atMillis 7 }
    let uses : List (Use (Node Unit) Unit) := [.register "wolf" bite,
      .execute "wolf" "bite" { frame := .atMillis 0 }, .register "wolf" howl,
      .register "wolf" { bite with priority := 5 }]
    let l := run Node.asMachine uses { game := () }
    let refused : PatternError := .duplicatePattern "wolf" "bite"
    (l.repertoire.available "wolf").map (·.name) = ["bite", "howl"] ∧
    l.repertoire.register "wolf" bite = .error refused ∧
    l.take Node.asMachine (.register "wolf" bite) = l ∧
    ∃ p, p.name = "howl" ∧ (l.repertoire.select "wolf" s ()).1 = some p ∧
      l.repertoire.get? "wolf" p.name = some p := by
  intro bite howl s uses l refused
  obtain ⟨-, -, hregister, -, hstays, hselect⟩ :=
    names_tell_apart Node.asMachine uses { game := () }
  have hnames : (l.repertoire.available "wolf").map (·.name) = ["bite", "howl"] := by
    decide +kernel
  have hrefused : l.repertoire.register "wolf" bite = .error refused := by
    rw [hregister]
    exact ⟨rfl, hnames ▸ List.mem_cons_self⟩
  have hhowl : (l.repertoire.select "wolf" s ()).1.map (·.name) = some "howl" := by
    decide +kernel
  obtain ⟨p, hp, hname⟩ := Option.map_eq_some_iff.mp hhowl
  exact ⟨hnames, hrefused, hstays "wolf" bite refused hrefused, p, hname, hp,
    (hselect "wolf" s () p hp).1⟩

end Ledger

end Instinct
