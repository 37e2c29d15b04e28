import Instinct.Proofs.Registration

/-! # Which pattern is selected, and when again

A selection goes through the patterns of an archetype once and carries the best so far along. That
is the first of highest priority among those that were asked; it is the invariant of the loop, and
at its end it says which pattern is selected.

* **`Pattern.Startable s g p`** — `p` was never started, or so long ago as its cooldown lasts, and
  it passes its condition.
* **`Repertoire.Best s g ps i p`** — `p` stands at place `i` and is the first of highest priority
  among the patterns of a list that may be started.
* **`Repertoire.leading_bestFrom`** — what the loop carries along is the best so far.
* **`Repertoire.changeBest_eq`** — the pattern that is changed is the one that is selected.
* **`Repertoire.Resting archetype name t d r`** — a pattern was started at `t` or later, and its
  cooldown lasts `d` at least.
* **`Repertoire.select_prefers`** — the pattern of highest priority is selected, the earliest among
  equals, and once it is started it is not selected again until its cooldown is over. -/

namespace Instinct

variable {N G : Type}

/-! ## Patterns that may be started -/

namespace Pattern

/-- **A condition that only looks.** Asking it changes nothing. -/
def Observant (p : Pattern N G) : Prop := ∀ c ∈ p.condition, ∀ s g, (c s g).2 = g

/-- **A pattern that may be started**: if it was started before, then its cooldown has passed since,
and its condition holds, if it has one. -/
structure Startable (s : Situation) (g : G) (p : Pattern N G) : Prop where
  rested : ∀ t ∈ p.lastUsed, p.cooldown ≤ s.frame.now - t
  permitted : ∀ c ∈ p.condition, (c s g).1 = true

variable {p : Pattern N G} {s : Situation} {g : G}

/-- A pattern without a condition is always permitted. -/
theorem permitted_iff : (p.permitted s g).1 = true ↔ ∀ c ∈ p.condition, (c s g).1 = true := by
  rw [permitted]
  cases p.condition with
  | none => simp
  | some c => simp

/-- **A pattern is eligible exactly if it may be started.** -/
theorem eligible_iff : (p.eligible s g).1 = true ↔ p.Startable s g := by
  rw [eligible]
  by_cases h : p.ready s.frame.now = true
  · rw [if_pos h, permitted_iff]
    exact ⟨fun hc => ⟨ready_iff.mp h, hc⟩, fun hp => hp.permitted⟩
  · rw [if_neg h]
    constructor
    · intro hasked
      exact absurd hasked Bool.false_ne_true
    · intro hp
      exact absurd (ready_iff.mpr hp.rested) h

/-- Asking a pattern that only looks changes nothing. -/
theorem Observant.eligible (h : p.Observant) (s : Situation) (g : G) : (p.eligible s g).2 = g := by
  rw [Pattern.eligible]
  split
  · rw [permitted]
    cases hc : p.condition with
    | none => rfl
    | some c => exact h c hc s g
  · rfl

end Pattern

namespace Repertoire

variable {m : Machine N G} {r r' : Repertoire N G} {archetype name : String} {s : Situation} {g : G}
  {ps qs : List (Pattern N G)} {p q : Pattern N G} {i j : Nat}

/-! ## The first of highest priority -/

/-- **`p` at place `i` is the best of a list**: of those that may be started none has a higher
priority, and none before it has the same. -/
structure Best (s : Situation) (g : G) (ps : List (Pattern N G)) (i : Nat) (p : Pattern N G) :
    Prop where
  here : ps[i]? = some p
  startable : p.Startable s g
  highest : ∀ q ∈ ps, q.Startable s g → q.priority ≤ p.priority
  earliest : ∀ q ∈ ps.take i, q.Startable s g → q.priority ≠ p.priority

/-- The best of a list is in it. -/
theorem Best.mem (h : Best s g ps i p) : p ∈ ps := List.mem_of_getElem? h.here

/-- Of two places that are best neither comes before the other. -/
theorem Best.le (h : Best s g ps i p) (h' : Best s g ps j q) : i ≤ j := by
  by_contra hlt
  have hq : q ∈ ps.take i :=
    List.mem_of_getElem? ((List.getElem?_take_of_lt (Nat.lt_of_not_le hlt)).trans h'.here)
  -- `q` comes before `p` and neither has the higher priority
  exact h.earliest q hq h'.startable
    (Int32.le_antisymm (h.highest q h'.mem h'.startable) (h'.highest p h.mem h.startable))

/-- **There is one best place at most.** -/
theorem Best.unique (h : Best s g ps i p) (h' : Best s g ps j q) : i = j ∧ p = q := by
  obtain rfl := Nat.le_antisymm (h.le h') (h'.le h)
  exact ⟨rfl, Option.some.inj (h.here.symm.trans h'.here)⟩

/-- **The best so far** among the patterns that were asked, with its priority; none if none of them
may be started. -/
inductive Leading (s : Situation) (g : G) (ps : List (Pattern N G)) : Option (Nat × Int32) → Prop
  | nobody (h : ∀ q ∈ ps, ¬ q.Startable s g) : Leading s g ps none
  | leader {i : Nat} {p : Pattern N G} (h : Best s g ps i p) : Leading s g ps (some (i, p.priority))

/-- Nobody leads among no patterns. -/
theorem leading_nil : Leading s g ([] : List (Pattern N G)) none := .nobody nofun

/-- A pattern that may be started and has a strictly higher priority takes the lead. -/
theorem Leading.overtaken {best : Option (Nat × Int32)} (h : Leading s g ps best)
    (hq : q.Startable s g) (hbest : ∀ b ∈ best, b.2 < q.priority) :
    Leading s g (ps ++ [q]) (some (ps.length, q.priority)) := by
  -- whoever led so far had no higher priority than the new one
  have hlower : ∀ o ∈ ps, o.Startable s g → o.priority < q.priority := by
    intro o ho hstart
    cases h with
    | nobody hnone => exact absurd hstart (hnone o ho)
    | @leader i p hleader =>
      have hlead : p.priority < q.priority := hbest (i, p.priority) rfl
      exact Int32.lt_of_le_of_lt (hleader.highest o ho hstart) hlead
  refine .leader ⟨?_, hq, ?_, ?_⟩
  · rw [List.getElem?_append_right (Nat.le_refl _), Nat.sub_self]
    rfl
  · intro o ho hstart
    rcases List.mem_append.mp ho with ho | ho
    · exact Int32.le_of_lt (hlower o ho hstart)
    · obtain rfl := List.mem_singleton.mp ho
      exact Int32.le_refl _
  · -- of those before it none has the same priority, as all are below
    rw [List.take_left]
    exact fun o ho hstart => Int32.ne_of_lt (hlower o ho hstart)

/-- A pattern that may not be started, or not before the one in the lead, leaves it there. -/
theorem Leading.held {best : Option (Nat × Int32)} (h : Leading s g ps best)
    (hq : q.Startable s g → ∃ b ∈ best, q.priority ≤ b.2) : Leading s g (ps ++ [q]) best := by
  cases h with
  -- no one may be started yet, so neither may the new one
  | nobody hnone =>
    refine .nobody fun o ho hstart => ?_
    rcases List.mem_append.mp ho with ho | ho
    · exact hnone o ho hstart
    · obtain rfl := List.mem_singleton.mp ho
      obtain ⟨b, hb, -⟩ := hq hstart
      cases hb
  | @leader i p hleader =>
    -- the place of the leader is in the part that was asked before
    have hi : i < ps.length := (List.getElem?_eq_some_iff.mp hleader.here).1
    refine .leader ⟨?_, hleader.startable, ?_, ?_⟩
    · rw [List.getElem?_append_left hi]
      exact hleader.here
    · intro o ho hstart
      rcases List.mem_append.mp ho with ho | ho
      · exact hleader.highest o ho hstart
      · obtain rfl := List.mem_singleton.mp ho
        obtain ⟨b, hb, hle⟩ := hq hstart
        obtain rfl := Option.some.inj hb
        exact hle
    · rw [List.take_append_of_le_length (Nat.le_of_lt hi)]
      exact hleader.earliest

/-- **The loop carries the best so far along.** -/
theorem leading_bestFrom {best : Option (Nat × Int32)} (h : Leading s g ps best)
    (hpure : ∀ q ∈ qs, q.Observant) :
    Leading s g (ps ++ qs) (bestFrom s ps.length qs best g).1 ∧
      (bestFrom s ps.length qs best g).2 = g := by
  induction qs generalizing ps best with
  | nil =>
    rw [List.append_nil]
    exact ⟨h, rfl⟩
  | cons q qs ih =>
    obtain ⟨hq, hqs⟩ := List.forall_mem_cons.mp hpure
    -- the next place is the length of what was asked by then
    have hlength : ps.length + 1 = (ps ++ [q]).length := by simp
    rw [bestFrom]
    dsimp only
    rw [hq.eligible, List.append_cons, hlength]
    -- the lead changes only for a strictly higher priority
    split
    · next hbetter =>
      rw [Bool.and_eq_true, Pattern.eligible_iff, Option.all_eq_true] at hbetter
      exact ih (h.overtaken hbetter.1 fun b hb => by simpa using hbetter.2 b hb) hqs
    · next hbetter =>
      rw [Bool.and_eq_true, Pattern.eligible_iff, Option.all_eq_true, not_and] at hbetter
      refine ih (h.held fun hstart => ?_) hqs
      simpa [Int32.not_lt] using hbetter hstart

/-! ## The pattern and its place -/

/-- **What is changed is what is selected**, in the place that is found. -/
theorem changeBest_eq (r : Repertoire N G) (archetype : String) (s : Situation)
    (f : Pattern N G → Pattern N G) (g : G) :
    r.changeBest archetype s f g =
      ((r.select archetype s g).1,
        ((r.bestPlace archetype s g).1.elim r fun place =>
          ⟨r.groups.modify archetype (·.modify place f)⟩),
        (r.select archetype s g).2) := by
  rw [select, changeBest]
  rcases r.bestPlace archetype s g with ⟨_ | place, g⟩ <;> rfl

/-- **The place that is found is the best**, and asking has changed nothing. -/
theorem bestPlace_spec (hpure : ∀ p ∈ r.available archetype, p.Observant) (s : Situation) (g : G) :
    (∀ i, (r.bestPlace archetype s g).1 = some i ↔ ∃ p, Best s g (r.available archetype) i p) ∧
      (r.bestPlace archetype s g).2 = g := by
  obtain ⟨hleading, hgame⟩ := leading_bestFrom (leading_nil (s := s) (g := g)) hpure
  refine ⟨fun i => ?_, hgame⟩
  show (bestFrom s 0 (r.available archetype) none g).1.map (·.1) = some i ↔ _
  rw [List.nil_append, List.length_nil] at hleading
  generalize (bestFrom s 0 (r.available archetype) none g).1 = best at hleading ⊢
  -- the best so far is the best of all at the end of the list
  cases hleading with
  | nobody hnone =>
    refine ⟨nofun, ?_⟩
    rintro ⟨p, hp⟩
    exact absurd hp.startable (hnone p hp.mem)
  | leader hleader =>
    rw [Option.map_some, Option.some.injEq]
    constructor
    · rintro rfl
      exact ⟨_, hleader⟩
    · rintro ⟨p, hp⟩
      exact (hleader.unique hp).1

/-- **The pattern selected is the best.** -/
theorem select_eq_some_iff (hpure : ∀ p ∈ r.available archetype, p.Observant) :
    (r.select archetype s g).1 = some p ↔ ∃ i, Best s g (r.available archetype) i p := by
  obtain ⟨hplace, -⟩ := bestPlace_spec hpure s g
  show (r.bestPlace archetype s g).1.bind _ = some p ↔ _
  rw [Option.bind_eq_some_iff]
  constructor
  · rintro ⟨i, hi, hp⟩
    obtain ⟨q, hq⟩ := (hplace i).mp hi
    obtain rfl := Option.some.inj (hq.here.symm.trans hp)
    exact ⟨i, hq⟩
  · rintro ⟨i, hp⟩
    exact ⟨i, (hplace i).mpr ⟨p, hp⟩, hp.here⟩

/-- **Something is selected exactly if something may be started.** -/
theorem isSome_select_iff (hpure : ∀ p ∈ r.available archetype, p.Observant) :
    (r.select archetype s g).1.isSome ↔ ∃ p ∈ r.available archetype, p.Startable s g := by
  have hasked : ∀ q ∈ r.available archetype, (q.eligible s g).2 = g :=
    fun q hq => (hpure q hq).eligible s g
  rw [Option.isSome_iff_ne_none, ne_eq, select_eq_none_iff, not_forall_not]
  simp only [mayStart_iff_of_pure hasked, Pattern.eligible_iff]

/-- **The best pattern is changed**, in its place. -/
theorem available_changeBest (hpure : ∀ p ∈ r.available archetype, p.Observant)
    (h : Best s g (r.available archetype) i p) (f : Pattern N G → Pattern N G) (a : String) :
    (r.changeBest archetype s f g).2.1.available a =
      if archetype = a then (r.available a).modify i f else r.available a := by
  have hplace := ((bestPlace_spec hpure s g).1 i).mpr ⟨p, h⟩
  -- the place is a place in the list of that archetype and of no other
  rw [changeBest_eq, hplace, Option.elim_some, available, NameMap.Raw.get?_modify]
  by_cases ha : archetype = a
  · subst ha
    rw [if_pos rfl, if_pos rfl, available]
    cases r.groups.get? archetype with
    | none => exact (List.modify_nil f i).symm
    | some ps => rfl
  · rw [if_neg ha, if_neg ha, available]

/-- Where nothing is selected nothing is changed. -/
theorem changeBest_of_none (hpure : ∀ p ∈ r.available archetype, p.Observant)
    (h : (r.select archetype s g).1 = none) (f : Pattern N G → Pattern N G) :
    (r.changeBest archetype s f g).2.1 = r := by
  cases hplace : (r.bestPlace archetype s g).1 with
  | none => rw [changeBest_eq, hplace, Option.elim_none]
  | some i =>
    obtain ⟨p, hp⟩ := ((bestPlace_spec hpure s g).1 i).mp hplace
    cases h.symm.trans ((select_eq_some_iff hpure).mpr ⟨i, hp⟩)

/-! ## Patterns at rest -/

/-- **A pattern at rest**: it was started at `t` or later, and its cooldown lasts `d` at least. -/
def Resting (archetype name : String) (t d : Duration) (r : Repertoire N G) : Prop :=
  ∃ p, r.get? archetype name = some p ∧ d ≤ p.cooldown ∧ ∃ u ∈ p.lastUsed, t ≤ u

/-- **A use that leaves a pattern at rest**: it does not start it at an earlier time and does not
shorten its cooldown below `d`. -/
def Use.Spares (archetype name : String) (t d : Duration) : Use N G → Prop
  | .execute a n s => a = archetype → n = name → t ≤ s.frame.now
  | .tune tuning => ∀ o, (archetype, name, o) ∈ tuning.entries → ∀ c ∈ o.cooldown, d ≤ c
  | _ => True

variable {t d : Duration}

/-- A pattern that was started is at rest. -/
theorem resting_execute {stage : Stage G} {result : Status × Repertoire N G × Stage G}
    (hp : r.get? archetype name = some p)
    (h : r.execute m archetype name s stage = .ok result) :
    result.2.1.Resting archetype name s.frame.now p.cooldown := by
  obtain ⟨q, hq, rfl⟩ := eq_of_execute h
  obtain rfl := Option.some.inj (hp.symm.trans hq)
  obtain rfl := (mem_available_of_get? hp).2
  refine ⟨((p.markUsed s.frame.now).tick m s stage).2.1, ?_, Nat.le_refl _, s.frame.now, rfl,
    Nat.le_refl _⟩
  exact ((swaps_modify hp).get? rfl archetype p.name).trans (if_pos ⟨rfl, rfl⟩)

/-- **A pattern at rest is not selected** before the cooldown is over. -/
theorem Resting.name_ne_of_select (h : r.Resting archetype name t d) (hd : r.Distinct)
    (hfrom : t ≤ s.frame.now) (huntil : s.frame.now.nanos < t.nanos + d.nanos)
    (hq : (r.select archetype s g).1 = some q) : q.name ≠ name := by
  rintro rfl
  obtain ⟨p, hp, hcooldown, u, hu, hused⟩ := h
  obtain rfl := Option.some.inj (hp.symm.trans (get?_of_select hd hq))
  have hover := Pattern.ready_iff.mp (mayStart_of_select hq).ready u hu
  rw [Duration.le_iff, Duration.nanos_sub] at hover
  rw [Duration.le_iff] at hfrom hcooldown hused
  omega

/-- A change of one pattern that keeps its name leaves the pattern at rest, if it does so where it
changes that one. -/
theorem Resting.modify (h : r.Resting archetype name t d) {a n : String}
    {f : Pattern N G → Pattern N G} (hname : ∀ p, r.get? a n = some p → (f p).name = p.name)
    (hrest : ∀ p, r.get? a n = some p → a = archetype → n = name →
      (d ≤ p.cooldown ∧ ∃ u ∈ p.lastUsed, t ≤ u) →
      d ≤ (f p).cooldown ∧ ∃ u ∈ (f p).lastUsed, t ≤ u) :
    (r.modify a n f).Resting archetype name t d := by
  cases hq : r.get? a n with
  | none =>
    rw [modify_of_get?_eq_none hq]
    exact h
  | some q =>
    have hget := (swaps_modify (f := f) hq).get? (hname q hq) archetype name
    obtain ⟨p, hp, hrests⟩ := h
    -- only a change of that very pattern matters
    by_cases hsame : archetype = a ∧ name = q.name
    · obtain ⟨rfl, rfl⟩ := hsame
      obtain rfl := (mem_available_of_get? hq).2
      obtain rfl := Option.some.inj (hp.symm.trans hq)
      exact ⟨f p, hget.trans (if_pos ⟨rfl, rfl⟩), hrest p hq rfl rfl hrests⟩
    · exact ⟨p, hget.trans ((if_neg hsame).trans hp), hrests⟩

/-- Registering adds behind the patterns there are, so the first of a name stays the first. -/
theorem Resting.register {a : String} (h : r.Resting archetype name t d)
    (hregister : r.register a p = .ok r') : r'.Resting archetype name t d := by
  obtain ⟨q, hq, hrests⟩ := h
  refine ⟨q, ?_, hrests⟩
  rw [get?, (available_of_register hregister).2 archetype]
  split
  · next ha =>
    subst ha
    rw [List.find?_append, show List.find? _ _ = some q from hq]
    rfl
  · exact hq

/-- A tuning leaves the pattern at rest as long as no entry for it takes the cooldown below. -/
theorem Resting.applyOverrides {entries : List (String × String × Override)}
    (h : r.Resting archetype name t d)
    (hspares : ∀ o, (archetype, name, o) ∈ entries → ∀ c ∈ o.cooldown, d ≤ c) :
    (applyOverrides entries r).1.Resting archetype name t d := by
  induction entries generalizing r with
  | nil => exact h
  | cons entry entries ih =>
    obtain ⟨a, n, o⟩ := entry
    rw [Repertoire.applyOverrides]
    split
    · exact h
    · refine ih (h.modify (fun _ _ => rfl) ?_) fun o ho => hspares o (List.mem_cons_of_mem _ ho)
      -- the entry is for the pattern itself: its cooldown is kept, or set to no less
      rintro p - rfl rfl ⟨hcooldown, hused⟩
      refine ⟨?_, hused⟩
      show d ≤ o.cooldown.getD p.cooldown
      cases hc : o.cooldown with
      | none => exact hcooldown
      | some c => exact hspares o List.mem_cons_self c hc

/-- What a tick gives is taken over; an error leaves the repertoire. -/
theorem Resting.took {l : Ledger N G} (h : l.repertoire.Resting archetype name t d)
    {ticked : Except PatternError (Status × Repertoire N G × Stage G)}
    (hticked : ∀ result, ticked = .ok result → result.2.1.Resting archetype name t d) :
    (l.took ticked).repertoire.Resting archetype name t d := by
  cases ticked with
  | ok result => exact hticked result rfl
  | error e => exact h

/-- **A use that spares a pattern leaves it at rest.** -/
theorem Resting.take {l : Ledger N G} (h : l.repertoire.Resting archetype name t d)
    {use : Use N G} (hspares : use.Spares archetype name t d) :
    (l.take m use).repertoire.Resting archetype name t d := by
  -- only an execution stamps the pattern anew, and it does so no earlier
  cases use with
  | register a p =>
    cases hregister : l.repertoire.register a p with
    | ok r => simpa only [Ledger.take, hregister] using h.register hregister
    | error e => simpa only [Ledger.take, hregister] using h
  | select a s => exact h
  | execute a n s =>
    refine h.took fun result hresult => ?_
    obtain ⟨p, hp, rfl⟩ := eq_of_execute hresult
    refine h.modify (fun q hq => ?_) fun q hq ha hn hrests => ?_
    all_goals obtain rfl := Option.some.inj (hp.symm.trans hq)
    · rfl
    · exact ⟨hrests.1, s.frame.now, rfl, hspares ha hn⟩
  | resume a n s =>
    refine h.took fun result hresult => ?_
    obtain ⟨p, hp, rfl⟩ := eq_of_resume hresult
    refine h.modify (fun q hq => ?_) fun q hq ha hn hrests => ?_
    all_goals obtain rfl := Option.some.inj (hp.symm.trans hq)
    · rfl
    · exact hrests
  | tune tuning => exact h.applyOverrides hspares
  | meanwhile change => exact h

/-- Every use keeps names distinct. -/
theorem Distinct.take {l : Ledger N G} (hd : l.repertoire.Distinct) (m : Machine N G)
    (use : Use N G) : (l.take m use).repertoire.Distinct := by
  rcases Ledger.take_cases m l use with ⟨a, p, -, hregister, -⟩ | ⟨-, hevolves, -⟩
  · exact hd.register hregister
  · exact hd.evolves hevolves

/-- **A pattern that is spared stays at rest** whatever else is done. -/
theorem Resting.run {l : Ledger N G} (h : l.repertoire.Resting archetype name t d)
    (hd : l.repertoire.Distinct) {uses : List (Use N G)}
    (hspares : ∀ use ∈ uses, use.Spares archetype name t d) :
    (uses.foldl (Ledger.take m) l).repertoire.Resting archetype name t d ∧
      (uses.foldl (Ledger.take m) l).repertoire.Distinct := by
  induction uses generalizing l with
  | nil => exact ⟨h, hd⟩
  | cons use uses ih =>
    obtain ⟨huse, huses⟩ := List.forall_mem_cons.mp hspares
    exact ih (h.take huse) (hd.take m use) huses

/-! ## What is selected -/

/-- **The pattern of highest priority is selected**, the earliest added among equals.

Let conditions only look. Then something is selected exactly if some pattern of the archetype may be
started, which is to say that it passes its condition and was never started, or so long ago as its
cooldown lasts. The pattern selected is the one that may be started with none of a higher priority
and none before it of the same, and the selection changes nothing. To change the pattern to start is
to change that one, in its place.

And once a pattern is started it rests: whatever is done then, if only it is not started at an
earlier time and its cooldown is not made shorter, it is not selected again, in any game, from the
time of the start on until its cooldown is over. -/
theorem select_prefers (m : Machine N G) (r : Repertoire N G) (archetype : String) :
    ((∀ p ∈ r.available archetype, p.Observant) → ∀ s g,
      ((r.select archetype s g).1.isSome ↔ ∃ p ∈ r.available archetype, p.Startable s g) ∧
      (∀ p, (r.select archetype s g).1 = some p ↔
        ∃ i, Best s g (r.available archetype) i p) ∧
      (r.select archetype s g).2 = g ∧
      ∀ f, let changed := r.changeBest archetype s f g
        changed.1 = (r.select archetype s g).1 ∧ changed.2.2 = g ∧
        (changed.1 = none → changed.2.1 = r) ∧
        ∀ i p, Best s g (r.available archetype) i p →
          changed.2.1.available archetype = (r.available archetype).modify i f ∧
          ∀ a, a ≠ archetype → changed.2.1.available a = r.available a) ∧
    (r.Distinct → ∀ name p, r.get? archetype name = some p → ∀ s stage, ∃ result,
      r.execute m archetype name s stage = .ok result ∧
      ∀ uses : List (Use N G), (∀ use ∈ uses, use.Spares archetype name s.frame.now p.cooldown) →
        let l := uses.foldl (Ledger.take m) { repertoire := result.2.1, stage := result.2.2 }
        ∀ s' g', s.frame.now ≤ s'.frame.now →
          s'.frame.now.nanos < s.frame.now.nanos + p.cooldown.nanos →
          ∀ q, (l.repertoire.select archetype s' g').1 = some q → q.name ≠ name) := by
  constructor
  · intro hpure s g
    have hgame : (r.select archetype s g).2 = g := (bestPlace_spec hpure s g).2
    refine ⟨isSome_select_iff hpure, fun p => select_eq_some_iff hpure, hgame, ?_⟩
    -- the variant that changes the best looks it up in the same way
    intro f changed
    have hchanged : changed = _ := changeBest_eq r archetype s f g
    have hsame : changed.1 = (r.select archetype s g).1 := congrArg (·.1) hchanged
    refine ⟨hsame, (congrArg (·.2.2) hchanged).trans hgame, ?_, ?_⟩
    · exact fun hnone => changeBest_of_none hpure (hsame.symm.trans hnone) f
    · intro i p hp
      have havailable := available_changeBest hpure hp f
      exact ⟨(havailable archetype).trans (if_pos rfl),
        fun a ha => (havailable a).trans (if_neg ha.symm)⟩
  · intro hd name p hp s stage
    obtain ⟨result, hresult⟩ := exists_execute hp m s stage
    refine ⟨result, hresult, ?_⟩
    -- what rests after the start rests after all uses that spare it
    intro uses hspares l s' g' hfrom huntil q hq
    have hstarted := resting_execute hp hresult
    have hdistinct : result.2.1.Distinct := hd.evolves (Evolves.execute hresult)
    obtain ⟨hresting, hdistinct⟩ : l.repertoire.Resting _ _ _ _ ∧ l.repertoire.Distinct :=
      hstarted.run hdistinct hspares
    exact hresting.name_ne_of_select hdistinct hfrom huntil hq

/-- A brute that slams rather than swipes, as slamming was added first, and then has to wait. -/
theorem select_prefers_brute :
    let slam : Pattern (Node Unit) Unit :=
      { name := "slam", tree := { root := .wait .zero }, priority := 5, cooldown := .ofMillis 9,
        lastUsed := some (.ofMillis 0) }
    let swipe : Pattern (Node Unit) Unit :=
      { name := "swipe", tree := { root := .wait .zero }, priority := 5,
        condition := some fun s g => (s.target.isSome, g) }
    let r : Repertoire (Node Unit) Unit := .ofPatterns "brute" [slam, swipe]
    let s (ms : UInt64) : Situation := { frame := .atMillis ms, target := some ⟨1⟩ }
    let meanwhile : Use (Node Unit) Unit := .execute "brute" "swipe" (s 12)
    (∀ p ∈ r.available "brute", p.Observant) ∧ r.Distinct ∧ r.get? "brute" "slam" = some slam ∧
    (r.select "brute" (s 9) ()).1 = some slam ∧
    ∃ result, r.execute Node.asMachine "brute" "slam" (s 9) { game := () } = .ok result ∧
      let l := [meanwhile].foldl (Ledger.take Node.asMachine)
        { repertoire := result.2.1, stage := result.2.2 }
      ∀ q, (l.repertoire.select "brute" (s 17) ()).1 = some q → q.name ≠ "slam" := by
  intro slam swipe r s meanwhile
  have havailable : r.available "brute" = [slam, swipe] := rfl
  have hpure : ∀ p ∈ r.available "brute", p.Observant := by
    rw [havailable]
    simp [Pattern.Observant, slam, swipe]
  have hd : r.Distinct := distinct_ofPatterns "brute" [slam, swipe]
  have hget : r.get? "brute" "slam" = some slam := rfl
  obtain ⟨hselect, hexecute⟩ := select_prefers Node.asMachine r "brute"
  have hbest : Best (s 9) () (r.available "brute") 0 slam := by
    refine ⟨rfl, ⟨?_, nofun⟩, ?_, ?_⟩
    · intro t ht
      obtain rfl := Option.some.inj ht
      decide
    · rw [havailable]
      simp [slam, swipe]
    · simp
  obtain ⟨result, hresult, hrests⟩ := hexecute hd "slam" slam hget (s 9) { game := () }
  refine ⟨hpure, hd, hget, ((hselect hpure (s 9) ()).2.1 slam).mpr ⟨0, hbest⟩, result, hresult, ?_⟩
  refine hrests [meanwhile] ?_ (s 17) () (by decide) (by decide)
  rw [List.forall_mem_singleton]
  exact fun _ h => absurd h (by decide)

end Repertoire

end Instinct
