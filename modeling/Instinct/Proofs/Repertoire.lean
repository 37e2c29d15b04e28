import Instinct.Pattern.Repertoire
import Mathlib.Data.List.Nodup

/-! # The patterns of a repertoire, one for each name

* **`Repertoire.Filled P r`** — filled pattern by pattern, each of which satisfied `P`.
* **`Pattern.rules`**, **`Repertoire.rules`** — what is fixed about patterns when they are added;
  ticks and resets change none of it.
* **`Repertoire.Distinct r`** — within an archetype a name stands for one pattern.
* **`Repertoire.mem_available_modify`** — a change by name changes that pattern and no other.
* **`Repertoire.MayStart s ps g p`** — `p` is off cooldown and passes its condition.
* **`Repertoire.mayStart_of_select`**, **`Repertoire.select_eq_none_iff`** — what is selected may be
  started, and nothing is selected only if nothing may. -/

namespace Instinct

variable {N G : Type}

/-! ## What is fixed about a pattern -/

/-- **What is fixed about a pattern when it is added**: its name, priority, cooldown and
condition. -/
def Pattern.rules (p : Pattern N G) :
    String × Int32 × Duration × Option (Situation → G → Bool × G) :=
  (p.name, p.priority, p.cooldown, p.condition)

/-- A tick leaves what is fixed about a pattern. -/
@[simp] theorem Pattern.rules_tick (m : Machine N G) (p : Pattern N G) (s : Situation)
    (stage : Stage G) : (p.tick m s stage).2.1.rules = p.rules := rfl

/-- So does a reset. -/
@[simp] theorem Pattern.rules_reset (m : Machine N G) (p : Pattern N G) :
    (p.reset m).rules = p.rules := rfl

/-- So does the stamp of a start. -/
@[simp] theorem Pattern.rules_markUsed (p : Pattern N G) (now : Duration) :
    (p.markUsed now).rules = p.rules := rfl

/-- A cooldown is over exactly if it has passed since the last start. -/
theorem Pattern.ready_iff {p : Pattern N G} {now : Duration} :
    p.ready now = true ↔ ∀ t ∈ p.lastUsed, p.cooldown ≤ now - t := by
  rw [ready, decide_eq_true_eq, cooldownRemaining, Duration.ext_iff]
  cases p.lastUsed with
  | none => simp
  | some t => simp [Duration.le_iff, Nat.sub_eq_zero_iff_le]

namespace Repertoire

/-- What is fixed about the patterns of each archetype, in order. -/
def rules (r : Repertoire N G) (archetype : String) :
    List (String × Int32 × Duration × Option (Situation → G → Bool × G)) :=
  (r.available archetype).map Pattern.rules

/-- **Within an archetype a name stands for one pattern.** -/
def Distinct (r : Repertoire N G) : Prop :=
  ∀ archetype, ((r.available archetype).map (·.name)).Nodup

/-- **Filled pattern by pattern**, each of which satisfied `P` and was accepted. -/
inductive Filled (P : Pattern N G → Prop) : Repertoire N G → Prop
  | empty : Filled P empty
  | register {r r' archetype p} (filled : Filled P r) (pattern : P p)
      (accepted : r.register archetype p = .ok r') : Filled P r'

variable {r r' : Repertoire N G} {archetype name : String} {p q : Pattern N G}

/-! ## Looking up by name -/

/-- What a name finds is a pattern of that archetype and bears it. -/
theorem mem_available_of_get? (h : r.get? archetype name = some p) :
    p ∈ r.available archetype ∧ p.name = name := by
  refine ⟨List.mem_of_find?_eq_some h, ?_⟩
  simpa using List.find?_some h

/-- In a list of distinct names a pattern is found by its own. -/
theorem find?_of_mem {ps : List (Pattern N G)} (hd : (ps.map (·.name)).Nodup) (hp : p ∈ ps) :
    ps.find? (·.name = p.name) = some p := by
  induction ps with
  | nil => cases hp
  | cons q ps ih =>
    rw [List.map_cons, List.nodup_cons] at hd
    rcases List.mem_cons.mp hp with rfl | hp
    · simp
    · have hne : q.name ≠ p.name := fun he => hd.1 (he ▸ List.mem_map_of_mem hp)
      rw [List.find?_cons_of_neg (by simpa using hne)]
      exact ih hd.2 hp

/-- **Looking up by name** finds the pattern that bears it. -/
theorem get?_eq_some_iff (hd : r.Distinct) :
    r.get? archetype name = some p ↔ p ∈ r.available archetype ∧ p.name = name := by
  constructor
  · exact mem_available_of_get?
  · rintro ⟨hp, rfl⟩
    exact find?_of_mem (hd archetype) hp

/-- Looking up with a reason finds what looking up without one does. -/
theorem find_eq_ok (h : r.get? archetype name = some p) : r.find archetype name = .ok p := by
  unfold get? available at h
  unfold find
  cases hg : r.groups.get? archetype with
  | none => simp [hg] at h
  | some ps =>
    rw [hg] at h
    simp only [Option.getD_some] at h
    simp only [h]

/-- Looking up with a reason finds nothing that looking up without one does not. -/
theorem get?_of_find (h : r.find archetype name = .ok p) : r.get? archetype name = some p := by
  cases hq : r.get? archetype name with
  | some q => rw [Except.ok.inj ((find_eq_ok hq).symm.trans h)]
  | none =>
    unfold find at h
    split at h
    · cases h
    · next ps hps =>
      have hfind : ps.find? (·.name = name) = none := by rwa [get?, available, hps] at hq
      rw [hfind] at h
      cases h

/-- What going on with a pattern gives. -/
theorem resume_of_get? (h : r.get? archetype name = some p) (m : Machine N G) (s : Situation)
    (stage : Stage G) :
    let t := p.tick m s stage
    r.resume m archetype name s stage =
      .ok (t.1, r.modify archetype name fun _ => t.2.1, t.2.2) := by
  unfold resume
  rw [find_eq_ok h]

/-- What starting a pattern gives. -/
theorem execute_of_get? (h : r.get? archetype name = some p) (m : Machine N G) (s : Situation)
    (stage : Stage G) :
    let t := (p.markUsed s.frame.now).tick m s stage
    r.execute m archetype name s stage =
      .ok (t.1, r.modify archetype name fun _ => t.2.1, t.2.2) := by
  unfold execute
  rw [find_eq_ok h]

/-- **A pattern that is there can be gone on with and started.** -/
theorem exists_resume (h : r.get? archetype name = some p) (m : Machine N G) (s : Situation)
    (stage : Stage G) : ∃ result, r.resume m archetype name s stage = .ok result :=
  ⟨_, resume_of_get? h m s stage⟩

/-- A pattern that is found can be started. -/
theorem exists_execute (h : r.get? archetype name = some p) (m : Machine N G) (s : Situation)
    (stage : Stage G) : ∃ result, r.execute m archetype name s stage = .ok result :=
  ⟨_, execute_of_get? h m s stage⟩

/-- Only a pattern that is there can be gone on with. -/
theorem eq_of_resume {m : Machine N G} {s : Situation} {stage : Stage G}
    {result : Status × Repertoire N G × Stage G}
    (h : r.resume m archetype name s stage = .ok result) :
    ∃ p, r.get? archetype name = some p ∧
      let t := p.tick m s stage
      result = (t.1, r.modify archetype name fun _ => t.2.1, t.2.2) := by
  unfold resume at h
  split at h
  · cases h
  · next p hp => exact ⟨p, get?_of_find hp, (Except.ok.inj h).symm⟩

/-- Only a pattern that is there can be started. -/
theorem eq_of_execute {m : Machine N G} {s : Situation} {stage : Stage G}
    {result : Status × Repertoire N G × Stage G}
    (h : r.execute m archetype name s stage = .ok result) :
    ∃ p, r.get? archetype name = some p ∧
      let t := (p.markUsed s.frame.now).tick m s stage
      result = (t.1, r.modify archetype name fun _ => t.2.1, t.2.2) := by
  unfold execute at h
  split at h
  · cases h
  · next p hp => exact ⟨p, get?_of_find hp, (Except.ok.inj h).symm⟩

/-! ## Adding patterns -/

/-- What an accepted pattern adds. -/
theorem available_of_register (h : r.register archetype p = .ok r') :
    r.get? archetype p.name = none ∧ ∀ a, r'.available a =
      if archetype = a then r.available archetype ++ [p] else r.available a := by
  unfold register at h
  cases hg : r.get? archetype p.name with
  | some q => simp [hg] at h
  | none =>
    simp only [hg, Except.ok.injEq] at h
    subst h
    refine ⟨rfl, fun a => ?_⟩
    unfold available
    rw [NameMap.Raw.get?_insert]
    by_cases ha : archetype = a
    · rw [if_pos ha, if_pos ha]
      rfl
    · rw [if_neg ha, if_neg ha]

/-- No archetype has patterns at first. -/
theorem available_empty : (empty : Repertoire N G).available archetype = [] := rfl

/-- What holds of all patterns that were added holds of those there are. -/
theorem Filled.of_mem {P : Pattern N G → Prop} (h : r.Filled P) :
    ∀ a, ∀ p ∈ r.available a, P p := by
  induction h with
  | empty =>
    intro a p hp
    rw [available_empty] at hp
    cases hp
  | @register r r' archetype p _ hpattern haccepted ih =>
    intro a q hq
    rw [(available_of_register haccepted).2 a] at hq
    split at hq
    · -- the new pattern is the last one of its archetype
      rcases List.mem_append.mp hq with hq | hq
      · exact ih archetype q hq
      · obtain rfl := List.mem_singleton.mp hq
        exact hpattern
    · exact ih a q hq

/-- **Adding keeps names distinct**, as a name that is taken is refused. -/
theorem Distinct.register (hd : r.Distinct) (h : r.register archetype p = .ok r') :
    r'.Distinct := by
  obtain ⟨hfree, havailable⟩ := available_of_register h
  intro a
  rw [havailable a]
  split
  · rw [List.map_append, List.map_singleton, List.nodup_append]
    refine ⟨hd archetype, List.nodup_singleton _, ?_⟩
    intro n hn k hk
    obtain ⟨q, hq, rfl⟩ := List.mem_map.mp hn
    obtain rfl := List.mem_singleton.mp hk
    simpa using List.find?_eq_none.mp hfree q hq
  · exact hd a

/-- Nothing bears a name in an empty repertoire. -/
theorem distinct_empty : (empty : Repertoire N G).Distinct := fun _ => List.nodup_nil

/-- A repertoire filled from a list of patterns has distinct names, whatever names the list has. -/
theorem distinct_ofPatterns (archetype : String) (ps : List (Pattern N G)) :
    (ofPatterns archetype ps).Distinct := by
  refine List.foldlRecOn ps _ distinct_empty fun r hd p _ => ?_
  cases h : r.register archetype p with
  | ok r' => exact hd.register h
  | error e => exact hd

/-- **Filling a repertoire keeps names distinct**, as no name is accepted twice. -/
theorem Filled.distinct {P : Pattern N G → Prop} (h : r.Filled P) : r.Distinct := by
  induction h with
  | empty => exact distinct_empty
  | register _ _ accepted ih => exact ih.register accepted

/-! ## Changing one pattern -/

/-- Where names are distinct, changing the first pattern of a name changes all of that name. -/
theorem changeFirst_eq_map {ps : List (Pattern N G)} (hd : (ps.map (·.name)).Nodup)
    (f : Pattern N G → Pattern N G) :
    changeFirst name f ps = ps.map fun p => if p.name = name then f p else p := by
  induction ps with
  | nil => rfl
  | cons p ps ih =>
    rw [List.map_cons, List.nodup_cons] at hd
    rw [changeFirst, List.map_cons]
    by_cases hp : p.name = name
    · rw [if_pos hp, if_pos hp]
      -- no other pattern of the list bears the name
      have hrest : ∀ q ∈ ps, (if q.name = name then f q else q) = q := by
        intro q hq
        rw [if_neg]
        intro hqn
        exact hd.1 (hp.trans hqn.symm ▸ List.mem_map_of_mem hq)
      rw [List.map_congr_left hrest, List.map_id']
    · rw [if_neg hp, if_neg hp, ih hd.2]

/-- A change in one archetype is none in another. -/
theorem available_modify_of_ne {a : String} (ha : a ≠ archetype)
    (f : Pattern N G → Pattern N G) :
    (r.modify archetype name f).available a = r.available a := by
  unfold available modify
  rw [NameMap.Raw.get?_modify, if_neg ha.symm]

/-- A change by name changes the list of the archetype. -/
theorem available_modify_self (r : Repertoire N G) (archetype name : String)
    (f : Pattern N G → Pattern N G) :
    (r.modify archetype name f).available archetype =
      changeFirst name f (r.available archetype) := by
  unfold available modify
  rw [NameMap.Raw.get?_modify, if_pos rfl]
  cases r.groups.get? archetype <;> rfl

/-- **With distinct names** a change by name is one of every pattern that bears it. -/
theorem available_modify (hd : r.Distinct) (f : Pattern N G → Pattern N G) (a : String) :
    (r.modify archetype name f).available a =
      (r.available a).map fun p => if archetype = a ∧ p.name = name then f p else p := by
  by_cases ha : a = archetype
  · subst ha
    rw [available_modify_self, changeFirst_eq_map (hd a)]
    simp
  · rw [available_modify_of_ne ha]
    simp [Ne.symm ha]

/-- **A change by name changes that pattern and no other.** -/
theorem mem_available_modify (hd : r.Distinct) {f : Pattern N G → Pattern N G} {a : String} :
    p ∈ (r.modify archetype name f).available a ↔
      ∃ q ∈ r.available a, (if archetype = a ∧ q.name = name then f q else q) = p := by
  rw [available_modify hd, List.mem_map]

/-- What a change by name does to looking up; the name itself has to stay. -/
theorem get?_modify (hd : r.Distinct) {f : Pattern N G → Pattern N G}
    (hf : ∀ q, q.name = name → (f q).name = name) {a other : String} :
    (r.modify archetype name f).get? a other =
      (r.get? a other).map fun q => if archetype = a ∧ q.name = name then f q else q := by
  have hname (q : Pattern N G) :
      (if archetype = a ∧ q.name = name then f q else q).name = q.name := by
    split
    · next h => rw [hf q h.2, h.2]
    · rfl
  unfold get?
  rw [available_modify hd, List.find?_map]
  simp only [Function.comp_def, hname]

/-- Changing a pattern within its rules changes no rules. -/
theorem rules_modify (hd : r.Distinct) {f : Pattern N G → Pattern N G}
    (hf : ∀ q ∈ r.available archetype, q.name = name → (f q).rules = q.rules) :
    (r.modify archetype name f).rules = r.rules := by
  funext a
  rw [rules, rules, available_modify hd, List.map_map]
  refine List.map_congr_left fun q hq => ?_
  rw [Function.comp_apply]
  split
  · next h =>
    obtain ⟨rfl, hname⟩ := h
    exact hf q hq hname
  · rfl

/-- The names are among the rules. -/
theorem Distinct.of_rules (hd : r.Distinct) (h : r'.rules = r.rules) : r'.Distinct := by
  have hnames (r : Repertoire N G) (a : String) :
      (r.available a).map (·.name) = (r.rules a).map (·.1) := by
    rw [rules, List.map_map]
    rfl
  intro a
  rw [hnames, h, ← hnames]
  exact hd a

/-- For each pattern there was one of the same rules. -/
theorem exists_of_rules (h : r'.rules = r.rules) (hp : p ∈ r'.available archetype) :
    ∃ q ∈ r.available archetype, q.rules = p.rules := by
  have hmem : p.rules ∈ r'.rules archetype := List.mem_map_of_mem hp
  rw [h] at hmem
  exact List.mem_map.mp hmem

/-- The pattern of the same name has the same rules. -/
theorem rules_of_get? (hd : r.Distinct) (h : r'.rules = r.rules) (hp : p ∈ r'.available archetype)
    (hq : r.get? archetype p.name = some q) : q.rules = p.rules := by
  obtain ⟨o, ho, hrules⟩ := exists_of_rules h hp
  have hname : o.name = p.name := congrArg (·.1) hrules
  obtain rfl := Option.some.inj (hq.symm.trans ((get?_eq_some_iff hd).mpr ⟨ho, hname⟩))
  exact hrules

/-- A name that stood for a pattern still does. -/
theorem exists_get?_of_rules (hd : r.Distinct) (h : r'.rules = r.rules)
    (hp : r.get? archetype name = some p) : ∃ q, r'.get? archetype name = some q := by
  obtain ⟨hmem, hname⟩ := mem_available_of_get? hp
  obtain ⟨q, hq, hrules⟩ := exists_of_rules h.symm hmem
  refine ⟨q, (get?_eq_some_iff (hd.of_rules h)).mpr ⟨hq, ?_⟩⟩
  exact (congrArg (·.1) hrules).trans hname

/-! ## Which patterns may be started -/

/-- **`p` is off cooldown and passes its condition**, each pattern of the list being asked in the
game that asking the ones before it left. -/
inductive MayStart (s : Situation) : List (Pattern N G) → G → Pattern N G → Prop
  | here {p ps g} (ready : p.ready s.frame.now = true) (permitted : (p.permitted s g).1 = true) :
      MayStart s (p :: ps) g p
  | later {p q ps g} (rest : MayStart s ps (q.eligible s g).2 p) : MayStart s (q :: ps) g p

variable {s : Situation} {ps : List (Pattern N G)} {g : G}

/-- Who may be started is one of those that were asked. -/
theorem MayStart.mem (h : MayStart s ps g p) : p ∈ ps := by
  induction h with
  | here => exact List.mem_cons_self
  | later _ ih => exact List.mem_cons_of_mem _ ih

/-- Who may be started is off cooldown. -/
theorem MayStart.ready (h : MayStart s ps g p) : p.ready s.frame.now = true := by
  induction h with
  | here hready _ => exact hready
  | later _ ih => exact ih

/-- Among no patterns none may be started. -/
theorem mayStart_nil : ¬ MayStart s [] g p := by
  rintro ⟨⟩

/-- **One pattern more is asked first**, and the others in the game that it leaves. -/
theorem mayStart_cons : MayStart s (q :: ps) g p ↔
    ((q.eligible s g).1 = true ∧ q = p) ∨ MayStart s ps (q.eligible s g).2 p := by
  have heligible : (q.eligible s g).1 = true ↔
      q.ready s.frame.now = true ∧ (q.permitted s g).1 = true := by
    unfold Pattern.eligible
    split
    · simp [*]
    · simp [*]
  constructor
  · rintro (⟨hready, hpermitted⟩ | hrest)
    · exact .inl ⟨heligible.mpr ⟨hready, hpermitted⟩, rfl⟩
    · exact .inr hrest
  · rintro (⟨h, rfl⟩ | hrest)
    · obtain ⟨hready, hpermitted⟩ := heligible.mp h
      exact .here hready hpermitted
    · exact .later hrest

/-- Where conditions only look at the game, the order of asking is of no account. -/
theorem mayStart_iff_of_pure (hpure : ∀ q ∈ ps, (q.eligible s g).2 = g) :
    MayStart s ps g p ↔ p ∈ ps ∧ (p.eligible s g).1 = true := by
  induction ps with
  | nil => simp [mayStart_nil]
  | cons q ps ih =>
    obtain ⟨hq, hps⟩ := List.forall_mem_cons.mp hpure
    -- asking the first changes nothing, so the others are asked in the same game
    rw [mayStart_cons, hq, ih hps, List.mem_cons]
    constructor
    · rintro (⟨h, rfl⟩ | ⟨hmem, h⟩)
      · exact ⟨.inl rfl, h⟩
      · exact ⟨.inr hmem, h⟩
    · rintro ⟨rfl | hmem, h⟩
      · exact .inl ⟨h, rfl⟩
      · exact .inr ⟨hmem, h⟩

/-- A place that comes out of a selection went in as the best so far, or there is a pattern that may
be started. -/
theorem mayStart_of_bestFrom {i : Nat} {all : List (Pattern N G)} {best : Option (Nat × Int32)}
    {b : Nat × Int32} (hdrop : all.drop i = ps) (h : (bestFrom s i ps best g).1 = some b) :
    best = some b ∨ ∃ p, all[b.1]? = some p ∧ MayStart s ps g p := by
  induction ps generalizing i best g with
  | nil => exact .inl h
  | cons q ps ih =>
    have hq : all[i]? = some q := by
      rw [← Nat.add_zero i, ← List.getElem?_drop, hdrop]
      rfl
    have hps : all.drop (i + 1) = ps := by
      rw [← List.drop_drop, hdrop]
      rfl
    rw [bestFrom] at h
    dsimp only at h
    split at h
    · next hbetter =>
      rw [Bool.and_eq_true] at hbetter
      -- the pattern just asked has taken the lead, and it may be started itself
      obtain hlead | ⟨p, hp, hrest⟩ := ih hps h
      · obtain rfl := Option.some.inj hlead
        exact .inr ⟨q, hq, mayStart_cons.mpr (.inl ⟨hbetter.1, rfl⟩)⟩
      · exact .inr ⟨p, hp, .later hrest⟩
    · exact (ih hps h).imp_right fun ⟨p, hp, hrest⟩ => ⟨p, hp, .later hrest⟩

/-- Nothing comes out of a selection only if nothing went in and nothing may be started. -/
theorem bestFrom_eq_none_iff {i : Nat} {best : Option (Nat × Int32)} :
    (bestFrom s i ps best g).1 = none ↔ best = none ∧ ∀ p, ¬ MayStart s ps g p := by
  induction ps generalizing i best g with
  | nil =>
    show best = none ↔ _
    simp [mayStart_nil]
  | cons q ps ih =>
    rw [bestFrom]
    dsimp only
    split
    · next hbetter =>
      rw [Bool.and_eq_true] at hbetter
      -- the pattern that takes the lead may be started itself
      have hq : MayStart s (q :: ps) g q := mayStart_cons.mpr (.inl ⟨hbetter.1, rfl⟩)
      rw [ih]
      constructor
      · rintro ⟨h, -⟩
        cases h
      · rintro ⟨-, h⟩
        exact absurd hq (h q)
    · next hbetter =>
      rw [ih]
      constructor
      · rintro ⟨rfl, h⟩
        refine ⟨rfl, fun p hp => ?_⟩
        rcases mayStart_cons.mp hp with ⟨helig, -⟩ | hrest
        · exact hbetter (by simp [helig])
        · exact h p hrest
      · rintro ⟨hbest, h⟩
        exact ⟨hbest, fun p hp => h p (.later hp)⟩

/-- **At the place that is found there is a pattern that may be started.** -/
theorem mayStart_of_bestPlace {place : Nat} (h : (r.bestPlace archetype s g).1 = some place) :
    ∃ p, (r.available archetype)[place]? = some p ∧ MayStart s (r.available archetype) g p := by
  obtain ⟨b, hb, rfl⟩ := Option.map_eq_some_iff.mp h
  obtain hnone | hp := mayStart_of_bestFrom List.drop_zero hb
  · cases hnone
  · exact hp

/-- **What is selected may be started.** -/
theorem mayStart_of_select (h : (r.select archetype s g).1 = some p) :
    MayStart s (r.available archetype) g p := by
  obtain ⟨place, hplace, hp⟩ := Option.bind_eq_some_iff.mp h
  obtain ⟨q, hq, hstart⟩ := mayStart_of_bestPlace hplace
  obtain rfl := Option.some.inj (hq.symm.trans hp)
  exact hstart

/-- **Nothing is selected only if nothing may be started.** -/
theorem select_eq_none_iff :
    (r.select archetype s g).1 = none ↔ ∀ p, ¬ MayStart s (r.available archetype) g p := by
  have hplace : (r.select archetype s g).1 = none ↔ (r.bestPlace archetype s g).1 = none := by
    show (r.bestPlace archetype s g).1.bind _ = none ↔ _
    cases hfound : (r.bestPlace archetype s g).1 with
    | none => exact iff_of_true rfl rfl
    | some place =>
      -- a place is found only where a pattern stands
      obtain ⟨p, hp, -⟩ := mayStart_of_bestPlace hfound
      rw [Option.bind_some, hp]
      exact iff_of_false nofun nofun
  rw [hplace, bestPlace, Option.map_eq_none_iff, bestFrom_eq_none_iff]
  exact and_iff_right rfl

end Repertoire

end Instinct
