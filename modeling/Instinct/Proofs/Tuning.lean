import Instinct.Node.Kinds
import Instinct.Proofs.Isolation
import Instinct.Proofs.SortedMaps
import Mathlib.Data.List.Forall2

/-! # What a tuning does to a repertoire

A tuning lists overrides by archetype and pattern. They are applied one after the other, up to the
first that names no pattern, and nobody looks at an archetype that is listed with no pattern.

* **`Tuning.Before`**, **`Tuning.pairwise_entries`** — the order in which overrides stand.
* **`Pattern.Retuned o p p'`** — `p'` is `p` under an override.
* **`Repertoire.Lacks`** — why a name stands for no pattern.
* **`Repertoire.Overlaid es r r'`** — `r'` is `r` under a list of overrides; **`overlaid_modify`**,
  **`Overlaid.append`** — one override, and overrides after others.
* **`Repertoire.applyOverrides_cases`** — overrides are applied to the last, or up to the first that
  is lacking.
* **`Repertoire.tune_accepts`**, **`Repertoire.tune_accepts_unknown`** — which tunings are accepted.
* **`Repertoire.tune_in_order`** — what a tuning does, accepted or not. -/

namespace Instinct

/-! ## (1) The order of overrides -/

namespace Tuning

/-- **One override stands before another**: archetypes are in the order of their names, and so are
the patterns of one archetype. -/
def Before (e e' : String × String × Override) : Prop :=
  NameBefore e.1 e'.1 ∨ e.1 = e'.1 ∧ NameBefore e.2.1 e'.2.1

/-- No pattern is named twice. -/
theorem Before.ne {a n b k : String} {o o' : Override} (h : Before (a, n, o) (b, k, o')) :
    ¬ (a = b ∧ n = k) := by
  rintro ⟨rfl, rfl⟩
  rcases h with h | ⟨-, h⟩
  · exact NameBefore.irrefl a h
  · exact NameBefore.irrefl n h

/-- **The overrides of a tuning stand in ascending order.** -/
theorem pairwise_entries (t : Tuning) : t.entries.Pairwise Before := by
  rw [entries, List.pairwise_flatMap]
  constructor
  · intro a _
    rw [List.pairwise_map]
    exact List.Pairwise.imp (fun hpatterns => .inr ⟨rfl, hpatterns⟩) a.2.sorted
  · refine List.Pairwise.imp (fun {a b} hab => ?_) t.archetypes.sorted
    intro e he e' he'
    obtain ⟨p, -, rfl⟩ := List.mem_map.mp he
    obtain ⟨q, -, rfl⟩ := List.mem_map.mp he'
    exact .inl hab

end Tuning

variable {N G : Type}

/-! ## (2) A pattern under an override -/

/-- **A pattern under an override**: the priority and the cooldown, which is given in milliseconds,
are replaced where the override has them, and nothing else is. -/
structure Pattern.Retuned (o : Override) (p p' : Pattern N G) : Prop where
  priority : p'.priority = o.priority.getD p.priority
  cooldown : p'.cooldown = (o.cooldownMs.map .ofMillis).getD p.cooldown
  others : p' = { p with priority := p'.priority, cooldown := p'.cooldown }

/-- A pattern keeps its name under an override. -/
theorem Pattern.Retuned.name {o : Override} {p p' : Pattern N G} (h : p.Retuned o p') :
    p'.name = p.name := by
  rw [h.others]

namespace Repertoire

variable {r r' r'' : Repertoire N G} {a n b k : String} {p p' : Pattern N G} {o : Override}
  {e : PatternError} {es rest : List (String × String × Override)}

/-- What an override makes of a pattern is the pattern under it. -/
theorem retuned_overridden (o : Override) (p : Pattern N G) : p.Retuned o (overridden o p) :=
  ⟨rfl, rfl, rfl⟩

/-- The same override once more changes nothing. -/
theorem overridden_of_retuned (h : p.Retuned o p') : overridden o p' = p' := by
  obtain ⟨hpriority, hcooldown, -⟩ := h
  have hsame : o.priority.getD p'.priority = p'.priority := by
    rw [hpriority]
    cases o.priority <;> rfl
  have hsame' : o.cooldown.getD p'.cooldown = p'.cooldown := by
    rw [hcooldown]
    show o.cooldown.getD (o.cooldown.getD p.cooldown) = o.cooldown.getD p.cooldown
    cases o.cooldown <;> rfl
  rw [overridden, hsame, hsame']

/-! ## (3) Names that stand for no pattern -/

/-- **Why a name stands for no pattern**: the archetype has none at all, or none of that name. -/
def Lacks (r : Repertoire N G) (archetype name : String) (e : PatternError) : Prop :=
  (e = .unknownArchetype archetype ∧ archetype ∉ r.archetypes) ∨
  (e = .unknownPattern archetype name ∧ archetype ∈ r.archetypes ∧
    name ∉ (r.available archetype).map (·.name))

/-- The archetypes that are there are those with a group. -/
theorem mem_archetypes_iff : a ∈ r.archetypes ↔ ∃ ps, r.groups.get? a = some ps := by
  rw [archetypes, r.groups.mem_names_iff, Option.isSome_iff_exists]

/-- An archetype that has a pattern is there. -/
theorem mem_archetypes_of_mem_available (h : p ∈ r.available a) : a ∈ r.archetypes := by
  rw [mem_archetypes_iff]
  unfold available at h
  cases hps : r.groups.get? a with
  | none =>
    rw [hps] at h
    cases h
  | some ps => exact ⟨ps, rfl⟩

/-- Looking up with a reason gives the reason why there is no pattern. -/
theorem lacks_of_find (h : r.find a n = .error e) : r.Lacks a n e := by
  unfold find at h
  cases hps : r.groups.get? a with
  | none =>
    rw [hps] at h
    -- the archetype has no group at all
    refine .inl ⟨(Except.error.inj h).symm, fun ha => ?_⟩
    obtain ⟨ps, hps'⟩ := mem_archetypes_iff.mp ha
    cases hps.symm.trans hps'
  | some ps =>
    rw [hps] at h
    dsimp only at h
    have havailable : r.available a = ps := by rw [available, hps, Option.getD_some]
    cases hp : ps.find? (·.name = n) with
    | some p =>
      rw [hp] at h
      cases h
    | none =>
      rw [hp] at h
      -- it has one, but no pattern of the name
      refine .inr ⟨(Except.error.inj h).symm, mem_archetypes_iff.mpr ⟨ps, hps⟩, ?_⟩
      rw [havailable]
      simpa using List.find?_eq_none.mp hp

/-- A name that stands for no pattern is not found. -/
theorem get?_of_lacks (h : r.Lacks a n e) : r.get? a n = none := by
  cases hp : r.get? a n with
  | none => rfl
  | some p =>
    obtain ⟨hmem, hname⟩ := mem_available_of_get? hp
    rcases h with ⟨-, ha⟩ | ⟨-, -, hnone⟩
    · exact absurd (mem_archetypes_of_mem_available hmem) ha
    · rw [← hname] at hnone
      exact absurd (List.mem_map_of_mem hmem) hnone

/-- There is one reason only. -/
theorem find_of_lacks (h : r.Lacks a n e) : r.find a n = .error e := by
  cases hfind : r.find a n with
  | ok p => cases (get?_of_lacks h).symm.trans (get?_of_find hfind)
  | error e' =>
    rcases h with ⟨rfl, ha⟩ | ⟨rfl, ha, -⟩ <;>
      rcases lacks_of_find hfind with ⟨rfl, ha'⟩ | ⟨rfl, ha', -⟩
    · rfl
    · exact absurd ha' ha
    · exact absurd ha ha'
    · rfl

/-! ## (4) A repertoire under a list of overrides -/

/-- **`r'` is `r` under the overrides `es`.** Archetypes and patterns are where they were. A pattern
is as it was or is one that its name stands for, under the override that names it; every override
is seen where its name is looked up, and a name that is not listed finds what it found. -/
structure Overlaid (es : List (String × String × Override)) (r r' : Repertoire N G) : Prop where
  archetypes : r'.archetypes = r.archetypes
  inPlace : ∀ a, List.Forall₂ (fun p p' => p' = p ∨
    ∃ o, (a, p.name, o) ∈ es ∧ r.get? a p.name = some p ∧ p.Retuned o p')
    (r.available a) (r'.available a)
  listed : ∀ a n o, (a, n, o) ∈ es →
    ∃ p p', r.get? a n = some p ∧ r'.get? a n = some p' ∧ p.Retuned o p'
  unlisted : ∀ a n, (∀ o, (a, n, o) ∉ es) → r'.get? a n = r.get? a n

/-- Without overrides nothing has changed. -/
theorem overlaid_nil (r : Repertoire N G) : Overlaid [] r r where
  archetypes := rfl
  inPlace _ := List.forall₂_same.mpr fun _ _ => .inl rfl
  listed _ _ _ h := nomatch h
  unlisted _ _ _ := rfl

/-- The patterns of every archetype are named as before. -/
theorem Overlaid.names (h : Overlaid es r r') (a : String) :
    (r'.available a).map (·.name) = (r.available a).map (·.name) := by
  refine names_of_forall₂ (fun p p' hp => ?_) (h.inPlace a)
  rcases hp with rfl | ⟨o, -, -, hretuned⟩
  · rfl
  · exact hretuned.name

/-- **Which names stand for patterns** does not change. -/
theorem Overlaid.lacks_iff (h : Overlaid es r r') : r'.Lacks a n e ↔ r.Lacks a n e := by
  rw [Lacks, Lacks, h.archetypes, h.names]

/-- **One override** of a pattern that is there. -/
theorem overlaid_modify (hp : r.get? a n = some p) (o : Override) :
    Overlaid [(a, n, o)] r (r.modify a n (overridden o)) := by
  obtain rfl : p.name = n := (mem_available_of_get? hp).2
  have hswaps := swaps_modify (f := overridden o) hp
  have hget := hswaps.get? rfl
  refine ⟨hswaps.archetypes, fun b => ?_, fun b k o' hmem => ?_, fun b k hnot => ?_⟩
  · -- only the pattern of that name is another one now
    refine hswaps.forall₂ (fun _ => .inl rfl) fun hb => .inr ⟨o, ?_, ?_, retuned_overridden o p⟩
    · rw [hb]
      exact List.mem_singleton_self _
    · rw [hb]
      exact hp
  · obtain ⟨rfl, rfl, rfl⟩ : b = a ∧ k = p.name ∧ o' = o := by simpa using hmem
    refine ⟨p, overridden o' p, hp, ?_, retuned_overridden o' p⟩
    rw [hget, if_pos ⟨rfl, rfl⟩]
  · rw [hget, if_neg]
    rintro ⟨rfl, rfl⟩
    exact hnot o (List.mem_singleton_self _)

/-- **Overrides after others** that name none of the same patterns. -/
theorem Overlaid.append (h : Overlaid es r r') (h' : Overlaid rest r' r'')
    (hapart : ∀ a n o o', (a, n, o) ∈ es → (a, n, o') ∉ rest) :
    Overlaid (es ++ rest) r r'' := by
  -- a name that the second list has found the same pattern before the first
  have hbefore : ∀ a n o, (a, n, o) ∈ rest → r'.get? a n = r.get? a n := by
    intro a n o hmem
    exact h.unlisted a n fun o' hmem' => hapart a n o' o hmem' hmem
  have hafter : ∀ a n o, (a, n, o) ∈ es → r''.get? a n = r'.get? a n := by
    intro a n o hmem
    exact h'.unlisted a n fun o' => hapart a n o o' hmem
  refine ⟨h'.archetypes.trans h.archetypes, fun a => ?_, fun a n o hmem => ?_, fun a n hnot => ?_⟩
  · refine forall₂_comp ?_ (h.inPlace a) (h'.inPlace a)
    intro q q' q'' hq hq'
    rcases hq with rfl | ⟨o, hmem, hfound, hretuned⟩
    · rcases hq' with rfl | ⟨o, hmem, hfound, hretuned⟩
      · exact .inl rfl
      · rw [hbefore a _ o hmem] at hfound
        exact .inr ⟨o, List.mem_append_right _ hmem, hfound, hretuned⟩
    · rcases hq' with rfl | ⟨o', hmem', -, -⟩
      · exact .inr ⟨o, List.mem_append_left _ hmem, hfound, hretuned⟩
      · rw [hretuned.name] at hmem'
        exact absurd hmem' (hapart a q.name o o' hmem)
  · rcases List.mem_append.mp hmem with hmem | hmem
    · obtain ⟨p, p', hp, hp', hretuned⟩ := h.listed a n o hmem
      exact ⟨p, p', hp, (hafter a n o hmem).trans hp', hretuned⟩
    · obtain ⟨p, p', hp, hp', hretuned⟩ := h'.listed a n o hmem
      exact ⟨p, p', (hbefore a n o hmem).symm.trans hp, hp', hretuned⟩
  · rw [h'.unlisted a n fun o hmem => hnot o (List.mem_append_right _ hmem)]
    exact h.unlisted a n fun o hmem => hnot o (List.mem_append_left _ hmem)

/-! ## (5) Overrides one after the other -/

/-- An override makes no name stand for a pattern that did not. -/
theorem lacks_modify_iff :
    (r.modify b k (overridden o)).Lacks a n e ↔ r.Lacks a n e := by
  cases hq : r.get? b k with
  | none => rw [modify_of_get?_eq_none hq]
  | some q => exact (overlaid_modify hq o).lacks_iff

/-- A name stands for a pattern unless it is lacking. -/
theorem exists_get?_or_lacks (r : Repertoire N G) (a n : String) :
    (∃ p, r.get? a n = some p) ∨ ∃ e, r.Lacks a n e := by
  cases h : r.find a n with
  | ok p => exact .inl ⟨p, get?_of_find h⟩
  | error e => exact .inr ⟨e, lacks_of_find h⟩

/-- A name that finds a pattern after a change found one before. -/
theorem exists_get?_modify (h : ∃ p, (r.modify b k (overridden o)).get? a n = some p) :
    ∃ p, r.get? a n = some p := by
  rcases exists_get?_or_lacks r a n with hp | ⟨e, he⟩
  · exact hp
  · obtain ⟨p, hp⟩ := h
    cases (get?_of_lacks (lacks_modify_iff.mpr he)).symm.trans hp

/-- An override for a pattern that is there is applied, and the rest after it. -/
theorem applyOverrides_of_get? (hp : r.get? a n = some p) :
    applyOverrides ((a, n, o) :: es) r = applyOverrides es (r.modify a n (overridden o)) := by
  rw [applyOverrides, find_eq_ok hp]

/-- An override for one that is lacking ends it all. -/
theorem applyOverrides_of_lacks (h : r.Lacks a n e) :
    applyOverrides ((a, n, o) :: es) r = (r, some e) := by
  rw [applyOverrides, find_of_lacks h]

/-- **Overrides are applied to the last**, or up to the first whose pattern is lacking. -/
theorem applyOverrides_cases (es : List (String × String × Override)) (r : Repertoire N G) :
    ∃ applied rest, es = applied ++ rest ∧ (∀ x ∈ applied, ∃ p, r.get? x.1 x.2.1 = some p) ∧
      (applyOverrides applied r).2 = none ∧
      (applyOverrides es r).1 = (applyOverrides applied r).1 ∧
      (((applyOverrides es r).2 = none ∧ rest = []) ∨
        ∃ x after e, rest = x :: after ∧ (applyOverrides es r).2 = some e ∧
          r.Lacks x.1 x.2.1 e) := by
  induction es generalizing r with
  | nil => exact ⟨[], [], rfl, List.forall_mem_nil _, rfl, rfl, .inl ⟨rfl, rfl⟩⟩
  | cons x es ih =>
    obtain ⟨a, n, o⟩ := x
    rcases exists_get?_or_lacks r a n with ⟨p, hp⟩ | ⟨e, he⟩
    · -- one more is applied, and where it stops is decided by those after it
      obtain ⟨applied, rest, rfl, hknown, hnone, hsame, hend⟩ := ih (r.modify a n (overridden o))
      refine ⟨(a, n, o) :: applied, rest, rfl, List.forall_mem_cons.mpr ⟨⟨p, hp⟩, ?_⟩, ?_, ?_, ?_⟩
      · exact fun x hx => exists_get?_modify (hknown x hx)
      · rw [applyOverrides_of_get? hp, hnone]
      · rw [applyOverrides_of_get? hp, applyOverrides_of_get? hp, hsame]
      · rw [applyOverrides_of_get? hp]
        rcases hend with hend | ⟨x, after, e, hrest, herror, hlacks⟩
        · exact .inl hend
        · exact .inr ⟨x, after, e, hrest, herror, lacks_modify_iff.mp hlacks⟩
    · -- the first one is lacking already, and nothing was applied
      refine ⟨[], (a, n, o) :: es, rfl, List.forall_mem_nil _, rfl, ?_, ?_⟩
      · rw [applyOverrides_of_lacks he]
        rfl
      · rw [applyOverrides_of_lacks he]
        exact .inr ⟨(a, n, o), es, e, rfl, rfl, he⟩

/-- **Overrides of different patterns** do not get in each other's way. -/
theorem overlaid_applyOverrides (hes : es.Pairwise Tuning.Before)
    (hall : (applyOverrides es r).2 = none) : Overlaid es r (applyOverrides es r).1 := by
  induction es generalizing r with
  | nil => exact overlaid_nil r
  | cons x es ih =>
    obtain ⟨a, n, o⟩ := x
    obtain ⟨hbefore, hes⟩ := List.pairwise_cons.mp hes
    rcases exists_get?_or_lacks r a n with ⟨p, hp⟩ | ⟨e, he⟩
    · rw [applyOverrides_of_get? hp] at hall ⊢
      -- a later override is for another pattern, as the order is strict
      refine (overlaid_modify hp o).append (ih hes hall) fun b k o₁ o₂ hmem hmem' => ?_
      obtain ⟨rfl, rfl, rfl⟩ : b = a ∧ k = n ∧ o₁ = o := by simpa using hmem
      exact (hbefore _ hmem').ne ⟨rfl, rfl⟩
    · rw [applyOverrides_of_lacks he] at hall
      cases hall

/-! ## (6) Overrides once more -/

/-- A change that leaves the pattern of a name as it is changes nothing. -/
theorem modify_of_fixed {f : Pattern N G → Pattern N G} (hp : r.get? a n = some p)
    (hf : f p = p) : r.modify a n f = r := by
  refine congrArg Repertoire.mk (NameMap.Raw.modify_eq_self fun ps hps => ?_)
  have havailable : r.available a = ps := by
    rw [available, Option.mem_def.mp hps, Option.getD_some]
  rw [get?, havailable] at hp
  obtain ⟨before, after, hsplit, hchange, -⟩ := changeFirst_of_find? (f := f) hp
  rw [hchange, hf, hsplit]

/-- Overrides that are in force already are passed over. -/
theorem applyOverrides_of_fixed
    (h : ∀ x ∈ es, ∃ p, r.get? x.1 x.2.1 = some p ∧ overridden x.2.2 p = p) :
    applyOverrides (es ++ rest) r = applyOverrides rest r := by
  induction es with
  | nil => rfl
  | cons x es ih =>
    obtain ⟨⟨p, hp, hfixed⟩, hes⟩ := List.forall_mem_cons.mp h
    rw [List.cons_append, applyOverrides_of_get? hp, modify_of_fixed hp hfixed, ih hes]

/-- The patterns that are listed are as the list would make them. -/
theorem Overlaid.fixed (h : Overlaid es r r') :
    ∀ x ∈ es, ∃ p, r'.get? x.1 x.2.1 = some p ∧ overridden x.2.2 p = p := by
  intro x hx
  obtain ⟨p, p', -, hp', hretuned⟩ := h.listed x.1 x.2.1 x.2.2 hx
  exact ⟨p', hp', overridden_of_retuned hretuned⟩

/-! ## (7) Tunings -/

/-- **All overrides are applied** exactly if each finds its pattern. -/
theorem applyOverrides_eq_none_iff :
    (applyOverrides es r).2 = none ↔ ∀ x ∈ es, ∃ p, r.get? x.1 x.2.1 = some p := by
  obtain ⟨applied, rest, rfl, hknown, -, -, hend⟩ := applyOverrides_cases es r
  constructor
  · intro hnone
    rcases hend with ⟨-, rfl⟩ | ⟨x, after, e, -, herror, -⟩
    · rw [List.append_nil]
      exact hknown
    · cases herror.symm.trans hnone
  · intro hall
    rcases hend with ⟨hnone, -⟩ | ⟨x, after, e, rfl, -, hlacks⟩
    · exact hnone
    · obtain ⟨p, hp⟩ := hall x (List.mem_append_right _ List.mem_cons_self)
      cases (get?_of_lacks hlacks).symm.trans hp

/-- **A tuning is accepted** just if each archetype that it lists with a pattern is there, and has
all patterns that are listed for it. An archetype that is listed with no pattern is not looked
up. -/
theorem tune_accepts (r : Repertoire N G) (t : Tuning) :
    (r.tune t).2 = none ↔ ∀ a ∈ t.archetypes.entries, a.2.entries ≠ [] →
      a.1 ∈ r.archetypes ∧ ∀ o ∈ a.2.entries, ∃ p ∈ r.available a.1, p.name = o.1 := by
  rw [tune, applyOverrides_eq_none_iff]
  constructor
  · intro hall a ha hne
    have hfound : ∀ o ∈ a.2.entries, ∃ p ∈ r.available a.1, p.name = o.1 := by
      intro o ho
      obtain ⟨p, hp⟩ := hall (a.1, o.1, o.2)
        (List.mem_flatMap.mpr ⟨a, ha, List.mem_map.mpr ⟨o, ho, rfl⟩⟩)
      exact ⟨p, mem_available_of_get? hp⟩
    -- an archetype that is listed with a pattern is there, as the pattern is
    obtain ⟨o, ho⟩ := List.exists_mem_of_ne_nil _ hne
    obtain ⟨p, hp, -⟩ := hfound o ho
    exact ⟨mem_archetypes_of_mem_available hp, hfound⟩
  · intro hall x hx
    obtain ⟨a, ha, hx⟩ := List.mem_flatMap.mp hx
    obtain ⟨o, ho, rfl⟩ := List.mem_map.mp hx
    obtain ⟨-, hfound⟩ := hall a ha (List.ne_nil_of_mem ho)
    obtain ⟨p, hp, hname⟩ := hfound o ho
    rcases exists_get?_or_lacks r a.1 o.1 with hget | ⟨e, ⟨-, hnot⟩ | ⟨-, -, hnone⟩⟩
    · exact hget
    · exact absurd (mem_archetypes_of_mem_available hp) hnot
    · rw [← hname] at hnone
      exact absurd (List.mem_map_of_mem hp) hnone

/-- **An archetype that is not there may be listed** all the same, as long as no pattern of it
is. -/
theorem tune_accepts_unknown :
    let t : Tuning := ⟨.ofList [("dragon", .empty)]⟩
    ((empty : Repertoire Unit Unit).tune t).2 = none ∧
      "dragon" ∈ t.archetypes.names ∧ "dragon" ∉ (empty : Repertoire Unit Unit).archetypes := by
  decide

/-- **What a tuning does.** Its overrides stand in ascending order. If it is accepted, they are all
applied; if it is not, those before the first whose pattern is lacking are, and the error is about
that one. Either way nothing else is changed, and the same tuning once more changes nothing. -/
theorem tune_in_order (r : Repertoire N G) (t : Tuning) :
    t.entries.Pairwise Tuning.Before ∧
    (r.tune t).1.tune t = r.tune t ∧
    ((r.tune t).2 = none → Overlaid t.entries r (r.tune t).1) ∧
    ∀ e, (r.tune t).2 = some e → ∃ applied x after, t.entries = applied ++ x :: after ∧
      (∀ y ∈ applied, Tuning.Before y x) ∧ (∀ y ∈ after, Tuning.Before x y) ∧
      r.Lacks x.1 x.2.1 e ∧ Overlaid applied r (r.tune t).1 := by
  have horder := t.pairwise_entries
  obtain ⟨applied, rest, hentries, -, hnone, hsame, hend⟩ := applyOverrides_cases t.entries r
  rw [hentries] at horder
  obtain ⟨happlied, hrest, hacross⟩ := List.pairwise_append.mp horder
  have hover : Overlaid applied r (r.tune t).1 := by
    rw [tune, hsame]
    exact overlaid_applyOverrides happlied hnone
  refine ⟨hentries ▸ horder, ?_, ?_, ?_⟩
  · -- what was applied is in force, so the second time begins where the first one ended
    have hagain : (r.tune t).1.tune t = applyOverrides rest (r.tune t).1 := by
      show applyOverrides t.entries (r.tune t).1 = _
      rw [hentries, applyOverrides_of_fixed hover.fixed]
    rcases hend with ⟨hall, rfl⟩ | ⟨x, after, e, rfl, herror, hlacks⟩
    · exact hagain.trans (Prod.ext rfl hall.symm)
    · rw [hagain, applyOverrides_of_lacks (hover.lacks_iff.mpr hlacks)]
      exact Prod.ext rfl herror.symm
  · intro hall
    rcases hend with ⟨-, rfl⟩ | ⟨x, after, e, -, herror, -⟩
    · rw [hentries, List.append_nil]
      exact hover
    · cases herror.symm.trans hall
  · intro e he
    rcases hend with ⟨hall, -⟩ | ⟨x, after, e', rfl, herror, hlacks⟩
    · cases hall.symm.trans he
    · obtain rfl : e' = e := Option.some.inj (herror.symm.trans he)
      refine ⟨applied, x, after, hentries, fun y hy => ?_, ?_, hlacks, hover⟩
      · exact hacross y hy x List.mem_cons_self
      · exact (List.pairwise_cons.mp hrest).1

/-- A wolf that can bite, and is to howl as well. -/
theorem tune_in_order_wolf :
    let r : Repertoire Unit Unit := .ofPatterns "wolf" [{ name := "bite", tree := { root := () } }]
    let bites : Override := { priority := some 3, cooldownMs := some 40 }
    let t : Tuning := ⟨.ofList [("wolf", .ofList [("howl", {}), ("bite", bites)])]⟩
    (r.tune t).2 = some (.unknownPattern "wolf" "howl") ∧
      (r.tune t).1.tune t = r.tune t ∧
      ∃ applied x after, t.entries = applied ++ x :: after ∧
        r.Lacks x.1 x.2.1 (.unknownPattern "wolf" "howl") ∧ Overlaid applied r (r.tune t).1 := by
  intro r bites t
  have herror : (r.tune t).2 = some (.unknownPattern "wolf" "howl") := by decide +kernel
  obtain ⟨-, hagain, -, hfirst⟩ := tune_in_order r t
  obtain ⟨applied, x, after, hentries, -, -, hlacks, hover⟩ := hfirst _ herror
  exact ⟨herror, hagain, applied, x, after, hentries, hlacks, hover⟩

end Repertoire

end Instinct
