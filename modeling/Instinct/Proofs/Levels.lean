import Instinct.Node

/-! # The nodes below a node

* **`Repertoire.All`** — what holds of all patterns of a repertoire.
* **`Repertoire.roots`** — the roots of all patterns; **`Repertoire.roots_modify`** — what holds of
  them all still holds after a change to one pattern that keeps it.
* **`Node.beneath`** — the nodes right below a node, the roots of its patterns among them.
* **`Node.levels_le_succ_iff`** — a node has one level more than the nodes right below it.
* **`Node.beneath_induction`** — what holds of a node as soon as it holds of the nodes right below
  holds of all nodes.
* **`Node.unroll`** — a function that goes level by level does at a node what it does at the node
  itself, and the same right below.
* **`Node.Everywhere p n`** — `p` holds of `n` and of all nodes below. -/

namespace Instinct

/-- **What holds of all patterns of a repertoire.** -/
def Repertoire.All {N G : Type} (Q : Pattern N G → Prop) (r : Repertoire N G) : Prop :=
  ∀ e ∈ r.groups.entries, ∀ p ∈ e.2, Q p

/-- The roots of the trees in a repertoire. -/
def Repertoire.roots {N G : Type} (r : Repertoire N G) : List N :=
  r.groups.entries.flatMap fun e => e.2.map (·.tree.root)

namespace Repertoire

variable {N G : Type} {r : Repertoire N G} {archetype name : String} {Q : Pattern N G → Prop}
  {P : N → Prop}

/-- What holds of all patterns holds of those of one archetype. -/
theorem All.of_mem (h : r.All Q) {p : Pattern N G} (hp : p ∈ r.available archetype) : Q p := by
  unfold available at hp
  cases hgroup : r.groups.get? archetype with
  | none =>
    rw [hgroup] at hp
    cases hp
  | some ps =>
    rw [hgroup] at hp
    exact h (archetype, ps) (NameMap.Raw.mem_of_lookup hgroup) p hp

/-- A pattern that is found is one of those of its archetype. -/
theorem mem_available_of_find {p : Pattern N G} (hp : r.find archetype name = .ok p) :
    p ∈ r.available archetype := by
  unfold find at hp
  unfold available
  -- looking for a pattern fails for want of the archetype or of the name
  split at hp
  · cases hp
  · next ps hgroup =>
    rw [hgroup]
    split at hp
    · cases hp
    · next q hfound =>
      obtain rfl := Except.ok.inj hp
      exact List.mem_of_find?_eq_some hfound

/-- A change that keeps it keeps it in a list, whichever pattern it hits. -/
theorem forall_mem_changeFirst {Q : Pattern N G → Prop} {change : Pattern N G → Pattern N G}
    {ps : List (Pattern N G)} (h : ∀ p ∈ ps, Q p) (hchange : ∀ p, Q p → Q (change p)) :
    ∀ p ∈ changeFirst name change ps, Q p := by
  induction ps with
  | nil => exact h
  | cons q ps ih =>
    obtain ⟨hq, hps⟩ := List.forall_mem_cons.mp h
    rw [changeFirst]
    split
    · exact List.forall_mem_cons.mpr ⟨hchange q hq, hps⟩
    · exact List.forall_mem_cons.mpr ⟨hq, ih hps⟩

/-- **A change that keeps what holds of all patterns** may be made to any of them. -/
theorem All.modify (h : r.All Q) {change : Pattern N G → Pattern N G}
    (hchange : ∀ p, Q p → Q (change p)) : (r.modify archetype name change).All Q :=
  NameMap.Raw.forall_mem_modify (P := fun ps => ∀ p ∈ ps, Q p) h
    fun _ hps => forall_mem_changeFirst hps hchange

/-- What holds of all roots holds of the root of each pattern. -/
theorem forall_mem_roots : (∀ c ∈ r.roots, P c) ↔ r.All fun p => P p.tree.root := by
  simp only [All, roots, List.mem_flatMap, List.mem_map]
  exact ⟨fun h e he p hp => h _ ⟨e, he, p, hp, rfl⟩,
    fun h c ⟨e, he, p, hp, hc⟩ => hc ▸ h e he p hp⟩

/-- What holds of the roots of all patterns holds of that of a pattern that is found. -/
theorem root_of_find (h : ∀ c ∈ r.roots, P c) {p : Pattern N G}
    (hp : r.find archetype name = .ok p) : P p.tree.root :=
  (forall_mem_roots.mp h).of_mem (mem_available_of_find hp)

/-- What holds of the roots of all patterns still does after a change to one that keeps it. -/
theorem roots_modify (h : ∀ c ∈ r.roots, P c) {change : Pattern N G → Pattern N G}
    (hchange : ∀ p, P p.tree.root → P (change p).tree.root) :
    ∀ c ∈ (r.modify archetype name change).roots, P c :=
  forall_mem_roots.mpr ((forall_mem_roots.mp h).modify hchange)

end Repertoire

namespace Node

variable {G : Type}

/-- **The nodes right below a node**, the roots of its patterns among them. -/
def beneath : Node G → List (Node G)
  | composite _ _ children => children
  | decorator _ _ child => child.toList
  | leaf _ _ => []
  | patterns _ s => s.repertoire.roots
  | custom _ children => children

/-! ## Levels -/

/-- A list of nodes has no more levels than each of them. -/
theorem levelsOfAll_le_iff (ns : List (Node G)) (k : Nat) :
    levelsOfAll ns ≤ k ↔ ∀ n ∈ ns, n.levels ≤ k := by
  induction ns with
  | nil => simp [levelsOfAll]
  | cons n ns ih => rw [levelsOfAll, Nat.max_le, ih, List.forall_mem_cons]

/-- Nor has a child that may be missing. -/
theorem levelsOfOption_le_iff (child : Option (Node G)) (k : Nat) :
    levelsOfOption child ≤ k ↔ ∀ n ∈ child.toList, n.levels ≤ k := by
  cases child <;> simp [levelsOfOption]

/-- A pattern has the levels of the root of its tree. -/
theorem levelsOfPattern_eq (p : Pattern (Node G) G) :
    levelsOfPattern p = p.tree.root.levels := by
  obtain ⟨name, ⟨root, board, last, ticks, warns⟩, priority, cooldown, lastUsed, condition⟩ := p
  rw [levelsOfPattern, levelsOfTree]

/-- A list of patterns has no more levels than the root of each. -/
theorem levelsOfPatterns_le_iff (ps : List (Pattern (Node G) G)) (k : Nat) :
    levelsOfPatterns ps ≤ k ↔ ∀ n ∈ ps.map (·.tree.root), n.levels ≤ k := by
  induction ps with
  | nil => simp [levelsOfPatterns]
  | cons p ps ih =>
    rw [levelsOfPatterns, levelsOfPattern_eq, Nat.max_le, ih, List.map_cons, List.forall_mem_cons]

/-- Nor have the entries of a repertoire. -/
theorem levelsOfEntries_le_iff (es : List (String × List (Pattern (Node G) G))) (k : Nat) :
    levelsOfEntries es ≤ k ↔
      ∀ n ∈ es.flatMap fun e => e.2.map (·.tree.root), n.levels ≤ k := by
  induction es with
  | nil => simp [levelsOfEntries]
  | cons e es ih =>
    rw [levelsOfEntries, levelsOfEntry, Nat.max_le, ih, levelsOfPatterns_le_iff,
      List.flatMap_cons, List.forall_mem_append]

/-- **A node has one level more** than the nodes right below it. -/
theorem levels_le_succ_iff (n : Node G) (k : Nat) :
    n.levels ≤ k + 1 ↔ ∀ c ∈ n.beneath, c.levels ≤ k := by
  cases n with
  | composite title memory children =>
    rw [levels, Nat.succ_le_succ_iff, levelsOfAll_le_iff, beneath]
  | decorator title memory child =>
    rw [levels, Nat.succ_le_succ_iff, levelsOfOption_le_iff, beneath]
  | leaf title memory => simp [levels, beneath]
  | patterns title memory =>
    -- the levels of a repertoire are those of its entries, pattern by pattern
    obtain ⟨archetype, ⟨⟨entries⟩⟩, running, lastChoice⟩ := memory
    rw [levels, Nat.succ_le_succ_iff, levelsOfSelection, levelsOfRepertoire, levelsOfGroups]
    exact levelsOfEntries_le_iff entries k
  | custom memory children =>
    rw [levels, Nat.succ_le_succ_iff, levelsOfAll_le_iff, beneath]

/-- A node is a level itself. -/
theorem one_le_levels (n : Node G) : 1 ≤ n.levels := by
  cases n <;> simp [levels]

/-- There are fewer levels below a node than it has itself. -/
theorem levels_lt_of_mem_beneath {n c : Node G} (hc : c ∈ n.beneath) : c.levels < n.levels := by
  have hn := one_le_levels n
  have h := (levels_le_succ_iff n (n.levels - 1)).mp (by omega) c hc
  omega

/-- **Induction from the leaves to the root**, through the trees of patterns too. -/
theorem beneath_induction {motive : Node G → Prop}
    (step : ∀ n, (∀ c ∈ n.beneath, motive c) → motive n) (n : Node G) : motive n := by
  -- nodes nest in lists of named lists, where their own recursor is of no use
  induction h : n.levels using Nat.strongRecOn generalizing n with
  | ind k ih =>
    refine step n fun c hc => ih c.levels ?_ c rfl
    rw [← h]
    exact levels_lt_of_mem_beneath hc

section Unroll

variable {A : Type} {upto : Nat → Node G → A} {layer : (Node G → A) → Node G → A}

/-- A function that goes level by level, and at a level looks right below the node only, needs no
more levels than the node has. -/
theorem eq_of_levels_le (hsucc : ∀ k n, upto (k + 1) n = layer (upto k) n)
    (hlayer : ∀ f g n, (∀ c ∈ n.beneath, f c = g c) → layer f n = layer g n) {j k : Nat}
    {n : Node G} (hj : n.levels ≤ j) (hk : n.levels ≤ k) : upto j n = upto k n := by
  induction j generalizing k n with
  | zero =>
    have hn := n.one_le_levels
    omega
  | succ j ih =>
    -- a node has a level of its own, so neither number is zero
    obtain ⟨k, rfl⟩ : ∃ i, k = i + 1 := ⟨k - 1, by have hn := n.one_le_levels; omega⟩
    rw [hsucc, hsucc]
    apply hlayer
    intro c hc
    apply ih
    · exact (n.levels_le_succ_iff j).mp hj c hc
    · exact (n.levels_le_succ_iff k).mp hk c hc

variable (upto layer) in
/-- **The levels need not be counted**: with as many as each node has, one level is that of the node
itself, over the same right below it. -/
theorem unroll (hsucc : ∀ k n, upto (k + 1) n = layer (upto k) n)
    (hlayer : ∀ f g n, (∀ c ∈ n.beneath, f c = g c) → layer f n = layer g n) (n : Node G) :
    upto n.levels n = layer (fun c => upto c.levels c) n := by
  rw [eq_of_levels_le hsucc hlayer (Nat.le_refl _) (Nat.le_succ n.levels), hsucc]
  apply hlayer
  intro c hc
  have hlevels : c.levels ≤ n.levels := Nat.le_of_lt (levels_lt_of_mem_beneath hc)
  exact eq_of_levels_le hsucc hlayer hlevels (Nat.le_refl _)

end Unroll

/-! ## What holds throughout a node -/

/-- **`p` holds of a node and of all nodes below it.** -/
inductive Everywhere (p : Node G → Prop) : Node G → Prop
  | intro {n} (here : p n) (beneath : ∀ c ∈ n.beneath, Everywhere p c) : Everywhere p n

variable {p q : Node G → Prop}

/-- **What holds throughout a node** holds of it and throughout the nodes right below. -/
theorem everywhere_iff {n : Node G} :
    Everywhere p n ↔ p n ∧ ∀ c ∈ n.beneath, Everywhere p c := by
  constructor
  · rintro ⟨here, beneath⟩
    exact ⟨here, beneath⟩
  · rintro ⟨here, beneath⟩
    exact ⟨here, beneath⟩

/-- Throughout a composite and its children. -/
@[simp] theorem everywhere_composite {title : Option String} {c : Composite} {cs : List (Node G)} :
    Everywhere p (composite title c cs) ↔
      p (composite title c cs) ∧ ∀ c ∈ cs, Everywhere p c := everywhere_iff

/-- Throughout a decorator and the child it may have. -/
@[simp] theorem everywhere_decorator {title : Option String} {d : Decorator G}
    {child : Option (Node G)} :
    Everywhere p (decorator title d child) ↔
      p (decorator title d child) ∧ ∀ c ∈ child, Everywhere p c := by
  rw [everywhere_iff]
  simp [beneath]

/-- A leaf has nothing below it. -/
@[simp] theorem everywhere_leaf {title : Option String} {l : Leaf G} :
    Everywhere p (leaf title l) ↔ p (leaf title l) := by
  rw [everywhere_iff]
  exact and_iff_left fun c hc => nomatch hc

/-- Throughout a leaf that drives patterns and the trees of these. -/
@[simp] theorem everywhere_patterns {title : Option String} {s : Selection (Node G) G} :
    Everywhere p (patterns title s) ↔
      p (patterns title s) ∧ ∀ c ∈ s.repertoire.roots, Everywhere p c := everywhere_iff

/-- Throughout a custom node and its children. -/
@[simp] theorem everywhere_custom {c : Custom G} {cs : List (Node G)} :
    Everywhere p (custom c cs) ↔ p (custom c cs) ∧ ∀ ch ∈ cs, Everywhere p ch := everywhere_iff

/-- What follows from it holds throughout as well. -/
theorem Everywhere.mono (hpq : ∀ n, p n → q n) {n : Node G} (h : Everywhere p n) :
    Everywhere q n := by
  induction h with
  | intro here _ ih => exact ⟨hpq _ here, ih⟩

/-- Two things that hold throughout hold together. -/
theorem Everywhere.and {n : Node G} (hp : Everywhere p n) (hq : Everywhere q n) :
    Everywhere (fun c => p c ∧ q c) n := by
  induction hp with
  | intro hn _ ih =>
    obtain ⟨hn', hbelow⟩ := hq
    exact ⟨⟨hn, hn'⟩, fun c hc => ih c hc (hbelow c hc)⟩

end Node

end Instinct
