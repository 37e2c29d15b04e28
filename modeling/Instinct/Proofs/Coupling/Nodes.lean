import Instinct.Proofs.Levels
import Instinct.Proofs.Coupling.Kinds
import Instinct.Proofs.Coupling.Patterns

/-! # Nodes side by side

* **`Coupling.Layered K R`** — nodes that are alike at the top, with related nodes below.
* **`Coupling.Steps.layer`** — a node keeps up if the nodes below do.
* **`Coupling.Layered.beneath`**, **`Coupling.Layered.and`** — what the relation says of the nodes
  below.
* **`Coupling.Nodes K`** — nodes that are alike throughout. -/

namespace Instinct

namespace Coupling

variable {G : Type} (K : Coupling G)

/-! ## One layer of nodes -/

/-- **Nodes alike at the top**, with related nodes below. -/
inductive Layered (R : Node G → Node G → Prop) : Node G → Node G → Prop
  | composite {title c cs cs'} (seeded : c.isRandom = true → K.seeded)
      (children : List.Forall₂ R cs cs') :
      Layered R (.composite title c cs) (.composite title c cs')
  | decorator {title d d' c c'} (memory : K.Decorators d d') (child : Option.Rel R c c') :
      Layered R (.decorator title d c) (.decorator title d' c')
  | leaf {title l l'} (memory : K.Leaves l l') : Layered R (.leaf title l) (.leaf title l')
  | patterns {title s s'} (memory : K.Selections R s s') :
      Layered R (.patterns title s) (.patterns title s')
  | custom {c cs cs'} (memory : K.Entries c.enter) (children : List.Forall₂ R cs cs') :
      Layered R (.custom c cs) (.custom c cs')

variable {K} {R S : Node G → Node G → Prop} {m m' : Machine (Node G) G}

/-- Nodes that go together bear the same name. -/
theorem Layered.name {n n' : Node G} (h : K.Layered R n n') : n'.name = n.name := by
  cases h with
  | composite _ _ => rfl
  | decorator hd _ => cases hd <;> rfl
  | leaf hl => cases hl <;> rfl
  | patterns _ => rfl
  | custom _ _ => rfl

/-- **A node keeps up** if the nodes below do. -/
theorem Steps.layer (h : K.Steps R m m') :
    K.Steps (K.Layered R) (Node.layer m) (Node.layer m') where
  tick hf hn hw := by
    simp only [Node.layer]
    cases hn with
    | composite hc hcs =>
      simp only [Node.tickLayer]
      refine Outcomes.map (h.composite hf hc hcs hw) fun r r' hr => ?_
      -- the memories have to be the same for the nodes to be built alike
      obtain ⟨c, cs⟩ := r
      obtain ⟨c', cs'⟩ := r'
      obtain ⟨hmemory, hseeded, hchildren⟩ := hr
      dsimp only at hmemory hseeded hchildren
      subst hmemory
      exact .composite hseeded hchildren
    | decorator hd hc =>
      simp only [Node.tickLayer]
      exact Outcomes.map (h.decorator hf hd hc hw) fun _ _ hr => .decorator hr.1 hr.2
    | leaf hl => exact Outcomes.map (hl.tick hf hw) fun _ _ hr => .leaf hr
    | patterns hs => exact Outcomes.map (h.selection hf hs hw) fun _ _ hr => .patterns hr
    | custom hc hcs => exact Outcomes.map (h.custom hf hc hcs hw) fun _ _ hr => .custom hc hr
  reset hn := by
    cases hn with
    | @composite _ c _ _ hc hcs =>
      exact .composite (fun hr => hc (c.isRandom_reset ▸ hr)) (h.resetAll hcs)
    | decorator hd hc =>
      refine .decorator hd.reset ?_
      cases hc with
      | none => exact .none
      | some hc => exact .some (h.reset hc)
    | leaf hl => exact .leaf hl.reset
    | patterns hs => exact .patterns (h.resetSelection hs)
    | custom hc hcs => exact .custom hc (h.resetAll hcs)
  onReset hn := by
    funext g
    cases hn with
    | composite _ hcs => exact congrFun (h.onResetAll hcs) g
    | decorator _ hc => exact congrFun (h.onResetOption hc) g
    | leaf _ => rfl
    | patterns hs => exact congrFun (h.onResetSelection hs) g
    | custom _ hcs => exact congrFun (h.onResetAll hcs) _
  name hn := hn.name

/-! ## Related nodes below -/

/-- Everything in the first of two lists related in order is related to something. -/
theorem exists_of_mem {A B : Type} {R : A → B → Prop} {as : List A} {bs : List B}
    (h : List.Forall₂ R as bs) {a : A} (ha : a ∈ as) : ∃ b, R a b := by
  induction h with
  | nil => cases ha
  | cons hab _ ih =>
    rcases List.mem_cons.mp ha with rfl | ha
    · exact ⟨_, hab⟩
    · exact ih ha

/-- The roots of groups that go together do so too. -/
theorem Groups.roots {e e' : String × List (Pattern (Node G) G)} (h : K.Groups R e e') :
    List.Forall₂ R (e.2.map (·.tree.root)) (e'.2.map (·.tree.root)) := by
  obtain ⟨hps⟩ := h
  rw [List.forall₂_map_left_iff, List.forall₂_map_right_iff]
  refine hps.imp fun p p' hp => ?_
  obtain ⟨-, ⟨hroot, -, -, -, -⟩, -, -, -, -, -⟩ := hp
  exact hroot

/-- The nodes right below are related in order. -/
theorem Layered.beneath {n n' : Node G} (h : K.Layered R n n') :
    List.Forall₂ R n.beneath n'.beneath := by
  cases h with
  | composite _ hcs => exact hcs
  | decorator _ hc =>
    cases hc with
    | none => exact .nil
    | some hc => exact .cons hc .nil
  | leaf _ => exact .nil
  | patterns hs =>
    obtain ⟨-, ⟨hgroups⟩⟩ := hs
    exact List.rel_flatMap hgroups fun e e' he => he.roots
  | custom _ hcs => exact hcs

/-- Patterns whose roots go together in another way go together in that way. -/
theorem Patterns.imp {p p' : Pattern (Node G) G} (hp : K.Patterns R p p')
    (hRS : R p.tree.root p'.tree.root → S p.tree.root p'.tree.root) : K.Patterns S p p' := by
  obtain ⟨hname, ⟨hroot, hboard, hlast, hticks, hwarns⟩, hpriority, hcooldown, hused, hcondition,
    hasked⟩ := hp
  exact ⟨hname, ⟨hRS hroot, hboard, hlast, hticks, hwarns⟩, hpriority, hcooldown, hused,
    hcondition, hasked⟩

variable {p : Node G → Prop}

/-- What holds of all roots of a group may be taken along. -/
theorem Groups.and {e e' : String × List (Pattern (Node G) G)} (h : K.Groups R e e')
    (hp : ∀ c ∈ e.2.map (·.tree.root), p c) :
    K.Groups (fun c c' => p c ∧ R c c') e e' := by
  obtain @⟨archetype, ps, ps', hps⟩ := h
  have hroots : ∀ q ∈ ps, p q.tree.root := fun q hq => hp q.tree.root (List.mem_map_of_mem hq)
  have hall := (List.forall₂_and_left _ _).mpr ⟨hroots, hps⟩
  exact ⟨hall.imp fun q q' hq => hq.2.imp fun hroot => ⟨hq.1, hroot⟩⟩

/-- What holds of the nodes below on the left may be put into the relation. -/
theorem Layered.and {n n' : Node G} (h : K.Layered R n n') (hp : ∀ c ∈ n.beneath, p c) :
    K.Layered (fun c c' => p c ∧ R c c') n n' := by
  cases h with
  | composite hc hcs => exact .composite hc ((List.forall₂_and_left _ _).mpr ⟨hp, hcs⟩)
  | decorator hd hc =>
    refine .decorator hd ?_
    cases hc with
    | none => exact .none
    | some hc => exact .some ⟨hp _ (List.mem_singleton_self _), hc⟩
  | leaf hl => exact .leaf hl
  | patterns hs =>
    obtain ⟨hlost, ⟨hgroups⟩⟩ := hs
    -- the roots are below two lists, one of groups and one of patterns
    have hall := (List.forall₂_and_left _ _).mpr
      ⟨fun e he c hc => hp c (List.mem_flatMap.mpr ⟨e, he, hc⟩), hgroups⟩
    exact .patterns ⟨hlost, ⟨hall.imp fun e e' he => he.2.and he.1⟩⟩
  | custom hc hcs => exact .custom hc ((List.forall₂_and_left _ _).mpr ⟨hp, hcs⟩)

/-- Nodes whose parts go together in another way go together in that way. -/
theorem Layered.imp {n n' : Node G} (h : K.Layered R n n') (hRS : ∀ c c', R c c' → S c c') :
    K.Layered S n n' := by
  -- only what is below is read differently
  cases h with
  | composite hc hcs => exact .composite hc (hcs.imp hRS)
  | decorator hd hc =>
    refine .decorator hd ?_
    cases hc with
    | none => exact .none
    | some hc => exact .some (hRS _ _ hc)
  | leaf hl => exact .leaf hl
  | patterns hs =>
    obtain ⟨hlost, ⟨hgroups⟩⟩ := hs
    refine .patterns ⟨hlost, ⟨hgroups.imp fun e e' he => ?_⟩⟩
    obtain ⟨hps⟩ := he
    exact ⟨hps.imp fun q q' hq => hq.imp (hRS _ _)⟩
  | custom hc hcs => exact .custom hc (hcs.imp hRS)

/-- Related nodes of so many levels on the left. -/
def Upto (R : Node G → Node G → Prop) (levels : Nat) (n n' : Node G) : Prop :=
  n.levels ≤ levels ∧ R n n'

/-- One more level above nodes that go together up to a depth. -/
theorem layered_upto (n n' : Node G) (k : Nat) :
    K.Layered (Upto R k) n n' ↔ Upto (K.Layered R) (k + 1) n n' := by
  constructor
  · intro h
    have hbeneath := ((List.forall₂_and_left _ _).mp h.beneath).1
    exact ⟨(n.levels_le_succ_iff k).mpr hbeneath, h.imp fun _ _ hc => hc.2⟩
  · rintro ⟨hlevels, h⟩
    exact h.and ((n.levels_le_succ_iff k).mp hlevels)

/-- There is no node without levels. -/
theorem Steps.upto_zero : K.Steps (Upto R 0) m m' := by
  have hnone : ∀ n n', ¬ Upto R 0 n n' := fun n _ h => by
    have hn := n.one_le_levels
    have h0 := h.1
    omega
  exact ⟨fun _ h _ => absurd h (hnone _ _), fun h => absurd h (hnone _ _),
    fun h => absurd h (hnone _ _), fun h => absurd h (hnone _ _)⟩

/-! ## Nodes alike throughout -/

/-- **Nodes alike throughout**: in a relation under which nodes are alike at the top, with related
nodes below. -/
def Nodes (K : Coupling G) (n n' : Node G) : Prop :=
  ∃ R : Node G → Node G → Prop, (∀ m m', R m m' → K.Layered R m m') ∧ R n n'

/-- Nodes go together exactly if their layers do. -/
theorem nodes_iff (n n' : Node G) : K.Nodes n n' ↔ K.Layered K.Nodes n n' := by
  have hlayered : ∀ m m', K.Nodes m m' → K.Layered K.Nodes m m' := by
    rintro m m' ⟨R, hR, hm⟩
    exact (hR m m' hm).imp fun c c' hc => ⟨R, hR, hc⟩
  constructor
  · exact hlayered n n'
  · intro h
    -- one layer on top of nodes alike throughout is a relation of the kind asked for
    exact ⟨K.Layered K.Nodes, fun m m' hm => hm.imp hlayered, h⟩

/-- What holds of a node that is alike to another at the top holds throughout nodes alike. -/
theorem Nodes.everywhere (hp : ∀ n n', K.Layered K.Nodes n n' → p n)
    {n n' : Node G} (h : K.Nodes n n') : n.Everywhere p := by
  induction n using Node.beneath_induction generalizing n' with
  | step n ih =>
    have hlayer := (nodes_iff n n').mp h
    refine ⟨hp n n' hlayer, fun c hc => ?_⟩
    obtain ⟨c', hc'⟩ := exists_of_mem hlayer.beneath hc
    exact ih c hc hc'

end Coupling

end Instinct
