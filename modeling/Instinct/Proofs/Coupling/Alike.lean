import Instinct.Proofs.Coupling.Nodes

/-! # Nodes that differ in the trees of patterns only

Runs by the same clock from the same seeds: what the nodes remember is the same on both sides, and
only the blackboards and the flags of the trees of patterns may differ.

* **`Node.mapBelow f flag n`** — the node with `f` done to the nodes right below it.
* **`Node.Callbacks P n`** — `P` holds of all callbacks of the node; **`Node.stamps`** — the stamps
  that it keeps.
* **`Coupling.Level K`** — the clocks and the seeds agree.
* **`Coupling.Blind K n`**, **`Coupling.Oblivious K n`** — the callbacks of a node, and nothing else
  about it, cannot tell the two runs apart.
* **`Coupling.blind_of_callbacks`** — callbacks that give the same for frames that go together are
  blind, where blackboards are the same.
* **`Coupling.layered_mapBelow`** — an oblivious node beside itself, whatever is done to the nodes
  below.
* **`Coupling.Twins K R`** — the same node at the top but for the blackboards and flags of pattern
  trees, with related nodes below.
* **`Coupling.Alike K n n'`** — nodes that are twins throughout.
* **`Coupling.nodes_iff_alike`** — so nodes alike whose callbacks are blind keep up.
* **`Coupling.nodes_self`** — a node that is oblivious throughout keeps up with itself. -/

namespace Instinct

/-! ## Changes to the nodes right below a node -/

section MapBelow

variable {N G : Type}

/-- A pattern with `f` done to the root of its tree and `flag` to whether that warns. -/
def Pattern.mapBelow (f : N → N) (flag : Bool → Bool) (p : Pattern N G) : Pattern N G :=
  { p with tree := { p.tree with root := f p.tree.root, warns := flag p.tree.warns } }

/-- A leaf that drives patterns with `f` done to the roots of their trees and `flag` to whether
those warn. -/
def Selection.mapBelow (f : N → N) (flag : Bool → Bool) (s : Selection N G) : Selection N G :=
  { s with repertoire := ⟨s.repertoire.groups.map fun ps => ps.map (Pattern.mapBelow f flag)⟩ }

/-- **A node with `f` done to the nodes right below**, and `flag` to whether the trees of its
patterns warn. -/
def Node.mapBelow (f : Node G → Node G) (flag : Bool → Bool) : Node G → Node G
  | composite title c children => composite title c (children.map f)
  | decorator title d child => decorator title d (child.map f)
  | leaf title l => leaf title l
  | patterns title s => patterns title (s.mapBelow f flag)
  | custom c children => custom c (children.map f)

/-- Only what is done to the nodes that are there is of account, and to the flags. -/
theorem Node.mapBelow_congr {f g : Node G → Node G} {flag flag' : Bool → Bool} {n : Node G}
    (hfg : ∀ c ∈ n.beneath, f c = g c)
    (hflags : ∀ title s, n = .patterns title s → ∀ e ∈ s.repertoire.groups.entries, ∀ p ∈ e.2,
      flag p.tree.warns = flag' p.tree.warns) : n.mapBelow f flag = n.mapBelow g flag' := by
  cases n with
  | composite title c cs =>
    have hfg : ∀ c ∈ cs, f c = g c := hfg
    rw [mapBelow, mapBelow, List.map_congr_left hfg]
  | decorator title d c =>
    cases c with
    | none => rfl
    | some c =>
      have hc := hfg c (List.mem_singleton_self c)
      rw [mapBelow, mapBelow, Option.map_some, Option.map_some, hc]
  | leaf title l => rfl
  | patterns title s =>
    have hpatterns : ∀ e ∈ s.repertoire.groups.entries, ∀ p ∈ e.2,
        Pattern.mapBelow f flag p = Pattern.mapBelow g flag' p := by
      -- the roots of patterns are below the node as well, and their flags are changed too
      intro e he p hp
      have hroot : p.tree.root ∈ (patterns title s).beneath :=
        List.mem_flatMap.mpr ⟨e, he, List.mem_map_of_mem hp⟩
      rw [Pattern.mapBelow, Pattern.mapBelow, hfg _ hroot, hflags title s rfl e he p hp]
    have hentries : s.repertoire.groups.map (fun ps => ps.map (Pattern.mapBelow f flag))
        = s.repertoire.groups.map fun ps => ps.map (Pattern.mapBelow g flag') := by
      refine congrArg NameMap.Raw.mk (List.map_congr_left fun e he => ?_)
      exact congrArg (Prod.mk e.1) (List.map_congr_left (hpatterns e he))
    rw [mapBelow, mapBelow, Selection.mapBelow, Selection.mapBelow, hentries]
  | custom c cs =>
    have hfg : ∀ c ∈ cs, f c = g c := hfg
    rw [mapBelow, mapBelow, List.map_congr_left hfg]

/-- A leaf that drives patterns stays as it is when the patterns do. -/
theorem Selection.mapBelow_id (s : Selection N G) : s.mapBelow id id = s := by
  obtain ⟨archetype, ⟨⟨es⟩⟩, running, lastChoice⟩ := s
  have hps (ps : List (Pattern N G)) : ps.map (Pattern.mapBelow id id) = ps := List.map_id ps
  simp [mapBelow, NameMap.Raw.map, hps]

/-- A node stays as it is when everything below it does. -/
theorem Node.mapBelow_id (n : Node G) : n.mapBelow id id = n := by
  cases n with
  | composite title c cs => rw [mapBelow, List.map_id]
  | decorator title d c => rw [mapBelow, Option.map_id, id]
  | leaf title l => rfl
  | patterns title s => rw [mapBelow, s.mapBelow_id]
  | custom c cs => rw [mapBelow, List.map_id]

end MapBelow

/-! ## Callbacks and stamps of a node -/

namespace Node

variable {G : Type}

/-- **`P` holds of all callbacks of a node itself**, each of which is given a frame. -/
def Callbacks (P : {A : Type} → (Frame → A) → Prop) : Node G → Prop
  | decorator _ (.conditional guard) _ => P guard
  | leaf _ (.action deed) => P deed
  | leaf _ (.condition test) => P test
  | leaf _ (.setValue _ (.computed compute)) => P compute
  | custom c _ => P c.enter
  | _ => True

/-- The stamps that a node keeps itself. -/
def stamps : Node G → List Duration
  | composite _ _ _ => []
  | decorator _ (.timeout _ started) _ => started.toList
  | decorator _ (.cooldown _ finished) _ => finished.toList
  | decorator _ _ _ => []
  | leaf _ (.wait _ started) => started.toList
  | leaf _ _ => []
  | patterns _ s => s.repertoire.groups.entries.flatMap fun e => e.2.filterMap (·.lastUsed)
  | custom _ _ => []

/-- What holds of every callback holds of those of a node. -/
theorem callbacks_of_forall {P : {A : Type} → (Frame → A) → Prop}
    (h : ∀ {A : Type} (callback : Frame → A), P callback) (n : Node G) : n.Callbacks P := by
  unfold Callbacks
  split
  · exact h _
  · exact h _
  · exact h _
  · exact h _
  · exact h _
  · trivial

/-- What follows for every callback follows for those of a node. -/
theorem Callbacks.imp {P Q : {A : Type} → (Frame → A) → Prop}
    (hPQ : ∀ {A : Type} {callback : Frame → A}, P callback → Q callback) {n : Node G}
    (h : n.Callbacks P) : n.Callbacks Q := by
  unfold Callbacks at h ⊢
  -- the nodes that call back, one after the other, and those that do not
  split
  · exact hPQ h
  · exact hPQ h
  · exact hPQ h
  · exact hPQ h
  · exact hPQ h
  · trivial

end Node

namespace Coupling

variable {G : Type} (K : Coupling G)

/-- **The clocks and the seeds agree.** -/
structure Level : Prop where
  delay : K.delay = 0
  seeded : K.seeded

/-- **The callbacks of a node cannot tell the runs apart**, and it writes and tells nothing that
does not keep them together. -/
def Blind : Node G → Prop
  | .composite _ _ _ => True
  | .decorator _ (.conditional guard) _ => K.Tests guard
  | .decorator _ _ _ => True
  | .leaf _ (.action deed) => K.Deeds deed
  | .leaf _ (.condition test) => K.Tests test
  | .leaf _ (.setValue key source) => K.slots key ∧ K.Sources source
  | .leaf _ (.clearValue key) => K.slots key
  | .leaf _ _ => True
  | .patterns _ _ => ∀ e, K.tells (.patternLost e)
  | .custom c _ => K.Entries c.enter

/-- A callback that gives the same for frames that go together. -/
def Unaffected {A : Type} (callback : Frame → A) : Prop :=
  ∀ ⦃f f'⦄, K.Frames f f' → callback f' = callback f

/-- **A node that cannot tell the runs apart**: not by its callbacks, not by the conditions of its
patterns, not by random choices and not by its stamps. -/
structure Oblivious (n : Node G) : Prop where
  blind : K.Blind n
  stamped : ∀ stamp ∈ n.stamps, K.delay = 0
  random : ∀ title c cs, n = .composite title c cs → c.isRandom = true → K.seeded
  asked : ∀ title s, n = .patterns title s → ∀ e ∈ s.repertoire.groups.entries, ∀ p ∈ e.2,
    ∀ c ∈ p.condition, K.Conditions c

/-- The same node at the top but for the blackboards and the flags of the trees of patterns. -/
inductive Twins (R : Node G → Node G → Prop) : Node G → Node G → Prop
  | composite {title c cs cs'} (children : List.Forall₂ R cs cs') :
      Twins R (.composite title c cs) (.composite title c cs')
  | decorator {title d c c'} (child : Option.Rel R c c') :
      Twins R (.decorator title d c) (.decorator title d c')
  | leaf {title l} : Twins R (.leaf title l) (.leaf title l)
  | patterns {title s s'} (memory : K.Selections R s s') :
      Twins R (.patterns title s) (.patterns title s')
  | custom {c cs cs'} (children : List.Forall₂ R cs cs') :
      Twins R (.custom c cs) (.custom c cs')

/-- **The same node** throughout, but for the blackboards and the flags of the trees of patterns. -/
def Alike (n n' : Node G) : Prop :=
  ∃ R : Node G → Node G → Prop, (∀ c c', R c c' → K.Twins R c c') ∧ R n n'

variable {K}

/-! ## Times that agree -/

/-- Stamps go together only if they are the same, if the clocks agree. -/
theorem stamps_iff (hdelay : K.delay = 0) {s s' : Option Duration} : K.Stamps s s' ↔ s' = s := by
  constructor
  · rintro (h | -)
    · -- both stamped, and without a delay at the same time
      rw [hdelay] at h
      exact congrArg some (Duration.ext h)
    · rfl
  · rintro rfl
    cases s' with
    | none => exact .none
    | some a =>
      refine .some ?_
      rw [hdelay]
      rfl

/-- A stamp goes with itself if the clocks agree, and if there is none in any case. -/
theorem stamps_self {s : Option Duration} (h : ∀ stamp ∈ s, K.delay = 0) : K.Stamps s s := by
  cases s with
  | none => exact .none
  | some stamp => exact (stamps_iff (h stamp rfl)).mpr rfl

/-- Without a delay decorators that go together are the same. -/
theorem Decorators.eq_of_delay (hdelay : K.delay = 0) {d d' : Decorator G}
    (h : K.Decorators d d') : d' = d := by
  cases h with
  | timeout hs => rw [(stamps_iff hdelay).mp hs]
  | cooldown hs => rw [(stamps_iff hdelay).mp hs]
  | _ => rfl

/-- Without a delay leaves that go together are the same. -/
theorem Leaves.eq_of_delay (hdelay : K.delay = 0) {l l' : Leaf G} (h : K.Leaves l l') :
    l' = l := by
  cases h with
  | wait hs => rw [(stamps_iff hdelay).mp hs]
  | _ => rfl

namespace Level

variable (hK : K.Level)
include hK

/-- At the same level frames that go together are the same. -/
theorem frames_iff {f f' : Frame} : K.Frames f f' ↔ f' = f := by
  constructor
  · rintro ⟨htick, hdt, hnow, hseed⟩
    have hseed := hseed hK.seeded
    rw [hK.delay] at hnow
    have hnow : f'.now = f.now := Duration.ext hnow
    cases f
    cases f'
    dsimp only at htick hdt hnow hseed
    rw [htick, hdt, hnow, hseed]
  · rintro rfl
    refine ⟨rfl, rfl, ?_, fun _ => rfl⟩
    rw [hK.delay]
    rfl

/-- At the same level no callback is affected by which side it is called on. -/
theorem unaffected {A : Type} (callback : Frame → A) : K.Unaffected callback := by
  intro f f' hf
  rw [hK.frames_iff.mp hf]

end Level

/-! ## Callbacks that cannot tell the runs apart -/

/-- A condition gets its frame inside a situation. -/
theorem conditions_of_unaffected {condition : Situation → G → Bool × G}
    (h : ∀ s : Situation, K.Unaffected fun frame => condition { s with frame }) :
    K.Conditions condition := by
  rintro s ⟨frame, enemy, target, scene⟩ ⟨hframe, henemy, htarget, hscene⟩ g
  dsimp only at hframe henemy htarget hscene
  subst henemy htarget hscene
  exact congrFun (h s hframe) g

/-- **Where only the same blackboard goes with a blackboard**, callbacks that give the same for
frames that go together cannot tell the runs apart. -/
theorem blind_of_callbacks (hboards : ∀ b b', K.boards b b' ↔ b = b')
    (hslots : ∀ name, K.slots name) {n : Node G}
    (hlost : ∀ title s, n = .patterns title s → ∀ e, K.tells (.patternLost e))
    (h : n.Callbacks K.Unaffected) : K.Blind n := by
  -- a callback that is given the same blackboard does the same in either frame
  have hsame : ∀ {f f' b b'} {A : Type} {callback : Frame → Blackboard → A},
      K.Unaffected callback → K.Frames f f' → K.boards b b' → callback f' b' = callback f b :=
    fun hcallback hf hb => by rw [hcallback hf, (hboards _ _).mp hb]
  cases n with
  | composite title c cs => exact trivial
  | decorator title d c =>
    cases d with
    | conditional guard => exact fun _ _ _ _ hf hb g => congrFun (hsame h hf hb) g
    | _ => exact trivial
  | leaf title l =>
    cases l with
    | action deed =>
      intro f f' b b' hf hb g
      have hdeed : deed f' b' = deed f b := hsame h hf hb
      rw [hdeed]
      exact ⟨rfl, (hboards _ _).mpr rfl, rfl⟩
    | condition test => exact fun _ _ _ _ hf hb g => congrFun (hsame h hf hb) g
    | setValue key source =>
      refine ⟨hslots key, ?_⟩
      cases source with
      | constant => exact trivial
      | computed compute => exact fun _ _ _ _ hf hb g => congrFun (hsame h hf hb) g
    | clearValue key => exact hslots key
    | _ => exact trivial
  | patterns title s => exact hlost title s rfl
  | custom c cs =>
    intro f f' b b' hf hb g
    have henter : c.enter f' b' = c.enter f b := hsame h hf hb
    rw [henter]
    exact ⟨(hboards _ _).mpr rfl, rfl⟩

/-- **Where only the same frame goes with a frame too**, no callback can tell the runs apart. -/
theorem blind_of_boards_eq (hK : K.Level) (hboards : ∀ b b', K.boards b b' ↔ b = b')
    (hslots : ∀ name, K.slots name) {n : Node G}
    (hlost : ∀ title s, n = .patterns title s → ∀ e, K.tells (.patternLost e)) : K.Blind n :=
  blind_of_callbacks hboards hslots hlost (n.callbacks_of_forall hK.unaffected)

/-- Runs by the same clock from the same seeds are told apart by callbacks only. -/
theorem Level.oblivious (hK : K.Level) {n : Node G} (hblind : K.Blind n) : K.Oblivious n where
  blind := hblind
  stamped _ _ := hK.delay
  random _ _ _ _ _ := hK.seeded
  asked _ _ _ _ _ _ _ _ _ := conditions_of_unaffected fun _ => hK.unaffected _

/-! ## One layer -/

section Layer

variable {R : Node G → Node G → Prop}

/-- A decorator that is oblivious of the sides goes together with itself. -/
theorem decorators_self {title : Option String} {d : Decorator G} {c : Option (Node G)}
    (h : K.Oblivious (.decorator title d c)) : K.Decorators d d := by
  cases d with
  | inverter => exact .inverter
  | succeeder => exact .succeeder
  | failer => exact .failer
  | repeater => exact .repeater
  | retry => exact .retry
  -- the only stamps in a decorator are those of the timeout and the cooldown
  | timeout => exact .timeout (stamps_self fun a ha => h.stamped a (Option.mem_toList.mpr ha))
  | cooldown => exact .cooldown (stamps_self fun a ha => h.stamped a (Option.mem_toList.mpr ha))
  | conditional => exact .conditional h.blind

/-- A leaf that is oblivious of the sides goes together with itself. -/
theorem leaves_self {title : Option String} {l : Leaf G} (h : K.Oblivious (.leaf title l)) :
    K.Leaves l l := by
  have hblind := h.blind
  cases l with
  | action => exact .action hblind
  | condition => exact .condition hblind
  | wait => exact .wait (stamps_self fun a ha => h.stamped a (Option.mem_toList.mpr ha))
  | fixed => exact .fixed
  | log => exact .log
  | setValue => exact .setValue hblind.1 hblind.2
  | clearValue => exact .clearValue hblind

/-- **An oblivious node goes with itself**, whatever is done to the nodes below and to the flags of
the trees of patterns, as long as these go together. -/
theorem layered_mapBelow (hboards : ∀ b, K.boards b b) {flag : Bool → Bool}
    (hflags : ∀ b, K.flags b (flag b)) {n : Node G} (h : K.Oblivious n) {f : Node G → Node G}
    (hR : ∀ c ∈ n.beneath, R c (f c)) : K.Layered R n (n.mapBelow f flag) := by
  have hall : ∀ cs : List (Node G), (∀ c ∈ cs, R c (f c)) → List.Forall₂ R cs (cs.map f) :=
    fun cs hcs => List.forall₂_map_right_iff.mpr (List.forall₂_same.mpr hcs)
  -- one kind of node after the other: what is in the node itself goes together with itself
  cases n with
  | composite title c cs => exact .composite (h.random title c cs rfl) (hall cs hR)
  | decorator title d c =>
    refine .decorator (decorators_self h) ?_
    cases c with
    | none => exact .none
    | some c => exact .some (hR c (List.mem_singleton_self c))
  | leaf title l => exact .leaf (leaves_self h)
  | patterns title s =>
    -- the patterns keep everything but their roots and flags
    refine .patterns ⟨h.blind, ⟨List.forall₂_map_right_iff.mpr (List.forall₂_same.mpr ?_)⟩⟩
    rintro ⟨archetype, ps⟩ he
    refine ⟨List.forall₂_map_right_iff.mpr (List.forall₂_same.mpr fun p hp => ?_)⟩
    have hroot : p.tree.root ∈ (Node.patterns title s).beneath :=
      List.mem_flatMap.mpr ⟨_, he, List.mem_map_of_mem hp⟩
    have hused : K.Stamps p.lastUsed p.lastUsed := stamps_self fun a ha =>
      h.stamped a (List.mem_flatMap.mpr ⟨_, he, List.mem_filterMap.mpr ⟨p, hp, ha⟩⟩)
    exact ⟨rfl, ⟨hR _ hroot, hboards _, rfl, rfl, hflags _⟩, rfl, rfl, hused, rfl,
      h.asked title s rfl _ he p hp⟩
  | custom c cs => exact .custom h.blind (hall cs hR)

/-- An oblivious node goes with itself. -/
theorem layered_self (hboards : ∀ b, K.boards b b) (hflags : ∀ b, K.flags b b) {n : Node G}
    (h : K.Oblivious n) (hR : ∀ c ∈ n.beneath, R c c) : K.Layered R n n := by
  have hlayered : K.Layered R n (n.mapBelow id id) := layered_mapBelow hboards hflags h hR
  rwa [n.mapBelow_id] at hlayered

/-- Nodes are alike at the top in the one sense if they are in the other and the callbacks there
are blind. -/
theorem layered_iff_twins (hK : K.Level) {n n' : Node G} :
    K.Layered R n n' ↔ K.Twins R n n' ∧ K.Blind n := by
  constructor
  · -- what goes together is alike, and its callbacks are blind to the side
    intro h
    cases h with
    | composite _ hcs => exact ⟨.composite hcs, trivial⟩
    | @decorator _ d d' _ _ hd hc =>
      obtain rfl := hd.eq_of_delay hK.delay
      refine ⟨.decorator hc, ?_⟩
      cases hd with
      | conditional hguard => exact hguard
      | _ => exact trivial
    | @leaf _ l l' hl =>
      obtain rfl := hl.eq_of_delay hK.delay
      refine ⟨.leaf, ?_⟩
      cases hl with
      | action hdeed => exact hdeed
      | condition htest => exact htest
      | setValue hkey hsource => exact ⟨hkey, hsource⟩
      | clearValue hkey => exact hkey
      | _ => exact trivial
    | patterns hs =>
      refine ⟨.patterns hs, ?_⟩
      obtain ⟨hlost, -⟩ := hs
      exact hlost
    | custom hc hcs => exact ⟨.custom hcs, hc⟩
  · rintro ⟨h, hblind⟩
    -- what is alike goes together, once the callbacks are blind to the side
    cases h with
    | composite hcs => exact .composite (fun _ => hK.seeded) hcs
    | decorator hc => exact .decorator (decorators_self (hK.oblivious hblind)) hc
    | leaf => exact .leaf (leaves_self (hK.oblivious hblind))
    | patterns hs => exact .patterns hs
    | custom hcs => exact .custom hblind hcs

/-- **A blind node is its own twin.** -/
theorem twins_self (hK : K.Level) (hboards : ∀ b, K.boards b b) (hflags : ∀ b, K.flags b b)
    {n : Node G} (hblind : K.Blind n) (hR : ∀ c ∈ n.beneath, R c c) : K.Twins R n n :=
  ((layered_iff_twins hK).mp
    (layered_self hboards hflags (hK.oblivious hblind) hR)).1

end Layer

/-! ## Nodes alike throughout -/

/-- **Nodes alike keep up** exactly if their callbacks are blind. -/
theorem nodes_iff_alike (hK : K.Level) {n n' : Node G} :
    K.Nodes n n' ↔ K.Alike n n' ∧ n.Everywhere K.Blind := by
  constructor
  · intro h
    have hlayers : ∀ c c', K.Nodes c c' → K.Twins K.Nodes c c' ∧ K.Blind c := fun c c' hc =>
      (layered_iff_twins hK).mp ((nodes_iff c c').mp hc)
    refine ⟨⟨K.Nodes, fun c c' hc => (hlayers c c' hc).1, h⟩, h.everywhere fun c c' hc => ?_⟩
    exact ((layered_iff_twins hK).mp hc).2
  · rintro ⟨⟨R, hR, hn⟩, hblind⟩
    refine ⟨fun c c' => c.Everywhere K.Blind ∧ R c c', ?_, hblind, hn⟩
    rintro c c' ⟨⟨hblind, hbelow⟩, hc⟩
    -- what is blind below goes along with what is related below
    exact ((layered_iff_twins hK).mpr ⟨hR c c' hc, hblind⟩).and hbelow

/-- **A node that cannot tell the runs apart goes with itself**, if none below can either. -/
theorem nodes_self (hboards : ∀ b, K.boards b b) (hflags : ∀ b, K.flags b b) {n : Node G}
    (h : n.Everywhere K.Oblivious) : K.Nodes n n := by
  -- being the same node, and oblivious, is kept by the nodes below
  refine ⟨fun c c' => c = c' ∧ c.Everywhere K.Oblivious, ?_, rfl, h⟩
  rintro n _ ⟨rfl, hn, hbelow⟩
  exact layered_self hboards hflags hn fun c hc => ⟨rfl, hbelow c hc⟩

/-- **A blind node is alike to itself.** -/
theorem alike_self (hK : K.Level) (hboards : ∀ b, K.boards b b) (hflags : ∀ b, K.flags b b)
    {n : Node G} (h : n.Everywhere K.Blind) : K.Alike n n :=
  ((nodes_iff_alike hK).mp (nodes_self hboards hflags (h.mono fun _ => hK.oblivious))).1

end Coupling

end Instinct
