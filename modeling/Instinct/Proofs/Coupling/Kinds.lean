import Instinct.Proofs.Coupling

/-! # Composites, decorators and leaves side by side

Each kind of node keeps up with another of the same memory, children that keep up being given.

* **`Coupling.Tests`**, **`Deeds`**, **`Sources`**, **`Entries`** — callbacks that cannot tell the
  two runs apart.
* **`Coupling.Decorators`**, **`Leaves`** — memories that differ in their stamps only.
* **`Coupling.Steps.composite`**, **`decorator`**, **`Coupling.Leaves.tick`**, **`Steps.custom`** —
  one tick of each kind. -/

namespace Instinct

/-- Whether a composite makes random choices. -/
def Composite.isRandom : Composite → Bool
  | random _ | weighted _ _ => true
  | sequence _ | selector _ | parallel _ => false

/-- A reset makes no other composite draw. -/
@[simp] theorem Composite.isRandom_reset (c : Composite) : c.reset.isRandom = c.isRandom := by
  cases c <;> rfl

namespace Coupling

variable {N G : Type} (K : Coupling G)

/-! ## Callbacks that cannot tell the runs apart -/

/-- A test with the same answer on both sides. -/
def Tests (guard : Guard G) : Prop :=
  ∀ ⦃f f' b b'⦄, K.Frames f f' → K.boards b b' → ∀ g, guard f' b' g = guard f b g

/-- A deed with the same status and the same effects on both sides. -/
def Deeds (deed : Deed G) : Prop :=
  ∀ ⦃f f' b b'⦄, K.Frames f f' → K.boards b b' → ∀ g,
    (deed f' b' g).1 = (deed f b g).1 ∧ K.boards (deed f b g).2.1 (deed f' b' g).2.1 ∧
      (deed f' b' g).2.2 = (deed f b g).2.2

/-- A source of the same values on both sides. -/
def Sources : ValueSource G → Prop
  | .constant _ => True
  | .computed compute =>
    ∀ ⦃f f' b b'⦄, K.Frames f f' → K.boards b b' → ∀ g, compute f' b' g = compute f b g

/-- What a node of the game's own making does first has the same effects on both sides. -/
def Entries (enter : Frame → Blackboard → G → Blackboard × G) : Prop :=
  ∀ ⦃f f' b b'⦄, K.Frames f f' → K.boards b b' → ∀ g,
    K.boards (enter f b g).1 (enter f' b' g).1 ∧ (enter f' b' g).2 = (enter f b g).2

/-! ## Memories side by side -/

/-- Composites with their children: the same memory, and related children. -/
structure Composites (R : N → N → Prop) (r r' : Composite × List N) : Prop where
  memory : r'.1 = r.1
  seeded : r.1.isRandom = true → K.seeded
  children : List.Forall₂ R r.2 r'.2

/-- Decorator memories that differ in their stamps only. -/
inductive Decorators : Decorator G → Decorator G → Prop
  | inverter : Decorators .inverter .inverter
  | succeeder : Decorators .succeeder .succeeder
  | failer : Decorators .failer .failer
  | repeater {times completed} : Decorators (.repeater times completed) (.repeater times completed)
  | retry {attempts failed} : Decorators (.retry attempts failed) (.retry attempts failed)
  | timeout {limit s s'} : K.Stamps s s' → Decorators (.timeout limit s) (.timeout limit s')
  | cooldown {duration s s'} : K.Stamps s s' →
      Decorators (.cooldown duration s) (.cooldown duration s')
  | conditional {guard} : K.Tests guard → Decorators (.conditional guard) (.conditional guard)

/-- Leaf memories that differ in their stamps only. -/
inductive Leaves : Leaf G → Leaf G → Prop
  | action {deed} : K.Deeds deed → Leaves (.action deed) (.action deed)
  | condition {test} : K.Tests test → Leaves (.condition test) (.condition test)
  | wait {duration s s'} : K.Stamps s s' → Leaves (.wait duration s) (.wait duration s')
  | fixed {status} : Leaves (.fixed status) (.fixed status)
  | log {message level} : Leaves (.log message level) (.log message level)
  | setValue {key source} : K.slots key → K.Sources source →
      Leaves (.setValue key source) (.setValue key source)
  | clearValue {key} : K.slots key → Leaves (.clearValue key) (.clearValue key)

variable {K}

/-- A reset keeps decorators together. -/
theorem Decorators.reset {d d' : Decorator G} (h : K.Decorators d d') :
    K.Decorators d.reset d'.reset := by
  cases h with
  | timeout _ => exact .timeout .none
  -- a cooldown outlives a reset, so its stamps go on being apart by the delay
  | cooldown h => exact .cooldown h
  | conditional h => exact .conditional h
  | inverter => exact .inverter
  | succeeder => exact .succeeder
  | failer => exact .failer
  | repeater => exact .repeater
  | retry => exact .retry

/-- A reset keeps leaves together. -/
theorem Leaves.reset {l l' : Leaf G} (h : K.Leaves l l') : K.Leaves l.reset l'.reset := by
  cases h with
  | wait _ => exact .wait .none
  | action h => exact .action h
  | condition h => exact .condition h
  | fixed => exact .fixed
  | log => exact .log
  | setValue hk hs => exact .setValue hk hs
  | clearValue hk => exact .clearValue hk

/-! ## Composites -/

section Machines

variable {R : N → N → Prop} {m m' : Machine N G}

/-- A composite concludes alike on both sides. -/
theorem Steps.conclude (h : K.Steps R m m') {c : Composite} (hc : c.isRandom = true → K.seeded)
    {cs cs' : List N} (hcs : List.Forall₂ R cs cs') (status : Status) {w w' : World G}
    (hw : K.Worlds w w') :
    K.Outcomes (K.Composites R) (c.conclude m cs status w) (c.conclude m' cs' status w') := by
  refine ⟨rfl, ⟨rfl, fun hr => hc (c.isRandom_reset ▸ hr), h.resetAll hcs⟩, ?_⟩
  show K.Worlds (w.mapGame (m.onResetAll cs)) (w'.mapGame (m'.onResetAll cs'))
  rw [h.onResetAll hcs]
  exact hw.mapGame _

/-- Children tried in order, on both sides alike. -/
theorem Steps.tickInOrder (h : K.Steps R m m') {f f' : Frame} (hf : K.Frames f f')
    {make : Nat → Composite} (hmake : ∀ i, (make i).isRandom = false) (goOn : Status) (cursor : Nat)
    {cs cs' : List N} (hcs : List.Forall₂ R cs cs') {w w' : World G} (hw : K.Worlds w w') :
    K.Outcomes (K.Composites R) (Composite.tickInOrder m make goOn f cursor cs w)
      (Composite.tickInOrder m' make goOn f' cursor cs' w') := by
  have hmake' : ∀ i, (make i).isRandom = true → K.seeded := fun i hi => by simp [hmake] at hi
  obtain ⟨hstatus, hpassed, hchildren, hworld⟩ :=
    h.walk hf goOn (List.forall₂_drop cursor hcs) hw
  -- the children before the cursor are not ticked and stay where they are
  have hall := List.rel_append (List.forall₂_take cursor hcs) hchildren
  simp only [Composite.tickInOrder, hstatus, hpassed]
  split
  · exact ⟨rfl, ⟨rfl, hmake' _, hall⟩, hworld⟩
  · exact h.conclude (hmake' 0) hall _ hworld

/-- Children ticked all at once, on both sides alike. -/
theorem Steps.tickParallel (h : K.Steps R m m') {f f' : Frame} (hf : K.Frames f f')
    (policy : Policy) {cs cs' : List N} (hcs : List.Forall₂ R cs cs') {w w' : World G}
    (hw : K.Worlds w w') :
    K.Outcomes (K.Composites R) (Composite.tickParallel m policy f cs w)
      (Composite.tickParallel m' policy f' cs' w') := by
  have hc : (Composite.parallel policy).isRandom = true → K.seeded := fun hr => by cases hr
  obtain ⟨hstatuses, hchildren, hworld⟩ := h.tickAll hf hcs hw
  simp only [Composite.tickParallel, hstatuses, ← hcs.length_eq]
  split
  -- undecided, or decided on both sides with the same status
  · exact ⟨rfl, ⟨rfl, hc, hchildren⟩, hworld⟩
  · exact h.conclude hc hchildren _ hworld

/-- A child committed to, the same on both sides because the seeds are. -/
theorem Steps.tickChosen (h : K.Steps R m m') {f f' : Frame} (hf : K.Frames f f') (hs : K.seeded)
    (make : Draws → Composite) (pick : Generator → Nat) (d : Draws) {cs cs' : List N}
    (hcs : List.Forall₂ R cs cs') {w w' : World G} (hw : K.Worlds w w') :
    K.Outcomes (K.Composites R) (Composite.tickChosen m make pick f d cs w)
      (Composite.tickChosen m' make pick f' d cs' w') := by
  have hempty : cs'.isEmpty = cs.isEmpty := by cases hcs <;> rfl
  -- the same draw from the same seed chooses the same child
  simp only [Composite.tickChosen, hempty, hf.generator hs]
  split
  · exact ⟨rfl, ⟨rfl, fun _ => hs, hcs⟩, hw⟩
  · have ho := fun i => h.tickAt hf i hcs hw
    refine ⟨(ho _).status, ⟨?_, fun _ => hs, (ho _).node⟩, (ho _).world⟩
    simp only [(ho _).status]

/-- **A composite keeps up**, by a tick of its children. -/
theorem Steps.composite (h : K.Steps R m m') {f f' : Frame} (hf : K.Frames f f') {c : Composite}
    (hc : c.isRandom = true → K.seeded) {cs cs' : List N} (hcs : List.Forall₂ R cs cs')
    {w w' : World G} (hw : K.Worlds w w') :
    K.Outcomes (K.Composites R) (c.tick m f cs w) (c.tick m' f' cs' w') := by
  cases c with
  | sequence cursor => exact h.tickInOrder hf (fun _ => rfl) .success cursor hcs hw
  | selector cursor => exact h.tickInOrder hf (fun _ => rfl) .failure cursor hcs hw
  | parallel policy => exact h.tickParallel hf policy hcs hw
  -- what is drawn depends on the number of children, which is the same
  | random d =>
    simp only [Composite.tick, ← hcs.length_eq]
    exact h.tickChosen hf (hc rfl) _ _ d hcs hw
  | weighted ws d =>
    simp only [Composite.tick, ← hcs.length_eq]
    exact h.tickChosen hf (hc rfl) _ _ d hcs hw

/-! ## Decorators -/

/-- A stamp is read against the present alike on both sides. -/
theorem Frames.coolingDown {f f' : Frame} (hf : K.Frames f f') (duration : Duration)
    {s s' : Option Duration} (hs : K.Stamps s s') :
    Decorator.coolingDown duration s' f'.now = Decorator.coolingDown duration s f.now := by
  cases hs with
  | none => rfl
  | some hab =>
    -- a cooldown that was never started is over; there is no stamp that stands for never
    have he := hf.elapsedSince hab
    simp only [Frame.elapsedSince] at he
    simp only [Decorator.coolingDown, he]

/-- **A decorator around a child keeps up**, by a tick of the child. -/
theorem Steps.tickAround (h : K.Steps R m m') {f f' : Frame} (hf : K.Frames f f')
    {d d' : Decorator G} (hd : K.Decorators d d') {c c' : N} (hc : R c c') {w w' : World G}
    (hw : K.Worlds w w') :
    K.Outcomes (fun r r' => K.Decorators r.1 r'.1 ∧ R r.2 r'.2) (d.tickAround m f c w)
      (d'.tickAround m' f' c' w') := by
  have ho := h.tick hf hc hw
  have hnow : K.Stamps (some f.now) (some f'.now) := .some hf.now
  cases hd with
  | inverter =>
    exact ⟨by simp only [Decorator.tickAround, ho.status], ⟨.inverter, ho.node⟩, ho.world⟩
  | succeeder => exact ⟨rfl, ⟨.succeeder, ho.node⟩, ho.world⟩
  | failer => exact ⟨rfl, ⟨.failer, ho.node⟩, ho.world⟩
  | @repeater times completed =>
    cases times with
    | none =>
      simp only [Decorator.tickAround, ho.status]
      split
      · exact ⟨rfl, ⟨.repeater, ho.node⟩, ho.world⟩
      · obtain ⟨hr, hwr⟩ := h.resetIn ho.node ho.world
        exact ⟨rfl, ⟨.repeater, hr⟩, hwr⟩
    | some times =>
      obtain ⟨hstatus, hcount, hchild, hworld⟩ :=
        h.repeatChild hf (times - completed) completed hc hw
      simp only [Decorator.tickAround]
      exact ⟨hstatus, ⟨by rw [hcount]; exact .repeater, hchild⟩, hworld⟩
  | @retry attempts failed =>
    obtain ⟨hstatus, hcount, hchild, hworld⟩ := h.retryChild hf (attempts - failed) failed hc hw
    simp only [Decorator.tickAround]
    exact ⟨hstatus, ⟨by rw [hcount]; exact .retry, hchild⟩, hworld⟩
  | @timeout limit s s' hs =>
    -- the start of the run, which is now if there is none yet
    have hstart : (s'.getD f'.now).nanos = (s.getD f.now).nanos + K.delay := by
      cases hs with
      | none => exact hf.now
      | some hab => exact hab
    simp only [Decorator.tickAround, hf.elapsedSince hstart, ho.status]
    split
    · obtain ⟨hr, hwr⟩ := h.resetIn hc hw
      exact ⟨rfl, ⟨.timeout .none, hr⟩, hwr⟩
    · refine ⟨rfl, ⟨.timeout ?_, ho.node⟩, ho.world⟩
      split
      · exact .none
      · exact .some hstart
  | @cooldown duration s s' hs =>
    simp only [Decorator.tickAround, hf.coolingDown duration hs, ho.status]
    split
    · exact ⟨rfl, ⟨.cooldown hs, hc⟩, hw⟩
    · refine ⟨rfl, ⟨.cooldown ?_, ho.node⟩, ho.world⟩
      split
      · exact hnow
      · exact hs
  | @conditional guard hguard =>
    -- the guard is asked before the child is ticked, in a game that it may change
    have hg : guard f' w'.board w'.game = guard f w.board w.game := by
      rw [hw.game]
      exact hguard hf hw.board w.game
    simp only [Decorator.tickAround, hg]
    have hw' := hw.mapGame fun _ => (guard f w.board w.game).2
    split
    · have ho := h.tick hf hc hw'
      exact ⟨ho.status, ⟨.conditional hguard, ho.node⟩, ho.world⟩
    · obtain ⟨hr, hwr⟩ := h.resetIn hc hw'
      exact ⟨rfl, ⟨.conditional hguard, hr⟩, hwr⟩

/-- **A decorator keeps up**, whether it has a child or not. -/
theorem Steps.decorator (h : K.Steps R m m') {f f' : Frame} (hf : K.Frames f f')
    {d d' : Decorator G} (hd : K.Decorators d d') {c c' : Option N} (hc : Option.Rel R c c')
    {w w' : World G} (hw : K.Worlds w w') :
    K.Outcomes (fun r r' => K.Decorators r.1 r'.1 ∧ Option.Rel R r.2 r'.2) (d.tick m f c w)
      (d'.tick m' f' c' w') := by
  cases hc with
  -- a decorator without a child reports a status that depends on its kind only
  | none => exact ⟨by cases hd <;> rfl, ⟨hd, .none⟩, hw⟩
  | some hc =>
    have ho := h.tickAround hf hd hc hw
    exact ⟨ho.status, ⟨ho.node.1, .some ho.node.2⟩, ho.world⟩

/-! ## Leaves and nodes of the game's own making -/

/-- **A leaf keeps up**, whatever its callbacks do. -/
theorem Leaves.tick {f f' : Frame} (hf : K.Frames f f') {l l' : Leaf G} (hl : K.Leaves l l')
    {w w' : World G} (hw : K.Worlds w w') :
    K.Outcomes K.Leaves (l.tick f w) (l'.tick f' w') := by
  cases hl with
  | @action deed hdeed =>
    obtain ⟨hstatus, hboard, hgame⟩ := hdeed hf hw.board w.game
    simp only [Leaf.tick, hw.game, hstatus, hgame]
    exact ⟨rfl, .action hdeed, ⟨hboard, K.mapGame hw.stage fun _ => (deed f w.board w.game).2.2⟩⟩
  | @condition test htest =>
    simp only [Leaf.tick, hw.game, htest hf hw.board w.game]
    exact ⟨rfl, .condition htest, hw.mapGame _⟩
  | @wait duration s s' hs =>
    cases hs with
    -- the first tick starts the wait on either side, at times that go together
    | none => exact ⟨rfl, .wait (.some hf.now), hw⟩
    | some hab =>
      simp only [Leaf.tick, hf.elapsedSince hab]
      split
      · exact ⟨rfl, .wait .none, hw⟩
      · exact ⟨rfl, .wait (.some hab), hw⟩
  | fixed => exact ⟨rfl, .fixed, hw⟩
  | log =>
    simp only [Leaf.tick, hf.tick]
    exact ⟨rfl, .log, hw.notify (K.tells_message _ _ _)⟩
  | @setValue key source hkey hsource =>
    cases source with
    | constant v => exact ⟨rfl, .setValue hkey hsource, ⟨K.put hw.board hkey v, hw.stage⟩⟩
    | computed compute =>
      have hv := hsource hf hw.board w.game
      simp only [Leaf.tick, hw.game, hv]
      exact ⟨rfl, .setValue hkey hsource,
        ⟨K.put hw.board hkey _, K.mapGame hw.stage fun _ => (compute f w.board w.game).2⟩⟩
  | clearValue hkey =>
    exact ⟨rfl, .clearValue hkey, ⟨K.removeName hw.board hkey, hw.stage⟩⟩

/-- **A node of the game's own making keeps up**, by a tick of its children. -/
theorem Steps.custom (h : K.Steps R m m') {f f' : Frame} (hf : K.Frames f f') {c : Custom G}
    (hc : K.Entries c.enter) {cs cs' : List N} (hcs : List.Forall₂ R cs cs') {w w' : World G}
    (hw : K.Worlds w w') :
    K.Outcomes (List.Forall₂ R) (c.tick m f cs w) (c.tick m' f' cs' w') := by
  obtain ⟨hboard, hgame⟩ := hc hf hw.board w.game
  -- the worlds in which the children are ticked
  have hentered : K.Worlds
      ⟨(c.enter f w.board w.game).1, w.stage.mapGame fun _ => (c.enter f w.board w.game).2⟩
      ⟨(c.enter f' w'.board w'.game).1,
        w'.stage.mapGame fun _ => (c.enter f' w'.board w'.game).2⟩ := by
    rw [hw.game, hgame]
    exact ⟨hboard, K.mapGame hw.stage fun _ => (c.enter f w.board w.game).2⟩
  obtain ⟨hstatuses, hchildren, hworld⟩ := h.tickAll hf hcs hentered
  simp only [Custom.tick, hstatuses, hworld.game]
  exact ⟨rfl, hchildren, hworld.mapGame _⟩

end Machines

end Coupling

end Instinct
