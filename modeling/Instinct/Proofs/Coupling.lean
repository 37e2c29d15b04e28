import Instinct.Node
import Mathlib.Data.List.Forall2

/-! # Two runs side by side

What holds of one run against another — a later clock, another seed, a blackboard that differs in a
slot nobody reads — is shown once for all kinds of nodes.

* **`Coupling G`** — what two runs have in common: how far the clocks are apart, whether the seeds
  agree, and which blackboards and stages go together.
* **`Coupling.Steps K R m m'`** — the machine `m'` keeps up with `m`: ticked in frames and worlds
  that go together, machines related by `R` report the same status and leave related machines and
  worlds.
* **`Coupling.Steps.walk`**, **`tickAll`**, **`tickAt`**, **`repeatChild`**, **`retryChild`** — the
  loops over children keep up if the children do. -/

namespace Instinct

/-- **What two runs have in common.** The laws say that whatever a node does to a world by itself
keeps worlds together. -/
structure Coupling (G : Type) where
  /-- By how many nanoseconds the clock of the second run is ahead. -/
  delay : Nat
  /-- Whether both runs have the same seeds. -/
  seeded : Prop
  /-- The slots that leaves may write and remove. -/
  slots : String → Prop
  /-- The blackboards that go together. -/
  boards : Blackboard → Blackboard → Prop
  /-- The stages that go together. -/
  stages : Stage G → Stage G → Prop
  /-- What may be told. -/
  tells : Notice → Prop
  /-- Whether trees warn: the flags that go together. -/
  flags : Bool → Bool → Prop
  -- what a node does to a stage by itself
  game_eq : ∀ {s s' : Stage G}, stages s s' → s'.game = s.game
  mapGame : ∀ {s s' : Stage G}, stages s s' → ∀ f, stages (s.mapGame f) (s'.mapGame f)
  notify : ∀ {s s' : Stage G}, stages s s' → ∀ {n}, tells n → stages (s.notify n) (s'.notify n)
  warn : ∀ {s s' : Stage G}, stages s s' → ∀ {b b'}, flags b b' → ∀ root tick,
    stages (if b then s.notify (.rootFailed root tick) else s)
      (if b' then s'.notify (.rootFailed root tick) else s')
  emit : ∀ {w w' : World G}, boards w.board w'.board → stages w.stage w'.stage → ∀ e,
    boards (w.emit e).board (w'.emit e).board ∧ stages (w.emit e).stage (w'.emit e).stage
  /-- Messages may be told. -/
  tells_message : ∀ level text tick, tells (.message level text tick)
  -- what leaves do to a blackboard, in the slots they may write
  put : ∀ {b b' : Blackboard}, boards b b' → ∀ {name}, slots name → ∀ v,
    boards (b.put name v) (b'.put name v)
  removeName : ∀ {b b' : Blackboard}, boards b b' → ∀ {name}, slots name →
    boards (b.removeName name) (b'.removeName name)
  /-- The handles read alike on both sides. -/
  handles : ∀ {b b' : Blackboard}, boards b b' → b'.get? Keys.enemy = b.get? Keys.enemy ∧
    b'.get? Keys.target = b.get? Keys.target ∧ b'.get? Keys.scene = b.get? Keys.scene
  /-- The slots of the handles may be written. -/
  slots_handles : slots Keys.enemy.name ∧ slots Keys.target.name ∧ slots Keys.scene.name

/-! ## Salted frames

The kernel must not compare a derived seed with the seed it comes from, so each field is read off
with the derived seed hidden. -/

/-- A salt changes nothing but the seed. -/
theorem Frame.salted_eq (f : Frame) (salt : UInt64) : ∃ seed, f.salted salt = { f with seed } :=
  ⟨_, rfl⟩

/-- A salt leaves the tick number alone. -/
@[simp] theorem Frame.tick_salted (f : Frame) (salt : UInt64) : (f.salted salt).tick = f.tick := by
  obtain ⟨seed, h⟩ := f.salted_eq salt
  rw [h]

/-- A salt leaves the time alone. -/
@[simp] theorem Frame.now_salted (f : Frame) (salt : UInt64) : (f.salted salt).now = f.now := by
  obtain ⟨seed, h⟩ := f.salted_eq salt
  rw [h]

/-- A salt leaves the length of the frame alone. -/
@[simp] theorem Frame.dt_salted (f : Frame) (salt : UInt64) : (f.salted salt).dt = f.dt := by
  obtain ⟨seed, h⟩ := f.salted_eq salt
  rw [h]

/-- The seed of a salted frame is derived from the salt. -/
theorem Frame.seed_salted (f : Frame) (salt : UInt64) :
    (f.salted salt).seed = deriveSeed f.seed salt 0 := by rw [Frame.salted]

namespace Coupling

variable {N M G : Type} (K : Coupling G)

/-- The frames that go together: of one number and length, at times `delay` apart. -/
structure Frames (f f' : Frame) : Prop where
  tick : f'.tick = f.tick
  dt : f'.dt = f.dt
  now : f'.now.nanos = f.now.nanos + K.delay
  seed : K.seeded → f'.seed = f.seed

/-- The worlds that go together. -/
structure Worlds (w w' : World G) : Prop where
  board : K.boards w.board w'.board
  stage : K.stages w.stage w'.stage

/-- The times that go together, where there is one on either side. -/
def Stamps (s s' : Option Duration) : Prop :=
  Option.Rel (fun a b => b.nanos = a.nanos + K.delay) s s'

/-- The outcomes that go together. -/
structure Outcomes (R : N → N → Prop) (o o' : Outcome N G) : Prop where
  status : o'.status = o.status
  node : R o.node o'.node
  world : K.Worlds o.world o'.world

/-- **The machine `m'` keeps up with `m`.** -/
structure Steps (R : N → N → Prop) (m m' : Machine N G) : Prop where
  tick : ∀ {f f' n n' w w'}, K.Frames f f' → R n n' → K.Worlds w w' →
    K.Outcomes R (m.tick f n w) (m'.tick f' n' w')
  reset : ∀ {n n'}, R n n' → R (m.reset n) (m'.reset n')
  onReset : ∀ {n n'}, R n n' → m'.onReset n' = m.onReset n
  name : ∀ {n n'}, R n n' → m'.name n' = m.name n

/-! ## Worlds and frames -/

variable {K}

/-- Frames stay together under a salt. -/
theorem Frames.salted {f f' : Frame} (h : K.Frames f f') (salt : UInt64) :
    K.Frames (f.salted salt) (f'.salted salt) where
  tick := by rw [Frame.tick_salted, Frame.tick_salted, h.tick]
  dt := by rw [Frame.dt_salted, Frame.dt_salted, h.dt]
  now := by rw [Frame.now_salted, Frame.now_salted, h.now]
  seed hs := by rw [Frame.seed_salted, Frame.seed_salted, h.seed hs]

/-- With the same seeds a draw site has the same random source on both sides. -/
theorem Frames.generator {f f' : Frame} (h : K.Frames f f') (hs : K.seeded) (d : Draws) :
    d.generator f' = d.generator f := by
  simp only [Draws.generator, Frame.drawGenerator, Frame.generator, h.tick, h.seed hs]

/-- **Only differences of times are seen**: since a stamp that goes with another, the same time has
passed on both sides. -/
theorem Frames.elapsedSince {f f' : Frame} (h : K.Frames f f') {a b : Duration}
    (hab : b.nanos = a.nanos + K.delay) : f'.elapsedSince b = f.elapsedSince a := by
  apply Duration.ext
  -- a subtraction that stops at zero does so on both sides
  simp only [Frame.elapsedSince, Duration.nanos_sub, h.now, hab]
  omega

/-- Worlds that go together have the same game. -/
theorem Worlds.game {w w' : World G} (h : K.Worlds w w') : w'.game = w.game := K.game_eq h.stage

/-- A change of the game keeps worlds together. -/
theorem Worlds.mapGame {w w' : World G} (h : K.Worlds w w') (f : G → G) :
    K.Worlds (w.mapGame f) (w'.mapGame f) := ⟨h.board, K.mapGame h.stage f⟩

/-- Telling both sides something keeps worlds together. -/
theorem Worlds.notify {w w' : World G} (h : K.Worlds w w') {n : Notice} (hn : K.tells n) :
    K.Worlds (w.notify n) (w'.notify n) := ⟨h.board, K.notify h.stage hn⟩

/-- A warning on each side keeps worlds together, if the flags go together. -/
theorem Worlds.warn {w w' : World G} (h : K.Worlds w w') {b b' : Bool} (hb : K.flags b b')
    (root : String) (tick : UInt64) :
    K.Worlds (if b then w.notify (.rootFailed root tick) else w)
      (if b' then w'.notify (.rootFailed root tick) else w') := by
  have hstage := K.warn h.stage hb root tick
  cases b <;> cases b' <;> exact ⟨h.board, hstage⟩

/-- Recording an event on each side keeps worlds together. -/
theorem Worlds.emit {w w' : World G} (h : K.Worlds w w') (e : TraceEvent) :
    K.Worlds (w.emit e) (w'.emit e) :=
  ⟨(K.emit h.board h.stage e).1, (K.emit h.board h.stage e).2⟩

/-- What wraps related machines alike keeps outcomes together. -/
theorem Outcomes.map {R : N → N → Prop} {S : M → M → Prop} {o o' : Outcome N G}
    (h : K.Outcomes R o o') {f f' : N → M} (hf : ∀ n n', R n n' → S (f n) (f' n')) :
    K.Outcomes S (o.map f) (o'.map f') := ⟨h.status, hf _ _ h.node, h.world⟩

/-! ## The loops over children -/

section Loops

variable {R : N → N → Prop} {m m' : Machine N G}

/-- Machines that keep up do so under any relation that says the same. -/
theorem Steps.congr (h : K.Steps R m m') {S : N → N → Prop} (hRS : ∀ n n', R n n' ↔ S n n') :
    K.Steps S m m' := by
  -- the relation itself is replaced, so that no field is proved again
  obtain rfl : R = S := funext fun n => funext fun n' => propext (hRS n n')
  exact h

/-- Related machines stay related when all of them are reset. -/
theorem Steps.resetAll (h : K.Steps R m m') {ns ns' : List N} (hn : List.Forall₂ R ns ns') :
    List.Forall₂ R (ns.map m.reset) (ns'.map m'.reset) := by
  induction hn with
  | nil => exact .nil
  | cons hc _ ih => exact .cons (h.reset hc) ih

/-- Resetting related machines does the same to the game. -/
theorem Steps.onResetAll (h : K.Steps R m m') {ns ns' : List N} (hn : List.Forall₂ R ns ns') :
    m'.onResetAll ns' = m.onResetAll ns := by
  funext g
  induction hn generalizing g with
  | nil => rfl
  | cons hc _ ih =>
    show m'.onResetAll _ (m'.onReset _ g) = m.onResetAll _ (m.onReset _ g)
    rw [h.onReset hc, ih]

/-- Resetting a child, if there is one, does the same to the game on both sides. -/
theorem Steps.onResetOption (h : K.Steps R m m') {c c' : Option N} (hc : Option.Rel R c c') :
    m'.onResetOption c' = m.onResetOption c := by
  funext g
  cases hc with
  | none => rfl
  | some hc => rw [Machine.onResetOption, Machine.onResetOption, h.onReset hc]

/-- A reset in two worlds that go together. -/
theorem Steps.resetIn (h : K.Steps R m m') {n n' : N} (hn : R n n') {w w' : World G}
    (hw : K.Worlds w w') :
    R (m.resetIn n w).1 (m'.resetIn n' w').1 ∧ K.Worlds (m.resetIn n w).2 (m'.resetIn n' w').2 := by
  refine ⟨h.reset hn, ?_⟩
  show K.Worlds (w.mapGame (m.onReset n)) (w'.mapGame (m'.onReset n'))
  rw [h.onReset hn]
  exact hw.mapGame _

/-- **A walk keeps up**: it passes as many children and stops with the same status. -/
theorem Steps.walk (h : K.Steps R m m') {f f' : Frame} (hf : K.Frames f f') (goOn : Status)
    {cs cs' : List N} (hcs : List.Forall₂ R cs cs') {w w' : World G} (hw : K.Worlds w w') :
    (Instinct.walk m' goOn f' cs' w').status = (Instinct.walk m goOn f cs w).status ∧
    (Instinct.walk m' goOn f' cs' w').passed = (Instinct.walk m goOn f cs w).passed ∧
    List.Forall₂ R (Instinct.walk m goOn f cs w).children
      (Instinct.walk m' goOn f' cs' w').children ∧
    K.Worlds (Instinct.walk m goOn f cs w).world (Instinct.walk m' goOn f' cs' w').world := by
  induction hcs generalizing w w' with
  | nil => exact ⟨rfl, rfl, .nil, hw⟩
  | cons hc hcs ih =>
    have ho := h.tick hf hc hw
    obtain ⟨hstatus, hpassed, hchildren, hworld⟩ := ih ho.world
    -- both walks look at the same status, so both go on or both stop here
    simp only [Instinct.walk, ho.status]
    split
    · exact ⟨hstatus, by rw [hpassed], .cons ho.node hchildren, hworld⟩
    · exact ⟨rfl, rfl, .cons ho.node hcs, ho.world⟩

/-- Ticking all children one after the other keeps both sides together. -/
theorem Steps.tickAll (h : K.Steps R m m') {f f' : Frame} (hf : K.Frames f f')
    {cs cs' : List N} (hcs : List.Forall₂ R cs cs') {w w' : World G} (hw : K.Worlds w w') :
    (m'.tickAll f' cs' w').1 = (m.tickAll f cs w).1 ∧
    List.Forall₂ R (m.tickAll f cs w).2.1 (m'.tickAll f' cs' w').2.1 ∧
    K.Worlds (m.tickAll f cs w).2.2 (m'.tickAll f' cs' w').2.2 := by
  induction hcs generalizing w w' with
  | nil => exact ⟨rfl, .nil, hw⟩
  | cons hc hcs ih =>
    have ho := h.tick hf hc hw
    obtain ⟨hstatuses, hchildren, hworld⟩ := ih ho.world
    simp only [Machine.tickAll]
    exact ⟨by rw [ho.status, hstatuses], .cons ho.node hchildren, hworld⟩

/-- Ticking the child at one place keeps both sides together. -/
theorem Steps.tickAt (h : K.Steps R m m') {f f' : Frame} (hf : K.Frames f f') (i : Nat)
    {cs cs' : List N} (hcs : List.Forall₂ R cs cs') {w w' : World G} (hw : K.Worlds w w') :
    K.Outcomes (List.Forall₂ R) (m.tickAt f i cs w) (m'.tickAt f' i cs' w') := by
  induction hcs generalizing i with
  | nil =>
    rw [Machine.tickAt_nil, Machine.tickAt_nil]
    exact ⟨rfl, .nil, hw⟩
  | cons hc hcs ih =>
    cases i with
    | zero => exact (h.tick hf hc hw).map fun _ _ hn => .cons hn hcs
    -- the children before the one that is ticked are related as they were
    | succ i => exact (ih i).map fun _ _ hns => .cons hc hns

/-- **Repeating a child keeps up**, run by run. -/
theorem Steps.repeatChild (h : K.Steps R m m') {f f' : Frame} (hf : K.Frames f f')
    (left completed : Nat) {c c' : N} (hc : R c c') {w w' : World G} (hw : K.Worlds w w') :
    (Decorator.repeatChild m' f' left completed c' w').1
        = (Decorator.repeatChild m f left completed c w).1 ∧
    (Decorator.repeatChild m' f' left completed c' w').2.1
        = (Decorator.repeatChild m f left completed c w).2.1 ∧
    R (Decorator.repeatChild m f left completed c w).2.2.1
      (Decorator.repeatChild m' f' left completed c' w').2.2.1 ∧
    K.Worlds (Decorator.repeatChild m f left completed c w).2.2.2
      (Decorator.repeatChild m' f' left completed c' w').2.2.2 := by
  induction left generalizing completed c c' w w' with
  | zero => exact ⟨rfl, rfl, hc, hw⟩
  | succ left ih =>
    have ho := h.tick hf hc hw
    simp only [Decorator.repeatChild, ho.status]
    split
    · exact ⟨rfl, rfl, ho.node, ho.world⟩
    · -- the child is reset between two runs, and only then
      obtain ⟨hr, hwr⟩ := h.resetIn ho.node ho.world
      exact ih (completed + 1) hr hwr

/-- **Retrying a child keeps up**, attempt by attempt. -/
theorem Steps.retryChild (h : K.Steps R m m') {f f' : Frame} (hf : K.Frames f f')
    (left failed : Nat) {c c' : N} (hc : R c c') {w w' : World G} (hw : K.Worlds w w') :
    (Decorator.retryChild m' f' left failed c' w').1
        = (Decorator.retryChild m f left failed c w).1 ∧
    (Decorator.retryChild m' f' left failed c' w').2.1
        = (Decorator.retryChild m f left failed c w).2.1 ∧
    R (Decorator.retryChild m f left failed c w).2.2.1
      (Decorator.retryChild m' f' left failed c' w').2.2.1 ∧
    K.Worlds (Decorator.retryChild m f left failed c w).2.2.2
      (Decorator.retryChild m' f' left failed c' w').2.2.2 := by
  induction left generalizing failed c c' w w' with
  | zero => exact ⟨rfl, rfl, hc, hw⟩
  | succ left ih =>
    have ho := h.tick hf hc hw
    -- unlike a repetition, an attempt that succeeds ends with a reset too
    obtain ⟨hr, hwr⟩ := h.resetIn ho.node ho.world
    simp only [Decorator.retryChild, ho.status]
    split
    · exact ⟨rfl, rfl, ho.node, ho.world⟩
    · exact ⟨rfl, rfl, hr, hwr⟩
    · exact ih (failed + 1) hr hwr

end Loops

end Coupling

end Instinct
