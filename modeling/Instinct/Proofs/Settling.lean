import Instinct.Node
import Mathlib.Data.List.Basic

/-! # When the memory of a run is gone

A machine is idle if it remembers nothing of an unfinished run. Some nodes are done without
resetting their children, so it takes an invariant to see that the children are idle by then.

* **`Composite.Idle`**, **`Decorator.Idle`**, **`Leaf.Idle`** — memories without an unfinished run.
* **`AllBut C i cs`** — all children are clean but perhaps the one at an index.
* **`Machine.Settles m I C`** — a tick that is done leaves a machine clean.
* **`Machine.Settles.walkFrom`**, **`Machine.Settles.tickAt`** — the loops over children. -/

namespace Instinct

/-! ## Memories that hold no unfinished run -/

/-- **A composite at its first child**, with no child chosen. -/
def Composite.Idle : Composite → Prop
  | sequence cursor => cursor = 0
  | selector cursor => cursor = 0
  | parallel _ => True
  | random d => d.chosen = none
  | weighted _ d => d.chosen = none

/-- **A decorator that has counted nothing and started no timer.** When the child of a cooldown was
last done does not count as a run. -/
def Decorator.Idle {G : Type} : Decorator G → Prop
  | repeater _ completed => completed = 0
  | retry _ failed => failed = 0
  | timeout _ started => started = none
  | _ => True

/-- **A leaf that is not waiting.** -/
def Leaf.Idle {G : Type} : Leaf G → Prop
  | wait _ started => started = none
  | _ => True

/-- A composite is idle after a reset. -/
theorem Composite.idle_reset (c : Composite) : c.reset.Idle := by
  cases c <;> simp [Composite.reset, Composite.Idle, Draws.release]

/-- A decorator is idle after a reset. -/
theorem Decorator.idle_reset {G : Type} (d : Decorator G) : d.reset.Idle := by
  cases d <;> simp [Decorator.reset, Decorator.Idle]

/-- A leaf is idle after a reset. -/
theorem Leaf.idle_reset {G : Type} (l : Leaf G) : l.reset.Idle := by
  cases l <;> simp [Leaf.reset, Leaf.Idle]

/-- A reset changes no composite that is idle. -/
theorem Composite.Idle.reset_eq {c : Composite} (h : c.Idle) : c.reset = c := by
  cases c with
  | sequence cursor => exact congrArg Composite.sequence h.symm
  | selector cursor => exact congrArg Composite.selector h.symm
  | parallel policy => rfl
  | random d =>
    have h : d.chosen = none := h
    obtain ⟨stream, count, chosen⟩ := d
    exact congrArg (fun chosen => Composite.random ⟨stream, count, chosen⟩) h.symm
  | weighted ws d =>
    have h : d.chosen = none := h
    obtain ⟨stream, count, chosen⟩ := d
    exact congrArg (fun chosen => Composite.weighted ws ⟨stream, count, chosen⟩) h.symm

/-- A reset changes no decorator that is idle. -/
theorem Decorator.Idle.reset_eq {G : Type} {d : Decorator G} (h : d.Idle) : d.reset = d := by
  cases d with
  | repeater times completed => exact congrArg (Decorator.repeater times) h.symm
  | retry attempts failed => exact congrArg (Decorator.retry attempts) h.symm
  | timeout limit started => exact congrArg (Decorator.timeout limit) h.symm
  | _ => rfl

/-- A reset changes no leaf that is idle. -/
theorem Leaf.Idle.reset_eq {G : Type} {l : Leaf G} (h : l.Idle) : l.reset = l := by
  cases l with
  | wait duration started => exact congrArg (Leaf.wait duration) h.symm
  | _ => rfl

/-- **A leaf that is done is not waiting.** -/
theorem Leaf.idle_of_done {G : Type} {f : Frame} {l : Leaf G} {w : World G}
    (h : (l.tick f w).status ≠ .running) : (l.tick f w).node.Idle := by
  cases l with
  | wait duration started =>
    cases started with
    | none => exact absurd rfl h
    | some started =>
      -- a wait that is done has taken back its start
      rw [Leaf.tick] at h ⊢
      by_cases hover : duration ≤ f.elapsedSince started
      · rw [if_pos hover]
        rfl
      · rw [if_neg hover] at h
        exact absurd rfl h
  | setValue key source => cases source <;> exact trivial
  | _ => exact trivial

/-! ## All children but one -/

section AllBut

variable {N : Type} {C : N → Prop}

/-- **All of a list but perhaps the one at an index.** -/
def AllBut (C : N → Prop) : Nat → List N → Prop
  | _, [] => True
  | 0, _ :: cs => ∀ c ∈ cs, C c
  | i + 1, c :: cs => C c ∧ AllBut C i cs

/-- There is nothing in an empty list. -/
theorem allBut_nil (i : Nat) : AllBut C i [] := by
  cases i <;> exact trivial

/-- What holds of all holds of all but one. -/
theorem allBut_of_all {cs : List N} (h : ∀ c ∈ cs, C c) (i : Nat) : AllBut C i cs := by
  induction cs generalizing i with
  | nil => exact allBut_nil i
  | cons c cs ih =>
    obtain ⟨hc, hcs⟩ := List.forall_mem_cons.mp h
    cases i with
    | zero => exact hcs
    | succ i => exact ⟨hc, ih hcs i⟩

end AllBut

/-- Ticking one of some children leaves some. -/
theorem Machine.tickAt_ne_nil {N G : Type} (m : Machine N G) (f : Frame) (i : Nat) {cs : List N}
    (hne : cs ≠ []) (w : World G) : (m.tickAt f i cs w).node ≠ [] := by
  cases cs with
  | nil => exact absurd rfl hne
  | cons c cs =>
    cases i with
    | zero => exact List.cons_ne_nil _ _
    | succ i => exact List.cons_ne_nil _ _

/-- What is not running is done. -/
theorem Status.isDone_of_ne {s : Status} (h : s ≠ .running) : s.isDone = true := by
  cases s with
  | running => exact absurd rfl h
  | success => rfl
  | failure => rfl

/-- Resets that do nothing to the game do nothing one after the other. -/
theorem Machine.onResetAll_of_same {N G : Type} {m : Machine N G} {cs : List N}
    (h : ∀ c ∈ cs, ∀ g, m.onReset c g = g) (g : G) : m.onResetAll cs g = g := by
  induction cs with
  | nil => rfl
  | cons c cs ih =>
    obtain ⟨hc, hcs⟩ := List.forall_mem_cons.mp h
    show m.onResetAll cs (m.onReset c g) = g
    rw [hc, ih hcs]

/-! ## Machines that settle -/

/-- **A tick that is done leaves a machine clean**, and so does a reset. `I` is what holds between
two ticks, at the time of the last one; `C` is what it means to be clean. -/
structure Machine.Settles {N G : Type} (m : Machine N G) (I : Duration → N → Prop) (C : N → Prop) :
    Prop where
  keep : ∀ {t f n} w, I t n → t ≤ f.now → I f.now (m.tick f n w).node
  done : ∀ {t f n} w, I t n → t ≤ f.now → (m.tick f n w).status ≠ .running →
    C (m.tick f n w).node
  reset : ∀ {t n}, I t n → I t (m.reset n)
  clean : ∀ {t n}, I t n → C (m.reset n)
  later : ∀ {t u n}, I t n → t ≤ u → I u n

namespace Machine.Settles

variable {N G : Type} {m : Machine N G} {I : Duration → N → Prop} {C : N → Prop} {t : Duration}
  {f : Frame}

/-- **Resetting all children** leaves them all clean. -/
theorem resetAll (h : m.Settles I C) {cs : List N} (hcs : ∀ c ∈ cs, I t c) :
    (∀ c ∈ cs.map m.reset, I t c) ∧ ∀ c ∈ cs.map m.reset, C c := by
  constructor
  · intro c hc
    obtain ⟨d, hd, rfl⟩ := List.mem_map.mp hc
    exact h.reset (hcs d hd)
  · intro c hc
    obtain ⟨d, hd, rfl⟩ := List.mem_map.mp hc
    exact h.clean (hcs d hd)

/-! ### The loops over children -/

/-- A walk that stops at a running child leaves all others clean, if only the first was not. -/
theorem walk (h : m.Settles I C) (ht : t ≤ f.now) {goOn : Status} (hgo : goOn ≠ .running)
    {cs : List N} (hcs : ∀ c ∈ cs, I t c) (hclean : AllBut C 0 cs) (w : World G) :
    (∀ c ∈ (Instinct.walk m goOn f cs w).children, I f.now c) ∧
    ((Instinct.walk m goOn f cs w).status = .running →
      AllBut C (Instinct.walk m goOn f cs w).passed (Instinct.walk m goOn f cs w).children) := by
  induction cs generalizing w with
  | nil => exact ⟨List.forall_mem_nil _, fun heq => absurd heq hgo⟩
  | cons c cs ih =>
    obtain ⟨hc, hcs⟩ := List.forall_mem_cons.mp hcs
    have hclean : ∀ c ∈ cs, C c := hclean
    have hkeep := h.keep w hc ht
    rw [Instinct.walk]
    dsimp only
    by_cases hstatus : (m.tick f c w).status = goOn
    · -- the child is done, so it is clean and the walk may leave it behind
      rw [if_pos hstatus]
      have hdone := h.done w hc ht (hstatus ▸ hgo)
      obtain ⟨hkeeps, hstops⟩ := ih hcs (allBut_of_all hclean 0) (m.tick f c w).world
      exact ⟨List.forall_mem_cons.mpr ⟨hkeep, hkeeps⟩, fun heq => ⟨hdone, hstops heq⟩⟩
    · rw [if_neg hstatus]
      have hlater : ∀ c ∈ cs, I f.now c := fun c hc => h.later (hcs c hc) ht
      exact ⟨List.forall_mem_cons.mpr ⟨hkeep, hlater⟩, fun _ => hclean⟩

/-- The same for a walk that resumes at a cursor. -/
theorem walkFrom (h : m.Settles I C) (ht : t ≤ f.now) {goOn : Status} (hgo : goOn ≠ .running)
    (cursor : Nat) {cs : List N} (hcs : ∀ c ∈ cs, I t c) (hclean : AllBut C cursor cs)
    (w : World G) :
    (∀ c ∈ cs.take cursor ++ (Instinct.walk m goOn f (cs.drop cursor) w).children, I f.now c) ∧
    ((Instinct.walk m goOn f (cs.drop cursor) w).status = .running →
      AllBut C (cursor + (Instinct.walk m goOn f (cs.drop cursor) w).passed)
        (cs.take cursor ++ (Instinct.walk m goOn f (cs.drop cursor) w).children)) := by
  -- the children in front of the cursor are clean and are only carried on in time
  induction cursor generalizing cs with
  | zero =>
    rw [Nat.zero_add]
    exact h.walk ht hgo hcs hclean w
  | succ cursor ih =>
    cases cs with
    | nil => exact ⟨List.forall_mem_nil _, fun heq => absurd heq hgo⟩
    | cons c cs =>
      obtain ⟨hc, hcs⟩ := List.forall_mem_cons.mp hcs
      obtain ⟨hcclean, hclean⟩ := hclean
      obtain ⟨hkeeps, hstops⟩ := ih hcs hclean
      refine ⟨List.forall_mem_cons.mpr ⟨h.later hc ht, hkeeps⟩, fun heq => ?_⟩
      rw [Nat.succ_add]
      exact ⟨hcclean, hstops heq⟩

/-- Ticking all children leaves each of them settled. -/
theorem tickAll (h : m.Settles I C) (ht : t ≤ f.now) {cs : List N} (hcs : ∀ c ∈ cs, I t c)
    (w : World G) : ∀ c ∈ (m.tickAll f cs w).2.1, I f.now c := by
  induction cs generalizing w with
  | nil => exact List.forall_mem_nil _
  | cons c cs ih =>
    obtain ⟨hc, hcs⟩ := List.forall_mem_cons.mp hcs
    exact List.forall_mem_cons.mpr ⟨h.keep w hc ht, ih hcs (m.tick f c w).world⟩

/-- Ticking the only child that may not be clean: if it is done, all are. -/
theorem tickAt (h : m.Settles I C) (ht : t ≤ f.now) (i : Nat) {cs : List N}
    (hcs : ∀ c ∈ cs, I t c) (hclean : AllBut C i cs) (w : World G) :
    (∀ c ∈ (m.tickAt f i cs w).node, I f.now c) ∧ AllBut C i (m.tickAt f i cs w).node ∧
    ((m.tickAt f i cs w).status ≠ .running → ∀ c ∈ (m.tickAt f i cs w).node, C c) := by
  induction cs generalizing i with
  | nil =>
    rw [Machine.tickAt_nil]
    exact ⟨List.forall_mem_nil _, allBut_nil i, fun _ => List.forall_mem_nil _⟩
  | cons c cs ih =>
    obtain ⟨hc, hcs⟩ := List.forall_mem_cons.mp hcs
    have hlater : ∀ c ∈ cs, I f.now c := fun c hc => h.later (hcs c hc) ht
    cases i with
    | zero =>
      -- this is the child that may not be clean; the others are and were not touched
      have hclean : ∀ c ∈ cs, C c := hclean
      exact ⟨List.forall_mem_cons.mpr ⟨h.keep w hc ht, hlater⟩, hclean,
        fun hdone => List.forall_mem_cons.mpr ⟨h.done w hc ht hdone, hclean⟩⟩
    | succ i =>
      obtain ⟨hcclean, hclean⟩ := hclean
      obtain ⟨hkeeps, hallBut, hdones⟩ := ih i hcs hclean
      exact ⟨List.forall_mem_cons.mpr ⟨h.later hc ht, hkeeps⟩, ⟨hcclean, hallBut⟩,
        fun hdone => List.forall_mem_cons.mpr ⟨hcclean, hdones hdone⟩⟩

/-- **What a loop that runs a child several times leaves behind**: a status, a count, the child and
the world. If it is done the count is back at zero and the child is clean; if not, `times` is not
reached yet. -/
structure Looped (I C : N → Prop) (times : Nat) (r : Status × Nat × N × World G) : Prop where
  keep : I r.2.2.1
  done : r.1 ≠ .running → r.2.1 = 0 ∧ C r.2.2.1
  running : r.1 = .running → r.2.1 < times

/-- Every repetition starts and ends with a child that is clean. -/
theorem repeatChild (h : m.Settles I C) (ht : t ≤ f.now) {times left completed : Nat}
    (hleft : left = times - completed) {c : N} (hc : I t c) (hclean : times ≤ completed → C c)
    (w : World G) :
    Looped (I f.now) C times (Decorator.repeatChild m f left completed c w) := by
  induction left generalizing t completed c w with
  | zero =>
    -- there was nothing to repeat, so the child was not touched
    have hall : times ≤ completed := by omega
    exact ⟨h.later hc ht, fun _ => ⟨rfl, hclean hall⟩, fun heq => nomatch heq⟩
  | succ left ih =>
    have hkeep := h.keep w hc ht
    have hmore : completed < times := by omega
    rw [Decorator.repeatChild]
    dsimp only
    by_cases hstatus : (m.tick f c w).status.isRunning = true
    · rw [if_pos hstatus]
      exact ⟨hkeep, fun hdone => absurd rfl hdone, fun _ => hmore⟩
    · rw [if_neg hstatus]
      -- the next repetition starts from a child that was just reset, at the same time
      exact ih (Nat.le_refl f.now.nanos) (by omega) (h.reset hkeep) (fun _ => h.clean hkeep) _

/-- Every attempt starts and ends with a child that is clean. -/
theorem retryChild (h : m.Settles I C) (ht : t ≤ f.now) {attempts left failed : Nat}
    (hleft : left = attempts - failed) {c : N} (hc : I t c) (hclean : attempts ≤ failed → C c)
    (w : World G) :
    Looped (I f.now) C attempts (Decorator.retryChild m f left failed c w) := by
  induction left generalizing t failed c w with
  | zero =>
    -- without a round nothing has happened, and the failures were all there may be
    have hall : attempts ≤ failed := by omega
    exact ⟨h.later hc ht, fun _ => ⟨rfl, hclean hall⟩, fun heq => nomatch heq⟩
  | succ left ih =>
    have hkeep := h.keep w hc ht
    have hmore : failed < attempts := by omega
    rw [Decorator.retryChild]
    dsimp only
    -- a child that is done is reset, and clean again
    cases (m.tick f c w).status with
    | running => exact ⟨hkeep, fun hdone => absurd rfl hdone, fun _ => hmore⟩
    | success =>
      exact ⟨h.reset hkeep, fun _ => ⟨rfl, h.clean hkeep⟩, fun heq => nomatch heq⟩
    | failure =>
      exact ih (Nat.le_refl f.now.nanos) (by omega) (h.reset hkeep) (fun _ => h.clean hkeep) _

end Machine.Settles

end Instinct
