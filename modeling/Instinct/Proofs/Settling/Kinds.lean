import Instinct.Proofs.Settling

/-! # Which children are clean between two ticks

* **`Composite.Settled`** — all but the one at the cursor, or all but the chosen one.
* **`Decorator.Settled`** — one that will not be ticked again in this run.
* **`Machine.Settles.composite`**, **`Machine.Settles.decorator`** — one tick of either kind: if it
  is done the node is idle and all its children are clean. -/

namespace Instinct

/-! ## Composites -/

section Composites

variable {N G : Type} {m : Machine N G} {I : Duration → N → Prop} {C : N → Prop} {t : Duration}
  {f : Frame}

/-- All children are clean but the chosen one; none is chosen where there is none. -/
def Draws.Settled (C : N → Prop) (d : Draws) (cs : List N) : Prop :=
  match d.chosen with
  | none => ∀ c ∈ cs, C c
  | some i => AllBut C i cs ∧ cs ≠ []

/-- **Which children of a composite are clean between two ticks**: all but the one at the cursor, or
all but the chosen one. -/
def Composite.Settled (C : N → Prop) : Composite → List N → Prop
  | sequence cursor, cs => AllBut C cursor cs
  | selector cursor, cs => AllBut C cursor cs
  | parallel _, _ => True
  | random d, cs => d.Settled C cs
  | weighted _ d, cs => d.Settled C cs

/-- An idle composite with clean children is settled. -/
theorem Composite.Idle.settled {c : Composite} (hc : c.Idle) {cs : List N} (hcs : ∀ c ∈ cs, C c) :
    c.Settled C cs := by
  cases c with
  | sequence cursor => exact allBut_of_all hcs cursor
  | selector cursor => exact allBut_of_all hcs cursor
  | parallel policy => exact trivial
  | random d =>
    have hc : d.chosen = none := hc
    rw [Composite.Settled, Draws.Settled, hc]
    exact hcs
  | weighted ws d =>
    have hc : d.chosen = none := hc
    rw [Composite.Settled, Draws.Settled, hc]
    exact hcs

/-- **What a tick of a composite leaves behind.** -/
structure Composite.After (I C : N → Prop) (o : Outcome (Composite × List N) G) : Prop where
  settled : o.node.1.Settled C o.node.2
  keep : ∀ c ∈ o.node.2, I c
  done : o.status ≠ .running → o.node.1.Idle ∧ ∀ c ∈ o.node.2, C c

namespace Machine.Settles

/-- A composite that concludes is idle, and its children are reset. -/
theorem conclude (h : m.Settles I C) (c : Composite) {cs : List N} (hcs : ∀ c ∈ cs, I t c)
    (status : Status) (w : World G) : Composite.After (I t) C (c.conclude m cs status w) := by
  obtain ⟨hkeep, hclean⟩ := h.resetAll hcs
  exact ⟨c.idle_reset.settled hclean, hkeep, fun _ => ⟨c.idle_reset, hclean⟩⟩

/-- **A sequence or a selector** keeps the children clean that its cursor has not reached or has
passed. -/
theorem tickInOrder (h : m.Settles I C) (ht : t ≤ f.now) (make : Nat → Composite)
    (hmake : ∀ i cs, AllBut C i cs → (make i).Settled C cs) {goOn : Status} (hgo : goOn ≠ .running)
    (cursor : Nat) {cs : List N} (hcs : ∀ c ∈ cs, I t c) (hclean : AllBut C cursor cs)
    (w : World G) :
    Composite.After (I f.now) C (Composite.tickInOrder m make goOn f cursor cs w) := by
  obtain ⟨hkeep, hstop⟩ := h.walkFrom ht hgo cursor hcs hclean w
  simp only [Composite.tickInOrder]
  by_cases hstatus : (Instinct.walk m goOn f (cs.drop cursor) w).status = .running
  · rw [if_pos hstatus]
    exact ⟨hmake _ _ (hstop hstatus), hkeep, fun hdone => absurd rfl hdone⟩
  · rw [if_neg hstatus]
    exact h.conclude _ hkeep _ _

/-- **A parallel** may leave any child unfinished while it is running. -/
theorem tickParallel (h : m.Settles I C) (ht : t ≤ f.now) (policy : Policy) {cs : List N}
    (hcs : ∀ c ∈ cs, I t c) (w : World G) :
    Composite.After (I f.now) C (Composite.tickParallel m policy f cs w) := by
  have hkeep := h.tickAll ht hcs w
  simp only [Composite.tickParallel]
  split
  · exact ⟨trivial, hkeep, fun hdone => absurd rfl hdone⟩
  · exact h.conclude _ hkeep _ _

/-- A tick of the chosen child: it is let go of if it is done, and all are clean then. -/
theorem tickCommitted (h : m.Settles I C) (ht : t ≤ f.now) {make : Draws → Composite}
    (hmake : ∀ d cs, d.Settled C cs → (make d).Settled C cs)
    (hidle : ∀ d : Draws, d.chosen = none → (make d).Idle) {d : Draws} {i : Nat}
    (hchosen : d.chosen = some i) {cs : List N} (hcs : ∀ c ∈ cs, I t c) (hclean : AllBut C i cs)
    (hne : cs ≠ []) (w : World G) :
    Composite.After (I f.now) C
      ⟨(m.tickAt f i cs w).status,
        (make (if (m.tickAt f i cs w).status.isDone then d.release else d),
          (m.tickAt f i cs w).node), (m.tickAt f i cs w).world⟩ := by
  obtain ⟨hkeep, hallBut, hdone⟩ := h.tickAt ht i hcs hclean w
  have hne' := m.tickAt_ne_nil f i hne w
  cases hstatus : (m.tickAt f i cs w).status with
  | running =>
    -- the child stays chosen and remains the only one that may not be clean
    refine ⟨hmake _ _ ?_, hkeep, fun hdone => absurd rfl hdone⟩
    show Draws.Settled C d _
    rw [Draws.Settled, hchosen]
    exact ⟨hallBut, hne'⟩
  | success =>
    have hall := hdone (by rw [hstatus]; exact fun heq => nomatch heq)
    exact ⟨hmake _ _ hall, hkeep, fun _ => ⟨hidle _ rfl, hall⟩⟩
  | failure =>
    have hall := hdone (by rw [hstatus]; exact fun heq => nomatch heq)
    exact ⟨hmake _ _ hall, hkeep, fun _ => ⟨hidle _ rfl, hall⟩⟩

/-- **A composite that draws** leaves at most the chosen child unfinished. -/
theorem tickChosen (h : m.Settles I C) (ht : t ≤ f.now) (make : Draws → Composite)
    (hmake : ∀ d cs, d.Settled C cs → (make d).Settled C cs)
    (hidle : ∀ d : Draws, d.chosen = none → (make d).Idle) (pick : Generator → Nat) {d : Draws}
    {cs : List N} (hcs : ∀ c ∈ cs, I t c) (hd : d.Settled C cs) (w : World G) :
    Composite.After (I f.now) C (Composite.tickChosen m make pick f d cs w) := by
  have hsettled := hd
  rw [Composite.tickChosen]
  rw [Draws.Settled] at hd
  cases cs with
  | nil =>
    cases hchosen : d.chosen with
    | none =>
      exact ⟨hmake d [] hsettled, List.forall_mem_nil _,
        fun _ => ⟨hidle d hchosen, List.forall_mem_nil _⟩⟩
    | some i =>
      rw [hchosen] at hd
      -- no child is ever chosen where there is none
      exact absurd rfl hd.2
  | cons c cs =>
    have hne : c :: cs ≠ [] := List.cons_ne_nil c cs
    rw [if_neg (by simp)]
    cases hchosen : d.chosen with
    | none =>
      rw [hchosen] at hd
      exact h.tickCommitted ht hmake hidle rfl hcs (allBut_of_all hd _) hne w
    | some i =>
      rw [hchosen] at hd
      exact h.tickCommitted ht hmake hidle hchosen hcs hd.1 hne w

/-- **One tick of a composite**: if it is done it is idle and all its children are clean. -/
theorem composite (h : m.Settles I C) (ht : t ≤ f.now) {c : Composite} {cs : List N}
    (hcs : ∀ c ∈ cs, I t c) (hc : c.Settled C cs) (w : World G) :
    Composite.After (I f.now) C (c.tick m f cs w) := by
  cases c with
  | sequence cursor =>
    exact h.tickInOrder ht .sequence (fun _ _ hall => hall) (by decide) cursor hcs hc w
  | selector cursor =>
    exact h.tickInOrder ht .selector (fun _ _ hall => hall) (by decide) cursor hcs hc w
  | parallel policy => exact h.tickParallel ht policy hcs w
  | random d => exact h.tickChosen ht .random (fun _ _ hd => hd) (fun _ hd => hd) _ hcs hc w
  | weighted ws d =>
    exact h.tickChosen ht (.weighted ws) (fun _ _ hd => hd) (fun _ hd => hd) _ hcs hc w

end Machine.Settles

end Composites

/-! ## Decorators -/

section Decorators

variable {N G : Type} {m : Machine N G} {I : Duration → N → Prop} {C : N → Prop} {t : Duration}
  {f : Frame}

/-- **When the child of a decorator is clean between two ticks**: when it will not be ticked again
in this run. A node that reports a status of its own, whatever its child does, never settles. -/
def Decorator.SettledAround (C : N → Prop) (t : Duration) : Decorator G → N → Prop
  | succeeder, _ => False
  | failer, _ => False
  | repeater (some times) completed, c => times ≤ completed → C c
  | retry attempts failed, c => attempts ≤ failed → C c
  | cooldown duration finished, c => coolingDown duration finished t = true → C c
  | _, _ => True

/-- The same whether there is a child or not; without one the decorator is idle. -/
def Decorator.Settled (C : N → Prop) (t : Duration) (d : Decorator G) (child : Option N) : Prop :=
  match child with
  | none => d.Idle
  | some c => d.SettledAround C t c

/-- As time goes by a cooldown ends and does not begin. -/
theorem Decorator.coolingDown_of_later {duration : Duration} {finished : Option Duration}
    {t u : Duration} (htu : t ≤ u) (h : coolingDown duration finished u = true) :
    coolingDown duration finished t = true := by
  cases finished with
  | none => exact h
  | some at' =>
    simp only [coolingDown, decide_eq_true_eq, Duration.lt_iff, Duration.nanos_sub] at h ⊢
    -- more time has passed at the later time, but for what is cut off at zero
    have htu : t.nanos ≤ u.nanos := htu
    omega

/-- What is settled stays so as time goes by. -/
theorem Decorator.SettledAround.later {d : Decorator G} {c : N} {u : Duration} (htu : t ≤ u)
    (h : d.SettledAround C t c) : d.SettledAround C u c := by
  cases d with
  | cooldown duration finished => exact fun hcool => h (Decorator.coolingDown_of_later htu hcool)
  | repeater times completed => cases times <;> exact h
  | _ => exact h

/-- An idle decorator with a clean child is settled, unless it reports a status of its own. -/
theorem Decorator.settledAround_of_clean {d : Decorator G} (hs : d.kind ≠ .succeeder)
    (hf : d.kind ≠ .failer) {c : N} (hc : C c) : d.SettledAround C t c := by
  -- these two are idle with a child that has not been asked for, and so are left out
  cases d with
  | succeeder => exact absurd rfl hs
  | failer => exact absurd rfl hf
  | repeater times completed =>
    cases times with
    | none => exact trivial
    | some times => exact fun _ => hc
  | retry attempts failed => exact fun _ => hc
  | cooldown duration finished => exact fun _ => hc
  | inverter => exact trivial
  | timeout limit started => exact trivial
  | conditional guard => exact trivial

/-- **A reset settles a decorator** around a clean child. -/
theorem Decorator.SettledAround.reset {d : Decorator G} {c c' : N} (h : d.SettledAround C t c)
    (hc : C c') : d.reset.SettledAround C t c' := by
  cases d with
  | succeeder => exact h.elim
  | failer => exact h.elim
  | repeater times completed =>
    cases times with
    | none => exact trivial
    | some times => exact fun _ => hc
  | retry attempts failed => exact fun _ => hc
  | cooldown duration finished => exact fun _ => hc
  | inverter => exact trivial
  | timeout limit started => exact trivial
  | conditional guard => exact trivial

/-- **What a tick of a decorator around a child leaves behind.** -/
structure Decorator.AfterAround (I : Duration → N → Prop) (C : N → Prop) (now : Duration)
    (o : Outcome (Decorator G × N) G) : Prop where
  settled : o.node.1.SettledAround C now o.node.2
  keep : I now o.node.2
  done : o.status ≠ .running → o.node.1.Idle ∧ C o.node.2

namespace Machine.Settles

theorem tickAround (h : m.Settles I C) (ht : t ≤ f.now) {d : Decorator G} {c : N} (hc : I t c)
    (hd : d.SettledAround C t c) (w : World G) :
    Decorator.AfterAround I C f.now (d.tickAround m f c w) := by
  have hkeep (w : World G) := h.keep w hc ht
  have hdone (w : World G) := h.done w hc ht
  cases d with
  | succeeder => exact hd.elim
  | failer => exact hd.elim
  | inverter =>
    refine ⟨trivial, hkeep w, fun hstatus => ⟨trivial, hdone w fun heq => hstatus ?_⟩⟩
    show (m.tick f c w).status.invert = .running
    rw [heq]
    rfl
  | repeater times completed =>
    cases times with
    | none =>
      simp only [Decorator.tickAround]
      split
      · exact ⟨trivial, hkeep w, fun hstatus => absurd rfl hstatus⟩
      · exact ⟨trivial, h.reset (hkeep w), fun hstatus => absurd rfl hstatus⟩
    | some times =>
      obtain ⟨hkeep, hdone, hrunning⟩ := h.repeatChild ht rfl hc hd w
      refine ⟨fun hall => ?_, hkeep, hdone⟩
      by_cases hstatus : (Decorator.repeatChild m f (times - completed) completed c w).1 = .running
      · exact absurd hall (Nat.not_le_of_lt (hrunning hstatus))
      · exact (hdone hstatus).2
  | retry attempts failed =>
    obtain ⟨hkeep, hdone, hrunning⟩ := h.retryChild ht rfl hc hd w
    -- all attempts were made only if the child is done with the last of them
    refine ⟨fun hall => ?_, hkeep, hdone⟩
    by_cases hstatus : (Decorator.retryChild m f (attempts - failed) failed c w).1 = .running
    · exact absurd hall (Nat.not_le_of_lt (hrunning hstatus))
    · exact (hdone hstatus).2
  | timeout limit started =>
    simp only [Decorator.tickAround]
    split
    · -- the time is over: the child is reset without another tick
      have hlater := h.later hc ht
      exact ⟨trivial, h.reset hlater, fun _ => ⟨rfl, h.clean hlater⟩⟩
    · refine ⟨trivial, hkeep w, fun hstatus => ⟨?_, hdone w hstatus⟩⟩
      exact if_pos (Status.isDone_of_ne hstatus)
  | cooldown duration finished =>
    simp only [Decorator.tickAround]
    by_cases hcool : Decorator.coolingDown duration finished f.now = true
    · rw [if_pos hcool]
      -- cooling down now, it was cooling down at the last tick: the child was done by then
      have hclean := hd (Decorator.coolingDown_of_later ht hcool)
      exact ⟨fun _ => hclean, h.later hc ht, fun _ => ⟨trivial, hclean⟩⟩
    · rw [if_neg hcool]
      refine ⟨fun hnow => ?_, hkeep w, fun hstatus => ⟨trivial, hdone w hstatus⟩⟩
      by_cases hstatus : (m.tick f c w).status = .running
      · -- a child that is still running does not start the cooldown
        have hnot : ¬ (m.tick f c w).status.isDone = true := by
          rw [hstatus]
          decide
        rw [if_neg hnot] at hnow
        exact absurd hnow hcool
      · exact hdone w hstatus
  | conditional guard =>
    simp only [Decorator.tickAround]
    split
    · exact ⟨trivial, hkeep _, fun hstatus => ⟨trivial, hdone _ hstatus⟩⟩
    · have hlater := h.later hc ht
      exact ⟨trivial, h.reset hlater, fun _ => ⟨trivial, h.clean hlater⟩⟩

/-- **One tick of a decorator**: if it is done it is idle and its child is clean. -/
theorem decorator (h : m.Settles I C) (ht : t ≤ f.now) {d : Decorator G} {child : Option N}
    (hc : ∀ c ∈ child, I t c) (hd : d.Settled C t child) (w : World G) :
    (d.tick m f child w).node.1.Settled C f.now (d.tick m f child w).node.2 ∧
    (∀ c ∈ (d.tick m f child w).node.2, I f.now c) ∧
    ((d.tick m f child w).status ≠ .running → (d.tick m f child w).node.1.Idle ∧
      ∀ c ∈ (d.tick m f child w).node.2, C c) := by
  cases child with
  | none => exact ⟨hd, fun _ h => (nomatch h), fun _ => ⟨hd, fun _ h => (nomatch h)⟩⟩
  | some c =>
    obtain ⟨hsettled, hkeep, hdone⟩ := h.tickAround ht (hc c rfl) hd w
    refine ⟨hsettled, fun c' hc' => ?_, fun hstatus => ⟨(hdone hstatus).1, fun c' hc' => ?_⟩⟩
    · obtain rfl := Option.some.inj hc'
      exact hkeep
    · obtain rfl := Option.some.inj hc'
      exact (hdone hstatus).2

end Machine.Settles

end Decorators

end Instinct
