import Instinct.Proofs.Runs

/-! # A sequence among the children of a sequence

A sequence reports the same if some of its children are put into a sequence of their own, and so
does a selector. The two do not reset their children at the same moments: the inner composite does
so as soon as it is done, the outer one only when it is done itself. Nobody sees the difference, as
children that were passed are not ticked again before the outer composite is done.

* **`Machine.Discreet`** — machines whose resets nobody else sees.
* **`Machine.Embeds`**, **`Machine.Embeds.run`** — machines that do the same as others.
* **`Machine.Houses`** — a machine that has composites of another one's machines among its own.
* **`walkFrom_append`**, **`walkFrom_add`** — a walk over two lists, one after the other.
* **`Flat.Level`** — the simulation: before the inner composite, within it and after it.
* **`Flat.Abreast`** — what the walk over the children and the one over the nested children leave.
* **`Machine.Discreet.flatten`** — whole runs. -/

namespace Instinct

variable {M N G V : Type}

/-! ## (1) Resets that nobody sees -/

/-- **Worlds that look the same**: the same blackboard, and stages with the same view. -/
structure World.Agree (view : Stage G → V) (w w' : World G) : Prop where
  board : w'.board = w.board
  stage : view w'.stage = view w.stage

/-- A world looks like itself. -/
theorem World.Agree.refl (view : Stage G → V) (w : World G) : w.Agree view w := ⟨rfl, rfl⟩

/-- **Machines whose resets nobody else sees.** Ticks look at a part of the stage only, and resets
leave that part alone; a reset after another one does nothing. -/
structure Machine.Discreet (m : Machine N G) (P : N → Prop) (view : Stage G → V) : Prop where
  tick : ∀ f {n w w'}, P n → w.Agree view w' →
    (m.tick f n w').status = (m.tick f n w).status ∧ (m.tick f n w').node = (m.tick f n w).node ∧
      (m.tick f n w).world.Agree view (m.tick f n w').world
  keep : ∀ f {n} w, P n → P (m.tick f n w).node
  reset : ∀ {n}, P n → P (m.reset n)
  again : ∀ {n}, P n → m.reset (m.reset n) = m.reset n
  unseen : ∀ {n}, P n → ∀ s : Stage G, view (s.mapGame (m.onReset n)) = view s

/-- **A move that looks at no more than the view** of the stage. Ticks and resets are made by the
machine. -/
def Move.Respects (view : Stage G → V) : Move G → Prop
  | .tick _ => True
  | .reset => True
  | .meanwhile change => ∀ w w', w.Agree view w' → (change w).Agree view (change w')

/-! ## (2) Composites as machines -/

/-- **Composites as machines**, over children that act by `m`. -/
def Machine.composite (m : Machine N G) : Machine (Composite × List N) G where
  tick f n w := n.1.tick m f n.2 w
  reset n := (n.1.reset, n.2.map m.reset)
  onReset n := m.onResetAll n.2
  name n := n.1.kind.name

/-- **Machines of either sort.** -/
def Machine.either (m : Machine N G) (m' : Machine M G) : Machine (N ⊕ M) G where
  tick f n w :=
    match n with
    | .inl n => (m.tick f n w).map .inl
    | .inr n => (m'.tick f n w).map .inr
  reset := Sum.map m.reset m'.reset
  onReset := Sum.elim m.onReset m'.onReset
  name := Sum.elim m.name m'.name

/-- **`child` takes machines as they are** to machines that act by `m'`. -/
structure Machine.Embeds (m : Machine N G) (m' : Machine M G) (child : N → M) : Prop where
  tick : ∀ f n w, m'.tick f (child n) w = (m.tick f n w).map child
  reset : ∀ n, m'.reset (child n) = child (m.reset n)
  onReset : ∀ n, m'.onReset (child n) = m.onReset n

/-- Machines act like themselves. -/
theorem Machine.Embeds.refl (m : Machine N G) : m.Embeds m id :=
  ⟨fun _ _ _ => rfl, fun _ => rfl, fun _ => rfl⟩

/-- **Whole runs** are alike then. -/
theorem Machine.Embeds.run {m : Machine N G} {m' : Machine M G} {child : N → M}
    (h : m.Embeds m' child) (moves : List (Move G)) (n : N) (w : World G) :
    m'.run moves (child n) w =
      ((m.run moves n w).1, child (m.run moves n w).2.1, (m.run moves n w).2.2) := by
  unfold Machine.run
  induction moves generalizing n w with
  | nil => rfl
  | cons a moves ih =>
    have hmake : m'.make a (child n, w) =
        ((m.make a (n, w)).1, child (m.make a (n, w)).2.1, (m.make a (n, w)).2.2) := by
      -- one move at a time, and machines embedded before it are embedded after it
      cases a with
      | tick frame =>
        rw [make, h.tick]
        rfl
      | reset =>
        rw [make, resetIn, h.reset, h.onReset]
        rfl
      | meanwhile change => rfl
    rw [runSteps_cons, runSteps_cons, hmake, ih]

/-- **`group` makes composites of such machines** too. -/
structure Machine.Houses (m : Machine N G) (m' : Machine M G) (child : N → M)
    (group : Composite → List N → M) : Prop extends m.Embeds m' child where
  tick_group : ∀ f c ns w,
    m'.tick f (group c ns) w = (c.tick m f ns w).map fun r => group r.1 r.2
  reset_group : ∀ c ns, m'.reset (group c ns) = group c.reset (ns.map m.reset)
  onReset_group : ∀ c ns, m'.onReset (group c ns) = m.onResetAll ns

/-- Machines and composites of them, side by side. -/
theorem Machine.houses_either (m : Machine N G) :
    m.Houses (m.either m.composite) .inl fun c ns => .inr (c, ns) where
  tick _ _ _ := rfl
  reset _ := rfl
  onReset _ := rfl
  tick_group _ _ _ _ := rfl
  reset_group _ _ := rfl
  onReset_group _ _ := rfl

/-- **The composites that walk over their children**, by the composite at a cursor and the status
that moves on. -/
inductive Composite.InOrder : (Nat → Composite) → Status → Prop
  | sequence : InOrder .sequence .success
  | selector : InOrder .selector .failure

namespace Composite.InOrder

variable {make : Nat → Composite} {goOn : Status}

/-- A tick of such a composite is a walk from its cursor. -/
theorem tick (h : InOrder make goOn) (m : Machine N G) (f : Frame) (cursor : Nat) (cs : List N)
    (w : World G) :
    (make cursor).tick m f cs w = tickInOrder m make goOn f cursor cs w := by
  cases h <;> rfl

/-- A reset takes it back to its first child. -/
theorem reset (h : InOrder make goOn) (cursor : Nat) : (make cursor).reset = make 0 := by
  cases h <;> rfl

/-- A child that is running stops the walk. -/
theorem ne_running (h : InOrder make goOn) : goOn ≠ .running := by
  cases h <;> decide

end Composite.InOrder

/-! ## (3) Walks over two lists -/

section Walks

variable {m : Machine N G} {goOn : Status} {f : Frame} {cs : List N} {w : World G}

/-- A walk loses no child and adds none. -/
theorem length_walk : (walk m goOn f cs w).children.length = cs.length := by
  induction cs generalizing w with
  | nil => rfl
  | cons c cs ih =>
    rw [walk]
    dsimp only
    split
    · rw [List.length_cons, List.length_cons, ih]
    · rfl

/-- A walk passes no more children than there are. -/
theorem passed_walk_le : (walk m goOn f cs w).passed ≤ cs.length := by
  induction cs generalizing w with
  | nil => exact Nat.le_refl 0
  | cons c cs ih =>
    rw [walk]
    dsimp only
    split
    · exact Nat.succ_le_succ ih
    · exact Nat.zero_le _

/-- A walk with other children, passed before. -/
def Walk.behind (before : List N) (r : Walk N G) : Walk N G :=
  ⟨r.status, before.length + r.passed, before ++ r.children, r.world⟩

/-- A walk over a list by what the tick of its first machine leaves. -/
theorem walk_cons {c : N} {o : Outcome N G} (h : m.tick f c w = o) (cs : List N) :
    walk m goOn f (c :: cs) w =
      if o.status = goOn then (walk m goOn f cs o.world).behind [o.node]
      else ⟨o.status, 0, o.node :: cs, o.world⟩ := by
  subst h
  rw [walk]
  simp only [Walk.behind, List.length_singleton, Nat.add_comm 1, List.singleton_append]

/-- **A walk over two lists** is one over the first, and one over the second if that moves on. -/
theorem walk_append (cs ds : List N) (w : World G) :
    walk m goOn f (cs ++ ds) w =
      if (walk m goOn f cs w).status = goOn then
        (walk m goOn f ds (walk m goOn f cs w).world).behind (walk m goOn f cs w).children
      else { walk m goOn f cs w with children := (walk m goOn f cs w).children ++ ds } := by
  induction cs generalizing w with
  | nil =>
    rw [walk_nil, if_pos rfl]
    simp [Walk.behind]
  | cons c cs ih =>
    rw [List.cons_append, walk, walk]
    dsimp only
    -- the first list is either walked to its end or not left at all
    by_cases hgo : (m.tick f c w).status = goOn
    · rw [if_pos hgo, if_pos hgo, ih]
      dsimp only
      split
      · simp only [Walk.behind, List.length_cons, List.cons_append, Nat.add_right_comm]
      · rfl
    · rw [if_neg hgo, if_neg hgo, if_neg hgo]
      rfl

/-- **A walk from a cursor**, as far as it gets in the whole list. -/
def walkFrom (m : Machine N G) (goOn : Status) (f : Frame) (cursor : Nat) (cs : List N)
    (w : World G) : Walk N G :=
  let r := walk m goOn f (cs.drop cursor) w
  ⟨r.status, cursor + r.passed, cs.take cursor ++ r.children, r.world⟩

/-- From the first child on. -/
theorem walkFrom_zero (cs : List N) (w : World G) :
    walkFrom m goOn f 0 cs w = walk m goOn f cs w := by
  simp [walkFrom]

/-- A tick of a composite that walks over its children, by the walk from the cursor. -/
theorem tickInOrder_eq (make : Nat → Composite) (cursor : Nat) :
    Composite.tickInOrder m make goOn f cursor cs w =
      let r := walkFrom m goOn f cursor cs w
      if r.status = .running then ⟨.running, (make r.passed, r.children), r.world⟩
      else Composite.conclude m (make 0) r.children r.status r.world := rfl

/-- A walk from a cursor loses no child and adds none. -/
theorem length_walkFrom (cursor : Nat) :
    (walkFrom m goOn f cursor cs w).children.length = cs.length := by
  rw [walkFrom, List.length_append, length_walk, List.length_take, List.length_drop]
  omega

/-- **From a cursor in the first of two lists.** -/
theorem walkFrom_append {cursor : Nat} (h : cursor ≤ cs.length) (ds : List N) (w : World G) :
    walkFrom m goOn f cursor (cs ++ ds) w =
      if (walkFrom m goOn f cursor cs w).status = goOn then
        (walk m goOn f ds (walkFrom m goOn f cursor cs w).world).behind
          (walkFrom m goOn f cursor cs w).children
      else
        { walkFrom m goOn f cursor cs w with
          children := (walkFrom m goOn f cursor cs w).children ++ ds } := by
  -- as the cursor is no farther than the first list, cutting there leaves the second one whole
  have hlength : (walkFrom m goOn f cursor cs w).children.length =
      cursor + (walk m goOn f (cs.drop cursor) w).children.length := by
    rw [length_walkFrom, length_walk, List.length_drop]
    omega
  unfold walkFrom at hlength ⊢
  rw [List.drop_append_of_le_length h, List.take_append_of_le_length h, walk_append]
  dsimp only at hlength ⊢
  split
  · simp only [Walk.behind, hlength, List.append_assoc, Nat.add_assoc]
  · rw [List.append_assoc]

/-- **From a cursor in the second of two lists.** -/
theorem walkFrom_add (cs ds : List N) (j : Nat) (w : World G) :
    walkFrom m goOn f (cs.length + j) (cs ++ ds) w = (walkFrom m goOn f j ds w).behind cs := by
  simp only [walkFrom, Walk.behind, List.drop_length_add_append, List.take_length_add_append,
    List.append_assoc, Nat.add_assoc]

/-- A cursor never gets past the end. -/
theorem passed_walkFrom_le {cursor : Nat} (h : cursor ≤ cs.length) (m : Machine N G)
    (goOn : Status) (f : Frame) (w : World G) :
    (walkFrom m goOn f cursor cs w).passed ≤ (walkFrom m goOn f cursor cs w).children.length := by
  have hrest : (walk m goOn f (cs.drop cursor) w).passed ≤ (cs.drop cursor).length :=
    passed_walk_le
  rw [length_walkFrom]
  show cursor + (walk m goOn f (cs.drop cursor) w).passed ≤ cs.length
  rw [List.length_drop] at hrest
  omega

end Walks

/-! ## (4) The simulation -/

namespace Flat

/-- **A walk and its mirror image** over the same machines, taken to machines of another sort. -/
structure Mirrors (P : N → Prop) (view : Stage G → V) (child : N → M) (r : Walk N G)
    (r' : Walk M G) : Prop where
  status : r'.status = r.status
  passed : r'.passed = r.passed
  children : r'.children = r.children.map child
  world : r.world.Agree view r'.world
  keep : ∀ n ∈ r.children, P n

/-- **The children with some of them in a group.** -/
def nest (child : N → M) (group : Composite → List N → M) (xs : List N) (c : Composite)
    (ys zs : List N) : List M := xs.map child ++ group c ys :: zs.map child

/-- **Where the flat and the nested composite are**: before the group, within it or after it. The
group is reset as soon as it is passed. -/
inductive Level (m : Machine N G) (child : N → M) (group : Composite → List N → M)
    (make : Nat → Composite) : Nat → List N → Nat → List M → Prop
  | before {cursor xs ys zs} (ahead : cursor ≤ xs.length) :
      Level m child group make cursor (xs ++ (ys ++ zs)) cursor (nest child group xs (make 0) ys zs)
  | within {k xs ys zs} (inside : k ≤ ys.length) :
      Level m child group make (xs.length + k) (xs ++ (ys ++ zs)) xs.length
        (nest child group xs (make k) ys zs)
  | after {j xs ys zs} :
      Level m child group make (xs.length + (ys.length + j)) (xs ++ (ys ++ zs))
        (xs.length + (1 + j)) (nest child group xs (make 0) (ys.map m.reset) zs)

/-- **Where a reset leads to the same**: the children of the group are as they are in the flat
composite, or reset already. -/
inductive Spent (m : Machine N G) (P : N → Prop) (child : N → M)
    (group : Composite → List N → M) (make : Nat → Composite) : List N → List M → Prop
  | intro xs {ys ys' zs c} (keep : ∀ n ∈ ys', P n) (memory : c.reset = make 0)
      (same : ys'.map m.reset = ys.map m.reset) :
      Spent m P child group make (xs ++ (ys ++ zs)) (nest child group xs c ys' zs)

/-- **What the walk of a flat composite and that of a nested one leave behind.** -/
structure Abreast (m : Machine N G) (P : N → Prop) (view : Stage G → V) (child : N → M)
    (group : Composite → List N → M) (make : Nat → Composite) (r : Walk N G) (r' : Walk M G) :
    Prop where
  status : r'.status = r.status
  world : r.world.Agree view r'.world
  keep : ∀ n ∈ r.children, P n
  running : r.status = .running →
    Level m child group make r.passed r.children r'.passed r'.children
  spent : Spent m P child group make r.children r'.children

variable {m : Machine N G} {m' : Machine M G} {child : N → M} {group : Composite → List N → M}
  {P : N → Prop} {view : Stage G → V} {make : Nat → Composite} {goOn : Status} {f : Frame}
  {cs xs ys zs : List N} {ps : List M} {w w' : World G} {cursor cursor' k : Nat}
  {r : Walk N G} {r' : Walk M G}

/-- What holds of children holds of those before the group, in it and behind it. -/
theorem forall_mem_parts :
    (∀ n ∈ xs ++ (ys ++ zs), P n) ↔ (∀ n ∈ xs, P n) ∧ (∀ n ∈ ys, P n) ∧ ∀ n ∈ zs, P n := by
  rw [List.forall_mem_append, List.forall_mem_append]

/-! ### Walks over children -/

/-- **A walk over machines and one over what they are taken to** are mirror images. -/
theorem mirrors_walk (hm : m.Discreet P view) (he : m.Embeds m' child) (hcs : ∀ n ∈ cs, P n)
    (hw : w.Agree view w') (goOn : Status) (f : Frame) :
    Mirrors P view child (walk m goOn f cs w) (walk m' goOn f (cs.map child) w') := by
  induction cs generalizing w w' with
  | nil => exact ⟨rfl, rfl, rfl, hw, hcs⟩
  | cons c cs ih =>
    obtain ⟨hc, hcs⟩ := List.forall_mem_cons.mp hcs
    obtain ⟨hstatus, hnode, hworld⟩ := hm.tick f hc hw
    have hrest := ih hcs hworld
    have hkeep := hm.keep f w hc
    rw [List.map_cons, walk, walk, he.tick]
    simp only [Outcome.map, hstatus, hnode]
    -- the later children are reached on both sides or on neither
    split
    · exact ⟨hrest.status, by rw [hrest.passed], by rw [hrest.children, List.map_cons], hrest.world,
        List.forall_mem_cons.mpr ⟨hkeep, hrest.keep⟩⟩
    · exact ⟨rfl, rfl, rfl, hworld, List.forall_mem_cons.mpr ⟨hkeep, hcs⟩⟩

/-- The same from a cursor on. -/
theorem mirrors_walkFrom (hm : m.Discreet P view) (he : m.Embeds m' child)
    (hcs : ∀ n ∈ cs, P n) (hw : w.Agree view w') (goOn : Status) (f : Frame) (cursor : Nat) :
    Mirrors P view child (walkFrom m goOn f cursor cs w)
      (walkFrom m' goOn f cursor (cs.map child) w') := by
  have hdrop : ∀ n ∈ cs.drop cursor, P n := fun n hn => hcs n (List.mem_of_mem_drop hn)
  have hrest := mirrors_walk hm he hdrop hw goOn f
  rw [walkFrom, walkFrom, ← List.map_drop, ← List.map_take]
  refine ⟨hrest.status, congrArg (cursor + ·) hrest.passed, ?_, hrest.world,
    List.forall_mem_append.mpr ⟨fun n hn => hcs n (List.mem_of_mem_take hn), hrest.keep⟩⟩
  dsimp only
  rw [hrest.children, List.map_append]

/-! ### Children passed before -/

/-- Children before the group do not stand in its way. -/
theorem nest_append (xs ks : List N) (c : Composite) (ys zs : List N) :
    nest child group (xs ++ ks) c ys zs = xs.map child ++ nest child group ks c ys zs := by
  rw [nest, nest, List.map_append, List.append_assoc]

/-- **Where the composites are** does not depend on children passed before. -/
theorem Level.behind (h : Level m child group make cursor cs cursor' ps) (xs : List N) :
    Level m child group make (xs.length + cursor) (xs ++ cs) (xs.length + cursor')
      (xs.map child ++ ps) := by
  cases h with
  | @before _ ks ys zs ahead =>
    rw [← List.append_assoc, ← nest_append]
    refine .before ?_
    rw [List.length_append]
    exact Nat.add_le_add_left ahead _
  | @within k ks ys zs inside =>
    rw [← List.append_assoc, ← nest_append, ← Nat.add_assoc, ← List.length_append]
    exact .within inside
  | @after j ks ys zs =>
    rw [← List.append_assoc, ← nest_append, ← Nat.add_assoc, ← Nat.add_assoc xs.length,
      ← List.length_append]
    exact .after

/-- What a reset leads to does not depend on them either. -/
theorem Spent.behind (h : Spent m P child group make cs ps) (xs : List N) :
    Spent m P child group make (xs ++ cs) (xs.map child ++ ps) := by
  obtain ⟨_, keep, memory, same⟩ := h
  rw [← List.append_assoc, ← nest_append]
  exact ⟨_, keep, memory, same⟩

/-- Nor does what the walks leave behind. -/
theorem Abreast.behind (h : Abreast m P view child group make r r') (hxs : ∀ n ∈ xs, P n) :
    Abreast m P view child group make (r.behind xs) (r'.behind (xs.map child)) where
  status := h.status
  world := h.world
  keep := List.forall_mem_append.mpr ⟨hxs, h.keep⟩
  running hrunning := by
    have hlevel := (h.running hrunning).behind xs
    rw [Walk.behind, Walk.behind, List.length_map]
    exact hlevel
  spent := h.spent.behind xs

/-! ### Walks over children and a group -/

/-- Machines that were reset are as before to another reset. -/
theorem reset_twice (hm : m.Discreet P view) (hcs : ∀ n ∈ cs, P n) :
    (∀ n ∈ cs.map m.reset, P n) ∧ (cs.map m.reset).map m.reset = cs.map m.reset := by
  refine ⟨List.forall_mem_map.mpr fun n hn => hm.reset (hcs n hn), ?_⟩
  rw [List.map_map]
  exact List.map_congr_left fun n hn => hm.again (hcs n hn)

/-- Behind the group there is nothing but children. -/
theorem abreast_after (hm : m.Discreet P view) (hc : Composite.InOrder make goOn)
    (hys : ∀ n ∈ ys, P n) (h : Mirrors P view child r r') :
    Abreast m P view child group make (r.behind ys)
      (r'.behind [group (make 0) (ys.map m.reset)]) where
  status := h.status
  world := h.world
  keep := List.forall_mem_append.mpr ⟨hys, h.keep⟩
  running _ := by
    -- the group has been reset, so all that is left is behind it
    have hlevel := @Level.after _ _ _ m child group make r.passed [] ys r.children
    rw [Walk.behind, Walk.behind, h.passed, h.children]
    simpa [nest] using hlevel
  spent := by
    obtain ⟨hreset, hsame⟩ := reset_twice hm hys
    rw [Walk.behind, Walk.behind, h.children]
    exact .intro [] hreset (hc.reset 0) hsame

/-- Resetting machines changes nothing that is seen. -/
theorem unseen_all (hm : m.Discreet P view) (hcs : ∀ n ∈ cs, P n) (stage : Stage G) :
    view (stage.mapGame (m.onResetAll cs)) = view stage := by
  induction cs generalizing stage with
  | nil => rfl
  | cons c cs ih =>
    obtain ⟨hc, hcs⟩ := List.forall_mem_cons.mp hcs
    calc view (stage.mapGame (m.onResetAll (c :: cs)))
        = view ((stage.mapGame (m.onReset c)).mapGame (m.onResetAll cs)) := rfl
      _ = view (stage.mapGame (m.onReset c)) := ih hcs _
      _ = view stage := hm.unseen hc stage

/-- One tick of the group, by the walk over its children. -/
theorem tick_group (hh : m.Houses m' child group) (hc : Composite.InOrder make goOn) (f : Frame)
    (k : Nat) (ys : List N) (w : World G) :
    m'.tick f (group (make k) ys) w =
      let r := walkFrom m goOn f k ys w
      if r.status = .running then ⟨.running, group (make r.passed) r.children, r.world⟩
      else
        ⟨r.status, group (make 0) (r.children.map m.reset),
          r.world.mapGame (m.onResetAll r.children)⟩ := by
  rw [hh.tick_group, hc.tick, tickInOrder_eq]
  dsimp only
  -- a group that is done goes back to its first child
  split
  · rfl
  · rw [Composite.conclude, hc.reset]
    rfl

/-- **The group, and then the other children.** -/
theorem abreast_group (hm : m.Discreet P view) (hh : m.Houses m' child group)
    (hc : Composite.InOrder make goOn) (hk : k ≤ ys.length) (hys : ∀ n ∈ ys, P n)
    (hzs : ∀ n ∈ zs, P n) (hw : w.Agree view w') :
    Abreast m P view child group make (walkFrom m goOn f k (ys ++ zs) w)
      (walk m' goOn f (group (make k) ys :: zs.map child) w') := by
  have hwithin := passed_walkFrom_le hk m goOn f w
  have hmirror := mirrors_walkFrom hm (.refl m) hys hw goOn f k
  have hgroup := tick_group hh hc f k ys w'
  have hne := hc.ne_running
  rw [walkFrom_append hk]
  rw [List.map_id] at hmirror
  -- the group does in the one world what its children do in the other
  generalize walkFrom m goOn f k ys w = r at hwithin hmirror ⊢
  generalize walkFrom m goOn f k ys w' = r' at hmirror hgroup
  obtain ⟨status, passed, children, world⟩ := r'
  obtain ⟨hstatus, hpassed, hchildren, hworld, hkeep⟩ := hmirror
  dsimp only at hstatus hpassed hchildren hworld hgroup
  rw [List.map_id] at hchildren
  subst hstatus hpassed hchildren
  by_cases hrunning : r.status = .running
  · have hgo : r.status ≠ goOn := fun h => hne (h.symm.trans hrunning)
    rw [if_pos hrunning] at hgroup
    rw [walk_cons hgroup, if_neg hne.symm, if_neg hgo]
    have hlevel := @Level.within _ _ _ m child group make _ [] _ zs hwithin
    rw [List.length_nil, Nat.zero_add] at hlevel
    refine ⟨hrunning.symm, hworld, List.forall_mem_append.mpr ⟨hkeep, hzs⟩, fun _ => hlevel, ?_⟩
    exact .intro [] hkeep (hc.reset _) rfl
  -- the group is done, and reset where nobody sees it
  have hafter : r.world.Agree view (world.mapGame (m.onResetAll r.children)) :=
    ⟨hworld.board, (unseen_all hm hkeep world.stage).trans hworld.stage⟩
  rw [if_neg hrunning] at hgroup
  rw [walk_cons hgroup]
  by_cases hgo : r.status = goOn
  · rw [if_pos hgo, if_pos hgo]
    exact abreast_after hm hc hkeep (mirrors_walk hm hh.toEmbeds hzs hafter goOn f)
  · rw [if_neg hgo, if_neg hgo]
    refine ⟨rfl, hafter, List.forall_mem_append.mpr ⟨hkeep, hzs⟩,
      fun h => absurd h hrunning, ?_⟩
    obtain ⟨hreset, hsame⟩ := reset_twice hm hkeep
    exact .intro [] hreset (hc.reset 0) hsame

/-- **The walks of a flat and of a nested composite** from wherever they are. -/
theorem Level.walk (hm : m.Discreet P view) (hh : m.Houses m' child group)
    (hc : Composite.InOrder make goOn) (h : Level m child group make cursor cs cursor' ps)
    (hcs : ∀ n ∈ cs, P n) (hw : w.Agree view w') :
    Abreast m P view child group make (walkFrom m goOn f cursor cs w)
      (walkFrom m' goOn f cursor' ps w') := by
  cases h with
  | @before _ xs ys zs ahead =>
    -- the walks are mirror images up to the group, and then one may go on into it
    obtain ⟨hxs, hys, hzs⟩ := forall_mem_parts.mp hcs
    have hmirror := mirrors_walkFrom hm hh.toEmbeds hxs hw goOn f cursor
    have hahead : cursor ≤ (xs.map child).length := by rwa [List.length_map]
    have hwithin := passed_walkFrom_le ahead m goOn f w
    rw [nest, walkFrom_append ahead, walkFrom_append hahead, hmirror.status, hmirror.children]
    by_cases hgo : (walkFrom m goOn f cursor xs w).status = goOn
    · rw [if_pos hgo, if_pos hgo, ← walkFrom_zero (ys ++ zs)]
      exact (abreast_group hm hh hc (Nat.zero_le _) hys hzs hmirror.world).behind hmirror.keep
    · rw [if_neg hgo, if_neg hgo]
      refine ⟨hmirror.status, hmirror.world, forall_mem_parts.mpr ⟨hmirror.keep, hys, hzs⟩,
        fun _ => ?_, .intro _ hys (hc.reset 0) rfl⟩
      dsimp only
      rw [hmirror.passed]
      exact .before hwithin
  | @within k xs ys zs inside =>
    obtain ⟨hxs, hys, hzs⟩ := forall_mem_parts.mp hcs
    have hcursor : xs.length = (xs.map child).length + 0 := by rw [List.length_map, Nat.add_zero]
    rw [walkFrom_add, nest, hcursor, walkFrom_add, walkFrom_zero]
    exact (abreast_group hm hh hc inside hys hzs hw).behind hxs
  | @after j xs ys zs =>
    -- the group is one child to the nested composite, however many it has of its own
    obtain ⟨hxs, hys, hzs⟩ := forall_mem_parts.mp hcs
    have hmirror := mirrors_walkFrom hm hh.toEmbeds hzs hw goOn f j
    have hcursor : xs.length + (1 + j) =
        (xs.map child).length + ([group (make 0) (ys.map m.reset)].length + j) := by
      rw [List.length_map, List.length_singleton]
    rw [walkFrom_add, walkFrom_add, nest, hcursor, walkFrom_add]
    rw [← List.singleton_append (l := zs.map child), walkFrom_add]
    exact (abreast_after hm hc hys hmirror).behind hxs

/-! ### Ticks and resets -/

/-- After a reset both start over. -/
theorem Spent.reset (hh : m.Houses m' child group) (h : Spent m P child group make cs ps) :
    Level m child group make 0 (cs.map m.reset) 0 (ps.map m'.reset) := by
  have hchild (ks : List N) : (ks.map child).map m'.reset = (ks.map m.reset).map child :=
    Machine.map_reset_map hh.reset ks
  obtain ⟨_, -, hmemory, hsame⟩ := h
  rw [nest, List.map_append, List.map_append, List.map_append, List.map_cons, hchild, hchild,
    hh.reset_group, hmemory, hsame]
  exact .before (Nat.zero_le _)

/-- What a reset of the nested children does is not seen either. -/
theorem Spent.unseen (hm : m.Discreet P view) (hh : m.Houses m' child group)
    (h : Spent m P child group make cs ps) (hcs : ∀ n ∈ cs, P n) (stage : Stage G) :
    view (stage.mapGame (m'.onResetAll ps)) = view stage := by
  obtain @⟨xs, ys, ys', zs, c, hys', -, -⟩ := h
  obtain ⟨hxs, -, hzs⟩ := forall_mem_parts.mp hcs
  have hchild (ks : List N) (g : G) : m'.onResetAll (ks.map child) g = m.onResetAll ks g :=
    congrFun (Machine.onResetAll_map hh.onReset ks) g
  have hgame (g : G) : m'.onResetAll (nest child group xs c ys' zs) g =
      m.onResetAll zs (m.onResetAll ys' (m.onResetAll xs g)) := by
    -- the flat list is told in three parts, none of which is seen
    rw [← hchild xs, ← hh.onReset_group c ys', ← hchild zs, nest, Machine.onResetAll,
      List.foldl_append]
    rfl
  calc view (stage.mapGame (m'.onResetAll (nest child group xs c ys' zs)))
      = view (((stage.mapGame (m.onResetAll xs)).mapGame (m.onResetAll ys')).mapGame
          (m.onResetAll zs)) := by rw [funext hgame]; rfl
    _ = view ((stage.mapGame (m.onResetAll xs)).mapGame (m.onResetAll ys')) :=
        unseen_all hm hzs _
    _ = view (stage.mapGame (m.onResetAll xs)) := unseen_all hm hys' _
    _ = view stage := unseen_all hm hxs _

/-- Wherever the two are, a reset leads to the same. -/
theorem Level.spent (hm : m.Discreet P view) (hc : Composite.InOrder make goOn)
    (h : Level m child group make cursor cs cursor' ps) (hcs : ∀ n ∈ cs, P n) :
    Spent m P child group make cs ps := by
  -- before the group and within it the children are as they are; after it they are reset already
  cases h with
  | before _ =>
    obtain ⟨-, hys, -⟩ := forall_mem_parts.mp hcs
    exact .intro _ hys (hc.reset 0) rfl
  | within _ =>
    obtain ⟨-, hys, -⟩ := forall_mem_parts.mp hcs
    exact .intro _ hys (hc.reset _) rfl
  | after =>
    obtain ⟨-, hys, -⟩ := forall_mem_parts.mp hcs
    obtain ⟨hreset, hsame⟩ := reset_twice hm hys
    exact .intro _ hreset (hc.reset 0) hsame

/-- **A flat and a nested composite side by side.** -/
structure Beside (m : Machine N G) (P : N → Prop) (view : Stage G → V) (child : N → M)
    (group : Composite → List N → M) (make : Nat → Composite)
    (s : (Composite × List N) × World G) (s' : (Composite × List M) × World G) : Prop where
  level : ∃ cursor cursor', s.1.1 = make cursor ∧ s'.1.1 = make cursor' ∧
    Level m child group make cursor s.1.2 cursor' s'.1.2
  keep : ∀ n ∈ s.1.2, P n
  world : s.2.Agree view s'.2

variable {s : (Composite × List N) × World G} {s' : (Composite × List M) × World G}

/-- **A reset** takes both back to the start. -/
theorem beside_reset (hm : m.Discreet P view) (hh : m.Houses m' child group)
    (hc : Composite.InOrder make goOn) (h : Spent m P child group make cs ps)
    (hcs : ∀ n ∈ cs, P n) (hw : w.Agree view w') (cursor cursor' : Nat) :
    Beside m P view child group make (m.composite.resetIn (make cursor, cs) w)
      (m'.composite.resetIn (make cursor', ps) w') where
  level := ⟨0, 0, hc.reset cursor, hc.reset cursor', h.reset hh⟩
  keep := (reset_twice hm hcs).1
  world := ⟨hw.board, (h.unseen hm hh hcs w'.stage).trans
    (hw.stage.trans (unseen_all hm hcs w.stage).symm)⟩

/-- **A tick**: both report the same and stay side by side. -/
theorem Beside.tick (hm : m.Discreet P view) (hh : m.Houses m' child group)
    (hc : Composite.InOrder make goOn) (h : Beside m P view child group make s s') (f : Frame) :
    let o := m.composite.tick f s.1 s.2
    let o' := m'.composite.tick f s'.1 s'.2
    o'.status = o.status ∧
      Beside m P view child group make (o.node, o.world) (o'.node, o'.world) := by
  obtain ⟨⟨memory, cs⟩, w⟩ := s
  obtain ⟨⟨memory', ps⟩, w'⟩ := s'
  obtain ⟨⟨cursor, cursor', rfl, rfl, hlevel⟩, hcs, hw⟩ := h
  have hwalk := hlevel.walk (f := f) hm hh hc hcs hw
  -- on both sides the walk decides whether the composite concludes
  simp only [Machine.composite, hc.tick, tickInOrder_eq]
  rw [hwalk.status]
  by_cases hrunning : (walkFrom m goOn f cursor cs w).status = .running
  · rw [if_pos hrunning, if_pos hrunning]
    exact ⟨rfl, ⟨_, _, rfl, rfl, hwalk.running hrunning⟩, hwalk.keep, hwalk.world⟩
  · rw [if_neg hrunning, if_neg hrunning]
    exact ⟨rfl, beside_reset hm hh hc hwalk.spent hwalk.keep hwalk.world 0 0⟩

/-- **Whatever is done to both**, they report the same and stay side by side. -/
theorem Beside.move (hm : m.Discreet P view) (hh : m.Houses m' child group)
    (hc : Composite.InOrder make goOn) (h : Beside m P view child group make s s') {a : Move G}
    (ha : a.Respects view) :
    (m'.composite.make a s').1 = (m.composite.make a s).1 ∧
      Beside m P view child group make (m.composite.make a s).2 (m'.composite.make a s').2 := by
  cases a with
  | tick frame =>
    obtain ⟨hstatus, hbeside⟩ := h.tick hm hh hc frame
    exact ⟨congrArg some hstatus, hbeside⟩
  | reset =>
    obtain ⟨⟨memory, cs⟩, w⟩ := s
    obtain ⟨⟨memory', ps⟩, w'⟩ := s'
    obtain ⟨⟨cursor, cursor', rfl, rfl, hlevel⟩, hcs, hw⟩ := h
    exact ⟨rfl, beside_reset hm hh hc (hlevel.spent hm hc hcs) hcs hw cursor cursor'⟩
  | meanwhile change => exact ⟨rfl, h.level, h.keep, ha _ _ h.world⟩

end Flat

open Flat in
/-- **Flattening over whole runs.** A composite that walks over its children, and the same with some
of the children in a group of their own, report the same statuses, and at any time the worlds that
they leave look the same. -/
theorem Machine.Discreet.flatten {m : Machine N G} {m' : Machine M G} {child : N → M}
    {group : Composite → List N → M} {P : N → Prop} {view : Stage G → V} {make : Nat → Composite}
    {goOn : Status} {xs ys zs : List N} {moves : List (Move G)} {w : World G}
    (hm : m.Discreet P view) (hh : m.Houses m' child group) (hc : Composite.InOrder make goOn)
    (hcs : ∀ n ∈ xs ++ ys ++ zs, P n) (hmoves : ∀ a ∈ moves, a.Respects view) :
    let flat := m.composite.run moves (make 0, xs ++ ys ++ zs) w
    let nested := m'.composite.run moves
      (make 0, xs.map child ++ [group (make 0) ys] ++ zs.map child) w
    nested.1 = flat.1 ∧ flat.2.2.Agree view nested.2.2 := by
  -- both are given the same moves
  have hboth : List.Forall₂ (fun a b : Move G => b = a ∧ a.Respects view) moves moves :=
    List.forall₂_same.mpr fun a ha => ⟨rfl, hmoves a ha⟩
  have hinitial : Beside m P view child group make ((make 0, xs ++ ys ++ zs), w)
      ((make 0, xs.map child ++ [group (make 0) ys] ++ zs.map child), w) := by
    rw [List.append_assoc] at hcs ⊢
    rw [List.append_assoc]
    exact ⟨⟨0, 0, rfl, rfl, .before (Nat.zero_le _)⟩, hcs, .refl view w⟩
  have hstep : ∀ (a b : Move G) s s', b = a ∧ a.Respects view →
      Beside m P view child group make s s' →
      (m'.composite.make b s').1 = (m.composite.make a s).1 ∧
        Beside m P view child group make (m.composite.make a s).2 (m'.composite.make b s').2 := by
    rintro a _ s s' ⟨rfl, ha⟩ h
    exact h.move hm hh hc ha
  obtain ⟨hstatuses, hend⟩ := runSteps_together hstep hboth hinitial
  exact ⟨hstatuses, hend.world⟩

end Instinct
