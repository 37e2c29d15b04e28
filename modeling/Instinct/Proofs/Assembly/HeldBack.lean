import Instinct.Proofs.Assembly.Eager
import Mathlib.Data.List.Basic

/-! # What an assembly holds back

An assembly holds nodes back: a leaf until the next declaration, an open node until it is closed.

* **`Node.Honest`** — a node of the game's own making takes a child if it says that it has room.
* **`Node.joinUp`** — the tree that open nodes make up, each being the last child of the next.
* **`Node.updateAt_joinUp`** — a node of the last branch is one of those held back.
* **`Assembly.joined`** — the tree declared so far, with all that is held back in its place.
* **`Assembly.blocked`** — why no node can be put in its place now.
* **`Assembly.Sound`** — what holds of an assembly as long as there is no error. -/

namespace Instinct

namespace Node

variable {G : Type}

/-! ## Nodes held back -/

/-- **A node of the game's own making takes a child if it says that it has room**, as all others
do. -/
def Honest : Node G → Prop
  | custom c _ => ∀ count, (c.arity count).hasRoom count = true → c.attachable = true
  | _ => True

/-- A node with one more child, where there is room for it. -/
def adopt (n child : Node G) : Node G :=
  match n with
  | composite title c children => composite title c (children ++ [child])
  | decorator title d _ => decorator title d (some child)
  | leaf title l => leaf title l
  | patterns title s => patterns title s
  | custom c children => custom c (children ++ [child])

/-- **The tree that a node and open nodes make up**, the innermost open node first, when each is the
last child of the next. -/
def joinUp (n : Node G) : List (Node G) → Node G
  | [] => n
  | top :: rest => joinUp (top.adopt n) rest

variable {n child : Node G}

/-- An honest node that has room takes the child in. -/
theorem attach_of_hasRoom (hn : n.Honest) (hroom : n.hasRoom = true) :
    n.attach child = .ok (n.adopt child) := by
  cases n with
  | composite title c children => rfl
  | decorator title d c =>
    cases c with
    | none => rfl
    -- a decorator with a child has no room left
    | some c => exact absurd hroom (by simp [hasRoom, arity, children, Arity.hasRoom])
  | leaf title l => exact absurd hroom (by simp [hasRoom, arity, Arity.hasRoom])
  | patterns title s => exact absurd hroom (by simp [hasRoom, arity, Arity.hasRoom])
  -- here honesty is needed: a node of the game's own might refuse a child in spite of its room
  | custom c children =>
    have hn : ∀ count, (c.arity count).hasRoom count = true → c.attachable = true := hn
    exact if_pos (hn children.length hroom)

/-- A node with room takes a child. -/
theorem accept_of_hasRoom (hn : n.Honest) (hroom : n.hasRoom = true) :
    n.accept child = .ok (n.adopt child) := by
  rw [accept, if_pos hroom, attach_of_hasRoom hn hroom]

/-- The child that a node has taken is its last. -/
theorem getLast?_children_adopt (hroom : n.hasRoom = true) :
    (n.adopt child).children.getLast? = some child := by
  cases n with
  | composite title c children => exact List.getLast?_concat
  | decorator title d c => rfl
  | leaf title l => exact absurd hroom (by simp [hasRoom, arity, Arity.hasRoom])
  | patterns title s => exact absurd hroom (by simp [hasRoom, arity, Arity.hasRoom])
  | custom c children => exact List.getLast?_concat

/-- A node with one more child takes as many as before. -/
theorem Honest.adopt (hn : n.Honest) : (n.adopt child).Honest := by
  cases n <;> exact hn

/-- A node with another name takes as many children as before. -/
theorem Honest.rename (hn : n.Honest) (title : String) : (n.rename title).Honest := by
  cases n <;> exact hn

/-- Another child in place of the one that a node has taken. -/
theorem withLast_adopt (new : Node G) : (n.adopt child).withLast new = n.adopt new := by
  cases n with
  | composite title c children => simp [adopt, withLast]
  | decorator title d c => rfl
  | leaf title l => rfl
  | patterns title s => rfl
  | custom c children => simp [adopt, withLast]

/-- **A node of the last branch is one of those held back.** -/
theorem updateAt_joinUp {f : Node G → Except BuildError (Node G)} (depth : Nat) (n : Node G)
    {rest : List (Node G)} (hrest : ∀ m ∈ rest, m.hasRoom = true) :
    (n.joinUp rest).updateAt (rest.length + depth) f
      = (n.updateAt depth f).map fun n => n.joinUp rest := by
  induction rest generalizing n depth with
  | nil =>
    rw [List.length_nil, Nat.zero_add, joinUp]
    cases n.updateAt depth f <;> rfl
  | cons top rest ih =>
    obtain ⟨htop, hrest⟩ := List.forall_mem_cons.mp hrest
    -- the outermost node is reached last, so the depth grows on the way down
    rw [List.length_cons, Nat.add_right_comm, Nat.add_assoc, joinUp, ih (depth + 1) _ hrest,
      updateAt, getLast?_children_adopt htop]
    dsimp only
    cases n.updateAt depth f with
    | error e => rfl
    | ok n' =>
      show Except.ok (((top.adopt n).withLast n').joinUp rest) = .ok (n'.joinUp (top :: rest))
      rw [withLast_adopt, joinUp]

end Node

/-! ## Assemblies without an error -/

namespace Assembly

variable {G : Type} {a : Assembly G}

/-- Why no node can be put in its place now. -/
def blocked (a : Assembly G) : Option BuildError :=
  match a.opened with
  | top :: _ => if top.hasRoom then none else some (refusal top)
  | [] => a.root.map fun root => .multipleRoots root.name

/-- **The tree declared so far**, with all that is held back in its place. -/
def joined (a : Assembly G) : Option (Node G) :=
  match a.staged, a.opened with
  | some leaf, opened => some (leaf.joinUp opened)
  | none, top :: rest => some (top.joinUp rest)
  | none, [] => a.root

/-- **What holds of an assembly as long as there is no error.** -/
structure Sound (a : Assembly G) : Prop where
  error : a.error = none
  honest : ∀ n ∈ a.opened, n.Honest
  /-- There was room for each open node in the one around it. -/
  room : ∀ n ∈ a.opened.tail, n.hasRoom = true
  root : a.opened ≠ [] → a.root = none
  /-- There is room for the leaf held back. -/
  staged : a.staged ≠ none → a.blocked = none

variable {n : Node G} {rest : List (Node G)}

/-- What is joined up when a node is held back. -/
theorem joined_of_staged {leaf : Node G} (hstaged : a.staged = some leaf) :
    a.joined = some (leaf.joinUp a.opened) := by
  rw [joined, hstaged]

/-- What is joined up when none is held back and some are open. -/
theorem joined_of_opened (hstaged : a.staged = none) (hopened : a.opened = n :: rest) :
    a.joined = some (n.joinUp rest) := by
  rw [joined, hstaged, hopened]

/-- What is joined up when none is held back and none is open. -/
theorem joined_of_not_opened (hstaged : a.staged = none) (hopened : a.opened = []) :
    a.joined = a.root := by
  rw [joined, hstaged, hopened]

/-- **What is in the way** of a node: a root beside it, or an open node that is full. -/
theorem cases_of_blocked {err : BuildError} (h : a.blocked = some err) :
    (∃ root, a.opened = [] ∧ a.root = some root ∧ err = .multipleRoots root.name) ∨
      ∃ top rest, a.opened = top :: rest ∧ top.hasRoom ≠ true ∧ err = refusal top := by
  unfold blocked at h
  cases hopened : a.opened with
  -- nothing is open, so it is the root that is in the way
  | nil =>
    rw [hopened] at h
    obtain ⟨root, hroot, rfl⟩ := Option.map_eq_some_iff.mp h
    exact .inl ⟨root, rfl, hroot, rfl⟩
  | cons top rest =>
    rw [hopened] at h
    dsimp only at h
    -- the innermost open node is in the way, if it is full
    by_cases hroom : top.hasRoom = true
    · rw [if_pos hroom] at h
      cases h
    · rw [if_neg hroom] at h
      exact .inr ⟨top, rest, rfl, hroom, (Option.some.inj h).symm⟩

/-- What is blocked stays so until something changes. -/
theorem place_of_blocked {err : BuildError} (h : a.blocked = some err) (n : Node G) :
    a.place n = a.fail err := by
  rcases cases_of_blocked h with ⟨root, hopened, hroot, rfl⟩ | ⟨top, rest, hopened, hfull, rfl⟩
  · rw [place, hopened, hroot]
  · rw [place, hopened]
    exact if_neg hfull

/-- What is blocked cannot be opened either. -/
theorem openNode_of_blocked {err : BuildError} (h : a.blocked = some err) (n : Node G) :
    a.openNode n = a.fail err := by
  rcases cases_of_blocked h with ⟨root, hopened, hroot, rfl⟩ | ⟨top, rest, hopened, hfull, rfl⟩
  · rw [openNode, hopened, hroot]
  · rw [openNode, hopened]
    exact if_neg hfull

/-- Where nothing is blocked there is room everywhere. -/
theorem Sound.free (h : a.Sound) (hblocked : a.blocked = none) :
    a.root = none ∧ ∀ m ∈ a.opened, m.hasRoom = true := by
  have hroom := h.room
  have hroot := h.root
  unfold blocked at hblocked
  cases hopened : a.opened with
  | nil =>
    rw [hopened] at hblocked
    exact ⟨Option.map_eq_none_iff.mp hblocked, List.forall_mem_nil _⟩
  -- below the innermost open node all have room anyway, and it has room itself
  | cons top rest =>
    rw [hopened] at hblocked hroom hroot
    dsimp only at hblocked
    have htop : top.hasRoom = true := by
      by_contra htop
      rw [if_neg htop] at hblocked
      cases hblocked
    exact ⟨hroot (List.cons_ne_nil top rest), List.forall_mem_cons.mpr ⟨htop, hroom⟩⟩

/-- Where there is room everywhere nothing is blocked. -/
theorem blocked_eq_none (hroot : a.root = none) (hroom : ∀ m ∈ a.opened, m.hasRoom = true) :
    a.blocked = none := by
  unfold blocked
  cases hopened : a.opened with
  | nil => exact Option.map_eq_none_iff.mpr hroot
  | cons top rest =>
    rw [hopened] at hroom
    exact if_pos (hroom top List.mem_cons_self)

/-- The open nodes and the root after a node is put in its place. -/
theorem place_of_not_blocked (h : a.Sound) (hblocked : a.blocked = none) (n : Node G) :
    (a.opened = [] ∧ a.place n = { a with root := some n }) ∨
      ∃ top rest, a.opened = top :: rest ∧
        a.place n = { a with opened := top.adopt n :: rest } := by
  obtain ⟨hroot, hroom⟩ := h.free hblocked
  have hhonest := h.honest
  unfold place
  cases hopened : a.opened with
  | nil => exact .inl ⟨rfl, by rw [hroot]⟩
  | cons top rest =>
    rw [hopened] at hroom hhonest
    have htop := hroom top List.mem_cons_self
    refine .inr ⟨top, rest, rfl, ?_⟩
    dsimp only
    rw [if_pos htop, Node.attach_of_hasRoom (hhonest top List.mem_cons_self) htop]

/-- A node is opened inside the one that was the innermost. -/
theorem openNode_of_not_blocked (h : a.Sound) (hblocked : a.blocked = none) (n : Node G) :
    a.openNode n = { a with opened := n :: a.opened } := by
  obtain ⟨hroot, hroom⟩ := h.free hblocked
  unfold openNode
  cases hopened : a.opened with
  | nil => rw [hroot]
  | cons top rest =>
    rw [hopened] at hroom
    exact if_pos (hroom top List.mem_cons_self)

/-- Nothing is held back, and nothing is changed. -/
theorem flush_of_not_staged (hstaged : a.staged = none) : a.flush = a := by
  rw [flush, hstaged]

/-- The leaf held back is put in its place. -/
theorem flush_of_staged {leaf : Node G} (herror : a.error = none) (hstaged : a.staged = some leaf) :
    a.flush = { a with staged := none }.place leaf := by
  rw [flush, hstaged]
  exact if_pos (by rw [herror]; rfl)

end Assembly

end Instinct
