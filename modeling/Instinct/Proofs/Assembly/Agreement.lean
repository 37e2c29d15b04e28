import Instinct.Proofs.Assembly.HeldBack

/-! # Building late is building at once

The tree is the same as if every node were put in its place when it is declared, and so is the first
error. An error can be made before it is noticed, but nothing that happens in between changes it.

* **`Assembly.Fine`** — an assembly without an error and one in which every node is in its place.
* **`Assembly.Doomed`** — there is no room for the leaf held back, which has gone unnoticed.
* **`Assembly.Agree`** — an assembly and one in which every node is in its place, in any case.
* **`Assembly.Agree.declare`** — they stay so with every declaration.
* **`Assembly.treeOf_eq_eager`** — both describe the same tree or the same first error. -/

namespace Instinct

namespace EagerAssembly

variable {G : Type} {e : EagerAssembly G} {n n' : Node G} {rest : List (Node G)} {err : BuildError}

/-- A node held back is changed where it is in the tree. -/
theorem change_joinUp (f : Node G → Except BuildError (Node G))
    (hroot : e.root = some (n.joinUp rest)) (hroom : ∀ m ∈ rest, m.hasRoom = true)
    (hf : f n = .ok n') : e.change rest.length f = { e with root := some (n'.joinUp rest) } := by
  have hupdate := Node.updateAt_joinUp (f := f) 0 n hroom
  rw [Nat.add_zero, Node.updateAt, hf] at hupdate
  rw [change, hroot]
  dsimp only
  rw [hupdate]
  rfl

/-- A node held back cannot be changed where it is in the tree either. -/
theorem change_joinUp_error (f : Node G → Except BuildError (Node G))
    (hroot : e.root = some (n.joinUp rest)) (hroom : ∀ m ∈ rest, m.hasRoom = true)
    (hf : f n = .error err) :
    e.change rest.length f = { e with error := some err } := by
  -- the nodes above have room, so the change is made at the bottom, where it fails
  have hupdate := Node.updateAt_joinUp (f := f) 0 n hroom
  rw [Nat.add_zero, Node.updateAt, hf] at hupdate
  rw [change, hroot]
  dsimp only
  rw [hupdate]
  rfl

/-- A node becomes the last child of the innermost open node. -/
theorem place_of_depth {root : Node G} {depth : Nat} (hroot : e.root = some root)
    (hdepth : e.depth = depth + 1) (n : Node G) :
    e.place n = e.change depth fun top => top.accept n := by
  rw [place, hroot, hdepth]

/-- After an error declarations have no effect. -/
theorem declare_of_error (h : e.error = some err) (d : Declaration G) : e.declare d = e :=
  if_pos (by rw [h]; rfl)

/-- Nothing is closed after an error. -/
theorem closeAll_of_error (h : e.error = some err) : ∀ count, closeAll count e = e
  | 0 => rfl
  | _ + 1 => if_pos (by rw [h]; rfl)

end EagerAssembly

namespace Assembly

variable {G : Type} {a : Assembly G} {e : EagerAssembly G} {n : Node G}

/-! ## The assembly in which every node is in its place -/

/-- An assembly without an error and the one in which every node is in its place. -/
structure Fine (a : Assembly G) (e : EagerAssembly G) : Prop where
  sound : a.Sound
  error : e.error = none
  root : e.root = a.joined
  depth : e.depth = a.opened.length
  salt : e.salt = a.salt
  streams : e.streams = a.streams

/-- **Putting a node in its place changes nothing about the tree** in which it was already. -/
theorem Sound.fine_place (h : a.Sound) (hstaged : a.staged = none) (hblocked : a.blocked = none)
    (herror : e.error = none) (hroot : e.root = some (n.joinUp a.opened))
    (hdepth : e.depth = a.opened.length) (hsalt : e.salt = a.salt)
    (hstreams : e.streams = a.streams) :
    Fine (a.place n) e ∧ (a.place n).staged = none := by
  have hnone {b : Assembly G} (hb : b.staged = a.staged) : b.staged ≠ none → b.blocked = none :=
    fun hne => absurd (hb.trans hstaged) hne
  -- where a node goes: it becomes the root, or a child of the innermost open node
  rcases place_of_not_blocked h hblocked n with ⟨hopened, hplace⟩ | ⟨top, rest, hopened, hplace⟩
  · rw [hplace]
    refine ⟨⟨⟨h.error, h.honest, h.room, fun hne => absurd hopened hne, hnone rfl⟩, herror, ?_,
      hdepth, hsalt, hstreams⟩, hstaged⟩
    rw [hroot, hopened]
    exact (joined_of_not_opened (a := { a with opened := [], root := some n }) hstaged rfl).symm
  · have hhonest := h.honest
    have hroom := h.room
    have haroot : a.root = none := (h.free hblocked).1
    -- the open node takes the child in, the ones around it stay as they are
    rw [hopened] at hroot hdepth hhonest hroom
    obtain ⟨htop, hrest⟩ := List.forall_mem_cons.mp hhonest
    rw [hplace]
    refine ⟨⟨⟨h.error, List.forall_mem_cons.mpr ⟨htop.adopt, hrest⟩, hroom, fun _ => haroot,
      hnone rfl⟩, herror, ?_, hdepth, hsalt, hstreams⟩, hstaged⟩
    rw [hroot]
    exact (joined_of_opened (a := { a with opened := top.adopt n :: rest }) hstaged rfl).symm

/-- The leaf held back is already part of the tree. -/
theorem Fine.flush (h : Fine a e) : Fine a.flush e ∧ a.flush.staged = none := by
  have hsound := h.sound
  have hroot := h.root
  cases hstaged : a.staged with
  | none =>
    rw [flush_of_not_staged hstaged]
    exact ⟨h, hstaged⟩
  | some leaf =>
    have hbare : { a with staged := none }.Sound :=
      ⟨hsound.error, hsound.honest, hsound.room, hsound.root, fun hne => absurd rfl hne⟩
    have hblocked : a.blocked = none := hsound.staged (by rw [hstaged]; exact Option.some_ne_none _)
    -- the leaf is let go of first and then put in its place, where nothing is in the way
    rw [joined_of_staged hstaged] at hroot
    rw [flush_of_staged hsound.error hstaged]
    exact hbare.fine_place rfl hblocked h.error hroot h.depth h.salt h.streams

/-- What is blocked cannot be put in its place at once either. -/
theorem Fine.place_of_blocked (h : Fine a e) (hstaged : a.staged = none) {err : BuildError}
    (hblocked : a.blocked = some err) (n : Node G) : (e.place n).error = some err := by
  have hdepth := h.depth
  have hroom := h.sound.room
  -- why there is no room: there is a root already, or the innermost open node is full
  rcases cases_of_blocked hblocked with
    ⟨root, hopened, haroot, rfl⟩ | ⟨top, rest, hopened, hfull, rfl⟩
  · have hroot : e.root = some root :=
      (h.root.trans (joined_of_not_opened hstaged hopened)).trans haroot
    rw [hopened] at hdepth
    rw [EagerAssembly.place, hroot, hdepth]
    rfl
  · have hroot : e.root = some (top.joinUp rest) := h.root.trans (joined_of_opened hstaged hopened)
    rw [hopened] at hdepth hroom
    rw [EagerAssembly.place_of_depth hroot hdepth,
      EagerAssembly.change_joinUp_error (fun top => top.accept n) hroot hroom (if_neg hfull)]

/-- What is not blocked becomes the end of the last branch at once. -/
theorem Fine.place_of_not_blocked (h : Fine a e) (hstaged : a.staged = none)
    (hblocked : a.blocked = none) (n : Node G) :
    e.place n = { e with root := some (n.joinUp a.opened) } := by
  have hdepth := h.depth
  have hhonest := h.sound.honest
  obtain ⟨haroot, hroom⟩ := h.sound.free hblocked
  -- nothing is open and the node becomes the root, or it goes into the innermost open node
  cases hopened : a.opened with
  | nil =>
    have hroot : e.root = none :=
      (h.root.trans (joined_of_not_opened hstaged hopened)).trans haroot
    rw [EagerAssembly.place, hroot]
    rfl
  | cons top rest =>
    have hroot : e.root = some (top.joinUp rest) :=
      h.root.trans (joined_of_opened hstaged hopened)
    rw [hopened] at hdepth hhonest hroom
    obtain ⟨htop, hroom⟩ := List.forall_mem_cons.mp hroom
    rw [EagerAssembly.place_of_depth hroot hdepth,
      EagerAssembly.change_joinUp (fun top => top.accept n) hroot hroom
        (Node.accept_of_hasRoom (hhonest top List.mem_cons_self) htop), Node.joinUp]

/-! ## Errors -/

/-- The leaf held back cannot be put in its place, which has gone unnoticed. -/
structure Doomed (a : Assembly G) (err : BuildError) : Prop where
  error : a.error = none
  staged : a.staged ≠ none
  blocked : a.blocked = some err

variable {err : BuildError}

/-- The first error stays. -/
theorem error_fail (h : a.error = some err) (new : BuildError) : (a.fail new).error = some err := by
  rw [fail, h]
  rfl

/-- The first error is noted. -/
theorem error_fail_of_none (h : a.error = none) : (a.fail err).error = some err := by
  rw [fail, h]
  rfl

/-- The first error stays when a node is placed. -/
theorem error_place (h : a.error = some err) (n : Node G) : (a.place n).error = some err := by
  -- wherever the node might go, a new error does not take the place of the first one
  unfold place
  split
  · split
    · split
      · exact h
      · exact error_fail h _
    · exact error_fail h _
  · split
    · exact error_fail h _
    · exact h

/-- After an error nothing is added. -/
theorem add_of_error (h : a.error = some err) (n : Node G) : a.add n = a :=
  if_pos (by rw [h]; rfl)

/-- After an error nothing is closed. -/
theorem close_of_error (h : a.error = some err) : a.close = a :=
  if_pos (by rw [h]; rfl)

/-- A name given late is no error. -/
theorem error_rename (title : String) : (a.rename title).error = a.error := by
  unfold rename
  split <;> rfl

/-- After an error there are only names, which change no error. -/
theorem error_declare (h : a.error = some err) (d : Declaration G) :
    (a.declare d).error = some err := by
  have hnext : a.nextStream.2.error = some err := h
  cases d with
  | node n => rw [declare, add_of_error h]; exact h
  | random => exact (congrArg error (add_of_error hnext _)).trans h
  | weighted ws => exact (congrArg error (add_of_error hnext _)).trans h
  | name title => exact (error_rename title).trans h
  | close => rw [declare, close_of_error h]; exact h

/-- The first error stays when a node held back is placed. -/
theorem error_flush (h : a.error = some err) : a.flush.error = some err := by
  unfold flush
  split
  · exact (congrArg error (if_neg (by rw [h]; exact Bool.false_ne_true))).trans h
  · exact h

/-- The error is noticed when the leaf is put in its place. -/
theorem Doomed.error_flush (h : a.Doomed err) : a.flush.error = some err := by
  obtain ⟨herror, hstaged, hblocked⟩ := h
  obtain ⟨leaf, hstaged⟩ := Option.ne_none_iff_exists'.mp hstaged
  have hbare : { a with staged := none }.blocked = some err := hblocked
  rw [flush_of_staged herror hstaged, place_of_blocked hbare]
  exact error_fail_of_none herror

/-- Where the node held back has no place, adding another one ends in that error. -/
theorem Doomed.error_add (h : a.Doomed err) (n : Node G) : (a.add n).error = some err := by
  have hnone : ¬ a.error.isSome = true := Option.not_isSome_iff_eq_none.mpr h.error
  have hsome : a.flush.error.isSome = true := by rw [h.error_flush]; rfl
  have hadd : a.add n = a.flush := (if_neg hnone).trans (if_pos hsome)
  rw [hadd]
  exact h.error_flush

/-- Where the node held back has no place, closing ends in that error. -/
theorem Doomed.error_close (h : a.Doomed err) : a.close.error = some err := by
  have hnone : ¬ a.error.isSome = true := Option.not_isSome_iff_eq_none.mpr h.error
  have hflush := h.error_flush
  unfold close
  rw [if_neg hnone]
  dsimp only
  cases a.flush.opened with
  | nil => exact error_fail hflush _
  | cons n rest =>
    have hrest : { a.flush with opened := rest }.error = some err := hflush
    dsimp only
    cases n.finish with
    | ok u => exact error_place hrest n
    | error new => exact error_fail hrest new

/-- Another name does not make room. -/
theorem Doomed.rename (h : a.Doomed err) (title : String) : (a.rename title).Doomed err := by
  obtain ⟨herror, hstaged, hblocked⟩ := h
  obtain ⟨leaf, hstaged⟩ := Option.ne_none_iff_exists'.mp hstaged
  have hrename : a.rename title = { a with staged := some (leaf.rename title) } := by
    rw [Assembly.rename, hstaged]
  rw [hrename]
  exact ⟨herror, Option.some_ne_none _, hblocked⟩

/-! ## One declaration -/

/-- **An assembly and one in which every node is in its place**, after the same declarations. -/
inductive Agree (a : Assembly G) (e : EagerAssembly G) : Prop
  /-- There is no error, and the tree is the same. -/
  | fine (h : Fine a e) (hleaf : e.leafLast = a.staged.isSome)
  /-- Only the latter knows that there is no room for the leaf declared last. -/
  | doomed {err : BuildError} (h : a.Doomed err) (he : e.error = some err)
  | failed {err : BuildError} (h : a.error = some err) (he : e.error = some err)

/-- A leaf is held back. -/
theorem Fine.stage (h : Fine a e) (hstaged : a.staged = none) (n : Node G) :
    Agree { a with staged := some n } { e.place n with leafLast := true } := by
  have hsound := h.sound
  cases hblocked : a.blocked with
  -- held back where there is a place for it, or held back in vain: then the eager way fails at once
  | none =>
    rw [h.place_of_not_blocked hstaged hblocked]
    exact .fine ⟨⟨hsound.error, hsound.honest, hsound.room, hsound.root, fun _ => hblocked⟩,
      h.error, rfl, h.depth, h.salt, h.streams⟩ rfl
  | some err =>
    exact .doomed ⟨hsound.error, Option.some_ne_none n, hblocked⟩
      (h.place_of_blocked hstaged hblocked n)

/-- A node is opened. -/
theorem Fine.open (h : Fine a e) (hstaged : a.staged = none) (hn : n.Honest) :
    Agree (a.openNode n) { e.place n with depth := e.depth + 1, leafLast := false } := by
  have hsound := h.sound
  cases hblocked : a.blocked with
  | none =>
    -- the node is in its place on one side already, and only open on the other
    obtain ⟨haroot, hroom⟩ := hsound.free hblocked
    rw [h.place_of_not_blocked hstaged hblocked, openNode_of_not_blocked hsound hblocked]
    have hroot := (joined_of_opened (a := { a with opened := n :: a.opened }) hstaged rfl).symm
    exact .fine ⟨⟨hsound.error, List.forall_mem_cons.mpr ⟨hn, hsound.honest⟩, hroom,
      fun _ => haroot, fun hne => absurd hstaged hne⟩, h.error, hroot, congrArg (· + 1) h.depth,
      h.salt, h.streams⟩ (by rw [hstaged]; rfl)
  | some err =>
    rw [openNode_of_blocked hblocked]
    exact .failed (error_fail_of_none hsound.error) (h.place_of_blocked hstaged hblocked n)

/-- A node is declared. -/
theorem Fine.add (h : Fine a e) (hn : n.Honest) : Agree (a.add n) (e.add n) := by
  obtain ⟨hflush, hstaged⟩ := h.flush
  have hnone : ¬ a.error.isSome = true := Option.not_isSome_iff_eq_none.mpr h.sound.error
  have hnone' : ¬ a.flush.error.isSome = true :=
    Option.not_isSome_iff_eq_none.mpr hflush.sound.error
  unfold Assembly.add EagerAssembly.add
  rw [if_neg hnone]
  dsimp only
  rw [if_neg hnone']
  -- a node without room for children is held back, any other is opened
  cases n.arity with
  | none => exact hflush.stage hstaged n
  | one => exact hflush.open hstaged hn
  | many => exact hflush.open hstaged hn

/-- The innermost open node is closed, with nothing held back. -/
theorem Fine.close_of_not_staged (h : Fine a e) (hstaged : a.staged = none) :
    (Fine a.close e.close ∧ a.close.staged = none ∧ e.close.leafLast = false) ∨
      ∃ err, a.close.error = some err ∧ e.close.error = some err := by
  have hsound := h.sound
  have hdepth := h.depth
  have hnone : ¬ a.error.isSome = true := Option.not_isSome_iff_eq_none.mpr hsound.error
  unfold Assembly.close EagerAssembly.close
  rw [if_neg hnone, flush_of_not_staged hstaged]
  dsimp only
  cases hopened : a.opened with
  | nil =>
    rw [hopened] at hdepth
    rw [hdepth]
    exact .inr ⟨.unbalancedEnd, error_fail_of_none hsound.error, rfl⟩
  | cons n rest =>
    have hroot : e.root = some (n.joinUp rest) := h.root.trans (joined_of_opened hstaged hopened)
    have hhonest := hsound.honest
    have hroom := hsound.room
    have haroot : a.root = none := hsound.root (by rw [hopened]; exact List.cons_ne_nil n rest)
    rw [hopened] at hdepth hhonest hroom
    have hroom : ∀ m ∈ rest, m.hasRoom = true := hroom
    rw [hdepth]
    dsimp only [List.length_cons]
    cases hfinish : n.finish with
    | error err =>
      rw [EagerAssembly.change_joinUp_error (fun n => n.finish.map fun _ => n) hroot hroom
        (by rw [hfinish]; rfl)]
      exact .inr ⟨err, error_fail_of_none hsound.error, rfl⟩
    | ok u =>
      have hrest : { a with opened := rest }.Sound :=
        ⟨hsound.error, (List.forall_mem_cons.mp hhonest).2,
          fun m hm => hroom m (List.mem_of_mem_tail hm), fun _ => haroot,
          fun hne => absurd hstaged hne⟩
      -- there was room for the node when it was opened, and nothing has taken it
      have hblocked : { a with opened := rest }.blocked = none := blocked_eq_none haroot hroom
      obtain ⟨hfine, hnone⟩ := hrest.fine_place hstaged hblocked
        (e := { e with root := some (n.joinUp rest), depth := rest.length, leafLast := false })
        h.error rfl rfl h.salt h.streams
      rw [EagerAssembly.change_joinUp (fun n => n.finish.map fun _ => n) hroot hroom
        (by rw [hfinish]; rfl)]
      exact .inl ⟨hfine, hnone, rfl⟩

/-- The innermost open node is closed. -/
theorem Fine.close (h : Fine a e) : Agree a.close e.close := by
  obtain ⟨hflush, hstaged⟩ := h.flush
  -- a second flush changes nothing, so what is held back may be put in its place first
  have hclose : a.close = a.flush.close := by
    unfold Assembly.close
    rw [flush_of_not_staged hstaged, h.sound.error, hflush.sound.error]
    rfl
  rw [hclose]
  rcases hflush.close_of_not_staged hstaged with ⟨hfine, hnone, hleaf⟩ | ⟨err, ha, he⟩
  · exact .fine hfine (by rw [hleaf, hnone]; rfl)
  · exact .failed ha he

/-- The leaf held back gets a name. -/
theorem Fine.rename_leaf (h : Fine a e) (hleaf : e.leafLast = a.staged.isSome) {leaf : Node G}
    (hstaged : a.staged = some leaf) (title : String) :
    Agree (a.rename title) (e.rename title) := by
  have hsound := h.sound
  -- a node that is held back has a place, at the bottom of the open ones
  have hblocked : a.blocked = none := hsound.staged (by rw [hstaged]; exact Option.some_ne_none _)
  have hroot : e.root = some (leaf.joinUp a.opened) := h.root.trans (joined_of_staged hstaged)
  have hlast : e.leafLast = true := by rw [hleaf, hstaged]; rfl
  have hrename :
      e.rename title = { e with root := some ((leaf.rename title).joinUp a.opened) } := by
    have hat : (if e.leafLast then e.depth else e.depth - 1) = a.opened.length := by
      rw [if_pos hlast, h.depth]
    rw [EagerAssembly.rename, hat]
    exact EagerAssembly.change_joinUp (fun n => .ok (n.rename title)) hroot
      (hsound.free hblocked).2 rfl
  rw [hrename, Assembly.rename, hstaged]
  exact .fine ⟨⟨hsound.error, hsound.honest, hsound.room, hsound.root, fun _ => hblocked⟩, h.error,
    rfl, h.depth, h.salt, h.streams⟩ hlast

/-- The innermost open node gets a name. -/
theorem Fine.rename_opened (h : Fine a e) (hleaf : e.leafLast = a.staged.isSome)
    (hstaged : a.staged = none) {top : Node G} {rest : List (Node G)}
    (hopened : a.opened = top :: rest) (title : String) :
    Agree (a.rename title) (e.rename title) := by
  have hsound := h.sound
  have hhonest := hsound.honest
  have hroom := hsound.room
  have hdepth := h.depth
  have haroot : a.root = none := hsound.root (by rw [hopened]; exact List.cons_ne_nil top rest)
  have hroot : e.root = some (top.joinUp rest) := h.root.trans (joined_of_opened hstaged hopened)
  have hlast : ¬ e.leafLast = true := by rw [hleaf, hstaged]; exact Bool.false_ne_true
  rw [hopened] at hhonest hroom hdepth
  obtain ⟨htop, hrest⟩ := List.forall_mem_cons.mp hhonest
  -- the innermost open node is renamed where it stands
  have hrename : e.rename title = { e with root := some ((top.rename title).joinUp rest) } := by
    have hat : (if e.leafLast then e.depth else e.depth - 1) = rest.length := by
      rw [if_neg hlast, hdepth, List.length_cons, Nat.add_sub_cancel]
    rw [EagerAssembly.rename, hat]
    exact EagerAssembly.change_joinUp (fun n => .ok (n.rename title)) hroot hroom rfl
  rw [hrename, Assembly.rename, hstaged, hopened]
  exact .fine ⟨⟨hsound.error, List.forall_mem_cons.mpr ⟨htop.rename title, hrest⟩, hroom,
    fun _ => haroot, fun hne => absurd rfl hne⟩, h.error, rfl, hdepth, h.salt, h.streams⟩
    (by rw [hleaf, hstaged])

/-- The root gets a name, if there is one. -/
theorem Fine.rename_root (h : Fine a e) (hleaf : e.leafLast = a.staged.isSome)
    (hstaged : a.staged = none) (hopened : a.opened = []) (title : String) :
    Agree (a.rename title) (e.rename title) := by
  have hsound := h.sound
  have hdepth := h.depth
  have haroot : e.root = a.root := h.root.trans (joined_of_not_opened hstaged hopened)
  have hlast : ¬ e.leafLast = true := by rw [hleaf, hstaged]; exact Bool.false_ne_true
  rw [hopened] at hdepth
  -- without a root there is nothing to rename
  cases hroot : a.root with
  | none =>
    have hrename : e.rename title = e := by
      rw [EagerAssembly.rename, EagerAssembly.change, haroot, hroot]
    rw [hrename, Assembly.rename, hstaged, hopened, hroot]
    exact .fine h hleaf
  | some root =>
    have hrename : e.rename title = { e with root := some (root.rename title) } := by
      have hat : (if e.leafLast then e.depth else e.depth - 1) = 0 := by
        rw [if_neg hlast, hdepth, List.length_nil]
      have hroot : e.root = some (root.joinUp []) := haroot.trans hroot
      rw [EagerAssembly.rename, hat]
      exact EagerAssembly.change_joinUp (fun n => .ok (n.rename title)) hroot
        (List.forall_mem_nil _) rfl
    rw [hrename, Assembly.rename, hstaged, hopened, hroot]
    exact .fine ⟨⟨hsound.error, List.forall_mem_nil _, List.forall_mem_nil _,
      fun hne => absurd rfl hne, fun hne => absurd rfl hne⟩, h.error, rfl, hdepth, h.salt,
      h.streams⟩ (by rw [hleaf, hstaged])

/-- A name is given. -/
theorem Fine.rename (h : Fine a e) (hleaf : e.leafLast = a.staged.isSome) (title : String) :
    Agree (a.rename title) (e.rename title) := by
  cases hstaged : a.staged with
  | some leaf => exact h.rename_leaf hleaf hstaged title
  | none =>
    cases hopened : a.opened with
    | cons top rest => exact h.rename_opened hleaf hstaged hopened title
    | nil => exact h.rename_root hleaf hstaged hopened title

/-- **One declaration.** -/
theorem Agree.declare (h : Agree a e) (d : Declaration G) (hd : ∀ n, d = .node n → n.Honest) :
    Agree (a.declare d) (e.declare d) := by
  cases h with
  | failed ha he =>
    rw [EagerAssembly.declare_of_error he]
    exact .failed (error_declare ha d) he
  | doomed ha he =>
    -- a stream may be handed out in vain, but no declaration makes room
    have hnext : a.nextStream.2.Doomed _ := ⟨ha.error, ha.staged, ha.blocked⟩
    rw [EagerAssembly.declare_of_error he]
    cases d with
    | node n => exact .failed (ha.error_add n) he
    | random => exact .failed (hnext.error_add _) he
    | weighted ws => exact .failed (hnext.error_add _) he
    | name title => exact .doomed (ha.rename title) he
    | close => exact .failed ha.error_close he
  | fine hfine hleaf =>
    have hsound := hfine.sound
    have hnone : ¬ e.error.isSome = true := Option.not_isSome_iff_eq_none.mpr hfine.error
    have hnext : Fine a.nextStream.2 { e with salt := a.salt, streams := a.streams + 1 } :=
      ⟨⟨hsound.error, hsound.honest, hsound.room, hsound.root, hsound.staged⟩, hfine.error,
        hfine.root, hfine.depth, rfl, rfl⟩
    -- both sides have handed out as many streams, so the next one is the same
    have hhonest (c : Composite) : (Node.composite none c [] : Node G).Honest := trivial
    unfold EagerAssembly.declare
    rw [if_neg hnone, hfine.salt, hfine.streams]
    dsimp only
    cases d with
    | node n => exact Fine.add hfine (hd n rfl)
    | random => exact Fine.add hnext (hhonest _)
    | weighted ws => exact Fine.add hnext (hhonest _)
    | name title => exact Fine.rename hfine hleaf title
    | close => exact Fine.close hfine

/-! ## All declarations -/

/-- **Any number of declarations.** -/
theorem Agree.declareAll (h : Agree a e) (ds : List (Declaration G))
    (hds : ∀ n, .node n ∈ ds → n.Honest) :
    Agree (a.declareAll ds) (ds.foldl EagerAssembly.declare e) := by
  induction ds generalizing a e with
  | nil => exact h
  | cons d ds ih =>
    have hd : ∀ n, d = .node n → n.Honest := fun n hn => hds n (hn ▸ List.mem_cons_self)
    exact ih (h.declare d hd) fun n hn => hds n (List.mem_cons_of_mem d hn)

/-- After an error nothing is closed at the end. -/
theorem closeOpen_of_error (h : a.error = some err) : ∀ count, closeOpen count a = a
  | 0 => rfl
  | _ + 1 => if_neg (by rw [h]; exact Bool.false_ne_true)

/-- After an error there is no tree. -/
theorem build_of_error (ha : a.flush.error = some err) (he : e.error = some err) :
    a.build.1 = e.build := by
  rw [build, EagerAssembly.build]
  dsimp only
  rw [closeOpen_of_error ha, EagerAssembly.closeAll_of_error he, result, EagerAssembly.result, ha,
    he]

/-- What is open is closed, the innermost first. -/
theorem Fine.result_closeOpen (count : Nat) (h : Fine a e) (hstaged : a.staged = none)
    (hcount : e.depth = count) :
    (closeOpen count a).result = (EagerAssembly.closeAll count e).result := by
  induction count generalizing a e with
  | zero =>
    have hopened : a.opened = [] := List.eq_nil_of_length_eq_zero (h.depth.symm.trans hcount)
    have hroot : e.root = a.root := h.root.trans (joined_of_not_opened hstaged hopened)
    cases haroot : a.root <;>
      simp only [closeOpen, EagerAssembly.closeAll, result, EagerAssembly.result, h.sound.error,
        h.error, hroot, haroot]
  | succ count ih =>
    have hlength : a.opened.length = count + 1 := h.depth.symm.trans hcount
    have hopen : (a.error.isNone && !a.opened.isEmpty) = true := by
      rw [h.sound.error]
      cases hopened : a.opened with
      | nil =>
        rw [hopened] at hlength
        cases hlength
      | cons n rest => rfl
    have hnone : ¬ e.error.isSome = true := Option.not_isSome_iff_eq_none.mpr h.error
    have hdepth : e.close.depth = count := by
      rw [EagerAssembly.close, hcount]
    rw [closeOpen, if_pos hopen, EagerAssembly.closeAll, if_neg hnone]
    rcases h.close_of_not_staged hstaged with ⟨hfine, hnone, -⟩ | ⟨err, ha, he⟩
    · -- nothing is held back after a close, so the next one needs no flush
      exact ih hfine hnone hdepth
    · rw [closeOpen_of_error ha, EagerAssembly.closeAll_of_error he, result, EagerAssembly.result,
        ha, he]

/-- The same tree, or the same error. -/
theorem Agree.build (h : Agree a e) : a.build.1 = e.build := by
  -- an error on both sides, an error to come, or the same tree
  cases h with
  | failed ha he => exact build_of_error (error_flush ha) he
  | doomed ha he => exact build_of_error ha.error_flush he
  | fine hfine hleaf =>
    obtain ⟨hflush, hstaged⟩ := hfine.flush
    rw [Assembly.build, EagerAssembly.build]
    dsimp only
    rw [← hflush.depth]
    exact hflush.result_closeOpen e.depth hstaged rfl

/-- **Building late is building at once.** Whatever is declared, well formed or not, the tree is the
one in which every node was put in its place when it was declared, and the error is the first that
was made. Only of nodes of the game's own making is anything asked. -/
theorem treeOf_eq_eager (salt streams : UInt64) (ds : List (Declaration G))
    (hds : ∀ n, .node n ∈ ds → n.Honest) :
    treeOf { salt, streams } ds = EagerAssembly.treeOf { salt, streams } ds := by
  have hstart : Agree { salt, streams : Assembly G } { salt, streams } :=
    .fine ⟨⟨rfl, List.forall_mem_nil _, List.forall_mem_nil _, fun _ => rfl,
      fun hne => absurd rfl hne⟩, rfl, rfl, rfl, rfl, rfl⟩ rfl
  exact (hstart.declareAll ds hds).build

/-- A second child of an inverter, which is named before it is noticed. -/
theorem treeOf_eq_eager_occupied :
    let ds : List (Declaration Unit) :=
      [.node (.decorator none .inverter none), .node (.leaf none (.fixed .running)),
        .node (.leaf none (.fixed .success)), .name "late", .close]
    (∀ n, .node n ∈ ds → n.Honest) ∧
      treeOf { salt := 1, streams := 0 } ds = EagerAssembly.treeOf { salt := 1, streams := 0 } ds ∧
      treeOf { salt := 1, streams := 0 } ds = .error (.decoratorOccupied "Inverter") := by
  intro ds
  have hds : ∀ n, .node n ∈ ds → n.Honest := by
    intro n hn
    simp only [ds, List.mem_cons, Declaration.node.injEq, reduceCtorEq, List.not_mem_nil,
      or_false] at hn
    rcases hn with rfl | rfl | rfl <;> exact trivial
  exact ⟨hds, treeOf_eq_eager 1 0 ds hds, rfl⟩

end Assembly

end Instinct
