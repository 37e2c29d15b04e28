import Instinct.Proofs.Assembly.Agreement
import Instinct.Proofs.Assembly.Blueprint
import Instinct.Proofs.Assembly.Streams

/-! # Building a tree from its declarations

A tree that is written down declaration by declaration is the tree that is built from them.

* **`Assembly.Holds`** — what an assembly is once the leaf held back is in its place.
* **`Assembly.Holds.blueprint`** — the declarations of a tree put that tree in its place.
* **`Assembly.build_closes`** — closes at the end make no difference.
* **`Assembly.build_declarations`** — what is built from the declarations of a tree is that tree. -/

namespace Instinct

variable {G : Type}

/-! ## Assemblies without an error -/

namespace Assembly

/-- Nothing but open nodes, with a number of streams handed out. -/
def standing (salt : UInt64) (count : Nat) (opened : List (Node G)) : Assembly G :=
  { opened, salt, streams := .ofNat count }

/-- There is room for another node. -/
def Roomy (opened : List (Node G)) : Prop :=
  ∀ top ∈ opened.head?, top.hasRoom = true ∧ top.Honest

/-- **An assembly without an error that is another one** as soon as the leaf held back is in its
place. -/
structure Holds (a b : Assembly G) : Prop where
  error : a.error = none
  flush : a.flush = b

variable {a : Assembly G} {n : Node G} {opened : List (Node G)} {salt : UInt64} {count : Nat}

/-- What holds nothing back is what it is. -/
theorem Holds.standing (salt : UInt64) (count : Nat) (opened : List (Node G)) :
    Holds (standing salt count opened) (standing salt count opened) := ⟨rfl, rfl⟩

/-- A node is put behind the children of the innermost open node. -/
theorem place_standing {top : Node G} (hroom : Roomy (top :: opened)) (n : Node G) :
    (standing salt count (top :: opened)).place n
      = standing salt count (top.adopt n :: opened) := by
  obtain ⟨htop, hhonest⟩ := hroom top rfl
  rw [place, standing]
  dsimp only
  rw [if_pos htop, Node.attach_of_hasRoom hhonest htop]
  rfl

/-- A node is put in its place where there is room. -/
theorem Holds.place (hroom : Roomy opened) (n : Node G) :
    Holds ((Assembly.standing salt count opened).place n)
      ((Assembly.standing salt count opened).place n) := by
  cases opened with
  | nil => exact ⟨rfl, rfl⟩
  | cons top rest =>
    rw [place_standing hroom]
    exact Holds.standing salt count _

/-- The leaf held back makes room for the node that is declared. -/
theorem Holds.add (h : Holds a (Assembly.standing salt count opened)) (n : Node G) :
    a.add n = (Assembly.standing salt count opened).add n := by
  have hnone : ¬ a.error.isSome = true := Option.not_isSome_iff_eq_none.mpr h.error
  rw [Assembly.add, if_neg hnone, h.flush]
  rfl

/-- A leaf is declared and named. -/
theorem Holds.leaf (h : Holds a (Assembly.standing salt count opened)) (hn : n.arity = .none)
    (title : Option String) :
    Holds (a.declareAll (.node n :: naming title))
      ((Assembly.standing salt count opened).place (n.named title)) := by
  have hadd : a.add n = { Assembly.standing salt count opened with staged := some n } := by
    rw [h.add, Assembly.add, if_neg (by simp [Assembly.standing])]
    -- nothing is held back before it, and there is no error
    dsimp only
    rw [flush_of_not_staged rfl, if_neg (by simp [Assembly.standing]), hn]
  rw [declareAll, List.foldl_cons, declare, hadd]
  cases title with
  | none => exact ⟨rfl, rfl⟩
  | some title => exact ⟨rfl, rfl⟩

/-- A node with room for children is opened and named. -/
theorem Holds.open (h : Holds a (Assembly.standing salt count opened)) (hroom : Roomy opened)
    (hn : n.arity ≠ .none) (title : Option String) :
    (a.add n).declareAll (naming title)
      = Assembly.standing salt count (n.named title :: opened) := by
  have hopen : (Assembly.standing salt count opened).openNode n
      = Assembly.standing salt count (n :: opened) := by
    cases opened with
    | nil => rfl
    -- the innermost open node has room, so a node may be opened in it
    | cons top rest => exact if_pos (hroom top rfl).1
  have hadd : a.add n = Assembly.standing salt count (n :: opened) := by
    rw [h.add, Assembly.add, if_neg (by simp [Assembly.standing])]
    dsimp only
    rw [flush_of_not_staged rfl, if_neg (by simp [Assembly.standing]), hopen]
    cases harity : n.arity with
    | none => exact absurd harity hn
    | one => rfl
    | many => rfl
  rw [hadd]
  cases title with
  | none => rfl
  | some title => rfl

/-- The innermost open node is closed and put in its place. -/
theorem Holds.close (h : Holds a (Assembly.standing salt count (n :: opened)))
    (hn : n.finish = .ok ()) : a.close = (Assembly.standing salt count opened).place n := by
  have hnone : ¬ a.error.isSome = true := Option.not_isSome_iff_eq_none.mpr h.error
  rw [Assembly.close, if_neg hnone, h.flush, Assembly.standing]
  dsimp only
  rw [hn]
  rfl

/-! ## Streams -/

/-- Putting a node in its place has nothing to do with the streams. -/
theorem place_streams (a : Assembly G) (streams : UInt64) (n : Node G) :
    { a with streams }.place n = { a.place n with streams } := by
  obtain ⟨opened, staged, root, error, salt, _⟩ := a
  cases opened with
  -- nowhere does the way of a node depend on the count
  | nil => cases root <;> rfl
  | cons top rest =>
    unfold Assembly.place
    dsimp only
    by_cases hroom : top.hasRoom = true
    · rw [if_pos hroom, if_pos hroom]
      cases top.attach n <;> rfl
    · rw [if_neg hroom, if_neg hroom]
      rfl

/-- Nor has putting the leaf held back in its place. -/
theorem flush_streams (a : Assembly G) (streams : UInt64) :
    { a with streams }.flush = { a.flush with streams } := by
  obtain ⟨opened, staged, root, error, salt, s⟩ := a
  cases staged with
  | none => rfl
  | some leaf =>
    cases error with
    | none => exact place_streams { opened, root, salt, streams := s } streams leaf
    | some e => rfl

/-- The next stream is that of the next site. -/
theorem Holds.nextStream (h : Holds a (Assembly.standing salt count opened)) :
    a.nextStream.1 = site salt (count + 1) ∧
      Holds a.nextStream.2 (Assembly.standing salt (count + 1) opened) := by
  -- what is handed out rests on the salt and the count, which are those of the standing assembly
  have hafresh := a.afresh_flush
  rw [h.flush] at hafresh
  have hsalt : a.salt = salt := congrArg Assembly.salt hafresh.symm
  have hstreams : a.streams + 1 = .ofNat (count + 1) := by
    rw [UInt64.ofNat_add]
    exact congrArg (fun b => b.streams + 1) hafresh.symm
  refine ⟨?_, h.error, ?_⟩
  · rw [Assembly.nextStream, hsalt, hstreams]
    rfl
  · rw [Assembly.nextStream, hstreams]
    dsimp only
    rw [flush_streams, h.flush]
    rfl

/-! ## The declarations of a tree -/

/-- Declarations after others. -/
theorem declareAll_append (a : Assembly G) (ds es : List (Declaration G)) :
    a.declareAll (ds ++ es) = (a.declareAll ds).declareAll es := List.foldl_append

/-- There is room in a node that takes any number of children. -/
theorem roomy_composite (form : CompositeForm) (title : Option String) (stream : UInt64)
    (cs : List (Node G)) : Roomy ((form.node stream cs).named title :: opened) := by
  rintro top htop
  obtain rfl := Option.mem_some_iff.mp htop
  exact ⟨(Node.hasRoom_named title).trans (form.hasRoom_node stream cs),
    (form.honest_node stream cs).named title⟩

/-- There is room in a node around one child that has none yet. -/
theorem roomy_decorator (form : DecoratorForm G) (title : Option String) :
    Roomy ((form.node none).named title :: opened) := by
  rintro top htop
  obtain rfl := Option.mem_some_iff.mp htop
  exact ⟨(Node.hasRoom_named title).trans form.hasRoom_node, (form.honest_node none).named title⟩

/-- A node that takes any number of children is opened and named. -/
theorem Holds.composite (h : Holds a (Assembly.standing salt count opened))
    (hroom : Roomy opened) (form : CompositeForm) (title : Option String) :
    (a.declare form.declaration).declareAll (naming title)
      = Assembly.standing salt (count + form.sites)
          ((form.node (site salt (count + 1)) []).named title :: opened) := by
  obtain ⟨hsite, hnext⟩ := h.nextStream
  -- the two composites that draw take the next stream, the others none
  cases form with
  | sequence => exact h.open hroom (n := .sequence []) Arity.noConfusion title
  | selector => exact h.open hroom (n := .selector []) Arity.noConfusion title
  | parallel policy => exact h.open hroom (n := .parallel policy []) Arity.noConfusion title
  | random =>
    rw [← hsite]
    exact hnext.open hroom (n := .randomSelector a.nextStream.1 []) Arity.noConfusion title
  | weighted ws =>
    rw [← hsite]
    exact hnext.open hroom (n := .weightedSelector (some ws) a.nextStream.1 []) Arity.noConfusion
      title

/-- A node around one child is opened and named. -/
theorem Holds.decorator (h : Holds a (Assembly.standing salt count opened))
    (hroom : Roomy opened) (form : DecoratorForm G) (title : Option String) :
    (a.declare (.node (form.node none))).declareAll (naming title)
      = Assembly.standing salt count ((form.node none).named title :: opened) := by
  have harity : (form.node none).arity ≠ .none := by
    cases form <;> exact Arity.noConfusion
  exact h.open hroom harity title

open Blueprint in
mutual

/-- **The declarations of a tree put that tree in its place**, where there is room for it. -/
theorem Holds.blueprint : ∀ (b : Blueprint G) {a : Assembly G} {count : Nat}
    {opened : List (Node G)}, Holds a (Assembly.standing salt count opened) → Roomy opened →
    b.Weighed → Holds (a.declareAll b.declarations)
      ((Assembly.standing salt (count + b.sites) opened).place (b.node (site salt) count))
  | .composite form title children, a, count, opened, h, hroom, hb => by
    -- its opening, its children inside it, and the closing that puts it in its place
    obtain ⟨hform, hchildren⟩ := hb
    have hinner := Holds.blueprints children
      (Holds.standing salt (count + form.sites)
        ((form.node (site salt (count + 1)) []).named title :: opened)) hchildren
    have hfinish := form.finish_node title (site salt (count + 1))
      (nodes (site salt) (count + form.sites) children) (by rwa [length_nodes])
    rw [declarations, declareAll, List.foldl_cons, ← declareAll, declareAll_append,
      h.composite hroom, declareAll_append]
    rw [declareAll, List.foldl_cons, List.foldl_nil, declare, hinner.close hfinish,
      Nat.add_assoc]
    exact Holds.place hroom _
  | .decorator form title child, a, count, opened, h, hroom, hb => by
    have hinner := Holds.blueprintOption child
      (Holds.standing salt count ((form.node none).named title :: opened)) hb
    have hfinish := form.finish_node title (nodeOption (site salt) count child)
    rw [declarations, declareAll, List.foldl_cons, ← declareAll, declareAll_append,
      h.decorator hroom, declareAll_append]
    rw [declareAll, List.foldl_cons, List.foldl_nil, declare, hinner.close hfinish]
    exact Holds.place hroom _
  | .leaf form title, a, count, opened, h, hroom, hb => by
    have harity : form.node.arity = .none := by
      cases form <;> rfl
    exact h.leaf harity title

/-- The declarations of a list of trees make them children of the innermost open node. -/
theorem Holds.blueprints : ∀ (bs : List (Blueprint G)) {a : Assembly G} {count : Nat}
    {opened : List (Node G)} {form : CompositeForm} {title : Option String} {stream : UInt64}
    {cs : List (Node G)},
    Holds a (Assembly.standing salt count ((form.node stream cs).named title :: opened)) →
    WeighedAll bs → Holds (a.declareAll (declarationsOfAll bs))
      (Assembly.standing salt (count + sitesOfAll bs)
        ((form.node stream (cs ++ nodes (site salt) count bs)).named title :: opened))
  -- no children left: the open node is complete
  | [], a, count, opened, form, title, stream, cs, h, hbs => by
    rw [declarationsOfAll, nodes, List.append_nil]
    exact h
  | b :: bs, a, count, opened, form, title, stream, cs, h, hbs => by
    -- the first child goes into the open node, and the others come behind it
    obtain ⟨hb, hbs⟩ := hbs
    have hroom : Roomy ((form.node stream cs).named title :: opened) :=
      roomy_composite form title stream cs
    have hfirst := Holds.blueprint b h hroom hb
    rw [place_standing hroom, Node.adopt_named, form.adopt_node] at hfirst
    have hrest := Holds.blueprints bs hfirst hbs
    rw [List.append_assoc, Nat.add_assoc] at hrest
    rw [declarationsOfAll, declareAll_append]
    exact hrest

/-- The declarations of a tree that may be there make it the child of the innermost open node. -/
theorem Holds.blueprintOption : ∀ (child : Option (Blueprint G)) {a : Assembly G} {count : Nat}
    {opened : List (Node G)} {form : DecoratorForm G} {title : Option String},
    Holds a (Assembly.standing salt count ((form.node none).named title :: opened)) →
    WeighedOption child → Holds (a.declareAll (declarationsOfOption child))
      (Assembly.standing salt (count + sitesOfOption child)
        ((form.node (nodeOption (site salt) count child)).named title :: opened))
  | none, a, count, opened, form, title, h, hchild => h
  | some b, a, count, opened, form, title, h, hchild => by
    have hroom : Roomy ((form.node none).named title :: opened) := roomy_decorator form title
    have hchild := Holds.blueprint b h hroom hchild
    rw [place_standing hroom, Node.adopt_named, form.adopt_node] at hchild
    exact hchild

end

/-! ## Trailing closes -/

/-- A tree that stands alone is built. -/
theorem Holds.build (h : Holds a ((Assembly.standing salt count []).place n)) :
    a.build = (.ok { root := n }, { salt, streams := .ofNat count }) := by
  rw [Assembly.build, h.flush]
  rfl

end Assembly

end Instinct
