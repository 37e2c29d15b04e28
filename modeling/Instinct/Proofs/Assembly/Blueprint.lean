import Instinct.Node.Kinds
import Instinct.Proofs.Assembly.HeldBack

/-! # Blueprints: trees written down

* **`CompositeForm`**, **`DecoratorForm`**, **`LeafForm`** — what can be declared.
* **`Blueprint G`** — a tree yet to be built.
* **`Blueprint.node`** — the tree itself, the `k`-th selector in order drawing from the `k`-th site.
* **`Blueprint.declarations`** — its declarations: every node before its children.
* **`Blueprint.Weighed`** — one weight for each child, finite and not negative. -/

namespace Instinct

variable {G : Type}

/-! ## Blueprints -/

/-- **A kind of node with any number of children**, and what sets it apart from others of its
kind. -/
inductive CompositeForm where
  | sequence
  | selector
  | parallel (policy : Policy)
  | random
  | weighted (weights : List Float32)

/-- **A kind of node around one child**, and what sets it apart from others of its kind. -/
inductive DecoratorForm (G : Type) where
  | inverter
  | succeeder
  | failer
  | repeater (times : Int32)
  | retry (attempts : UInt32)
  | timeout (limit : Duration)
  | cooldown (duration : Duration)
  | conditional (title : String) (guard : Guard G)

/-- **A kind of node without children**, and what sets it apart from others of its kind. -/
inductive LeafForm (G : Type) where
  | action (title : String) (deed : Deed G)
  | condition (title : String) (test : Guard G)
  | wait (duration : Duration)
  | fixed (status : Status)
  | log (message : String) (level : Level)
  | setValue (key : String) (source : ValueSource G)
  | clearValue (key : String)

namespace CompositeForm

/-- How many sites a node of this kind draws from. -/
def sites : CompositeForm → Nat
  | random => 1
  | weighted _ => 1
  | _ => 0

/-- The node of this kind, drawing from `stream` if it draws at all. -/
def node (stream : UInt64) (children : List (Node G)) : CompositeForm → Node G
  | sequence => .sequence children
  | selector => .selector children
  | parallel policy => .parallel policy children
  | random => .randomSelector stream children
  | weighted weights => .weightedSelector (some weights) stream children

/-- The declaration that opens a node of this kind. -/
def declaration : CompositeForm → Declaration G
  | sequence => .node (.sequence [])
  | selector => .node (.selector [])
  | parallel policy => .node (.parallel policy [])
  | random => .random
  | weighted weights => .weighted weights

/-- Whether a node of this kind can have `count` children: if there are weights, one for each
child. -/
def Weighed (count : Nat) : CompositeForm → Prop
  | weighted weights => weights.length = count ∧ ∀ w ∈ weights, w.isFinite = true ∧ ¬ w < 0
  | _ => True

end CompositeForm

/-- The node of this kind. -/
def DecoratorForm.node (child : Option (Node G)) : DecoratorForm G → Node G
  | inverter => .inverter child
  | succeeder => .succeeder child
  | failer => .failer child
  | repeater times => .repeater times child
  | retry attempts => .retry attempts child
  | timeout limit => .timeout limit child
  | cooldown duration => .cooldown duration child
  | conditional title guard => .conditional title guard child

/-- The node of this kind. -/
def LeafForm.node : LeafForm G → Node G
  | action title deed => .action title deed
  | condition title test => .condition title test
  | wait duration => .wait duration
  | fixed status => .fixed status
  | log message level => .log message level
  | setValue key source => .setValue key source
  | clearValue key => .clearValue key

/-- A node with another name, if one is given. -/
def Node.named : Option String → Node G → Node G
  | none, n => n
  | some title, n => n.rename title

/-- The declaration of a name, if one is given. -/
def naming : Option String → List (Declaration G)
  | none => []
  | some title => [.name title]

/-- **A tree yet to be built.** A node has a name of its own if one is given. -/
inductive Blueprint (G : Type) where
  | composite (form : CompositeForm) (title : Option String) (children : List (Blueprint G))
  | decorator (form : DecoratorForm G) (title : Option String) (child : Option (Blueprint G))
  | leaf (form : LeafForm G) (title : Option String)

namespace Blueprint

mutual

/-- The number of selectors of a tree that choose at random. -/
def sites : Blueprint G → Nat
  | composite form _ children => form.sites + sitesOfAll children
  | decorator _ _ child => sitesOfOption child
  | leaf _ _ => 0

/-- The number of selectors of a list of trees that choose at random. -/
def sitesOfAll : List (Blueprint G) → Nat
  | [] => 0
  | b :: bs => sites b + sitesOfAll bs

/-- The number of selectors that choose at random of a tree that may be there. -/
def sitesOfOption : Option (Blueprint G) → Nat
  | none => 0
  | some b => sites b

end

mutual

/-- **The tree.** After `count` selectors that choose at random, the next one draws from the site of
number `count + 1`; selectors are counted in the order in which they are written down, each before
its children. -/
def node (site : Nat → UInt64) (count : Nat) : Blueprint G → Node G
  | composite form title children =>
    (form.node (site (count + 1)) (nodes site (count + form.sites) children)).named title
  | decorator form title child => (form.node (nodeOption site count child)).named title
  | leaf form title => form.node.named title

/-- A list of trees. -/
def nodes (site : Nat → UInt64) (count : Nat) : List (Blueprint G) → List (Node G)
  | [] => []
  | b :: bs => node site count b :: nodes site (count + sites b) bs

/-- A tree that may be there. -/
def nodeOption (site : Nat → UInt64) (count : Nat) : Option (Blueprint G) → Option (Node G)
  | none => none
  | some b => some (node site count b)

end

mutual

/-- **The declarations of a tree**: a node is opened and named, its children follow, and it is
closed. A leaf is neither opened nor closed. -/
def declarations : Blueprint G → List (Declaration G)
  | composite form title children =>
    form.declaration :: (naming title ++ (declarationsOfAll children ++ [.close]))
  | decorator form title child =>
    .node (form.node none) :: (naming title ++ (declarationsOfOption child ++ [.close]))
  | leaf form title => .node form.node :: naming title

/-- The declarations of a list of trees. -/
def declarationsOfAll : List (Blueprint G) → List (Declaration G)
  | [] => []
  | b :: bs => declarations b ++ declarationsOfAll bs

/-- The declarations of a tree that may be there. -/
def declarationsOfOption : Option (Blueprint G) → List (Declaration G)
  | none => []
  | some b => declarations b

end

mutual

/-- **Every selector with weights has one for each child**, finite and not negative. -/
def Weighed : Blueprint G → Prop
  | composite form _ children => form.Weighed children.length ∧ WeighedAll children
  | decorator _ _ child => WeighedOption child
  | leaf _ _ => True

/-- All of a list of trees have the weights that they need. -/
def WeighedAll : List (Blueprint G) → Prop
  | [] => True
  | b :: bs => Weighed b ∧ WeighedAll bs

/-- A tree that may be there has the weights that it needs. -/
def WeighedOption : Option (Blueprint G) → Prop
  | none => True
  | some b => Weighed b

end

/-- As many nodes are made as there are blueprints. -/
@[simp] theorem length_nodes (site : Nat → UInt64) (bs : List (Blueprint G)) (count : Nat) :
    (nodes site count bs).length = bs.length := by
  induction bs generalizing count with
  | nil => rfl
  | cons b bs ih => exact congrArg (· + 1) (ih _)

end Blueprint

/-! ## Single nodes -/

namespace Node

variable {n child : Node G}

/-- A node may be named before or after it takes in a child. -/
@[simp] theorem adopt_named (title : Option String) :
    (n.named title).adopt child = (n.adopt child).named title := by
  cases title with
  | none => rfl
  | some title => cases n <;> rfl

/-- A name does not change how much room there is. -/
@[simp] theorem hasRoom_named (title : Option String) : (n.named title).hasRoom = n.hasRoom := by
  cases title with
  | none => rfl
  | some title => cases n <;> rfl

/-- A node with another name takes as many children as before. -/
theorem Honest.named (hn : n.Honest) (title : Option String) : (n.named title).Honest := by
  cases title with
  | none => exact hn
  | some title => exact hn.rename title

/-- All weights are valid if there is nothing against any of them. -/
theorem firstInvalidWeight_eq_none {ws : List Float32}
    (h : ∀ w ∈ ws, w.isFinite = true ∧ ¬ w < 0) : firstInvalidWeight ws = none := by
  refine Option.map_eq_none_iff.mpr (List.find?_eq_none.mpr ?_)
  rintro ⟨w, i⟩ hw
  obtain ⟨hfinite, hnonneg⟩ := h w (List.fst_mem_of_mem_zipIdx hw)
  simp [hfinite, hnonneg]

end Node

namespace CompositeForm

variable (form : CompositeForm) (title : Option String) (stream : UInt64) (cs : List (Node G))

/-- A node of this kind takes any number of children. -/
theorem hasRoom_node : (form.node stream cs).hasRoom = true := by
  cases form <;> rfl

/-- A composite that is built is honest about its room. -/
theorem honest_node : (form.node stream cs).Honest := by
  cases form <;> exact trivial

/-- A child is put behind the others. -/
theorem adopt_node (c : Node G) :
    (form.node stream cs).adopt c = form.node stream (cs ++ [c]) := by
  cases form <;> rfl

/-- A node with its weights passes the check. -/
theorem finish_node (hform : form.Weighed cs.length) :
    ((form.node stream cs).named title).finish = .ok () := by
  cases form with
  | weighted weights =>
    -- only the weighted selector can be refused, for its weights
    obtain ⟨hlength, hweights⟩ := hform
    have hvalid := Node.firstInvalidWeight_eq_none hweights
    cases title <;>
    · rw [Node.named, node, Node.weightedSelector]
      simp only [Node.rename, Node.finish, hlength, hvalid, ne_eq, not_true_eq_false, if_false]
  | _ => cases title <;> rfl

end CompositeForm

namespace DecoratorForm

variable (form : DecoratorForm G) (title : Option String)

/-- A node of this kind takes a child if it has none. -/
theorem hasRoom_node : (form.node none).hasRoom = true := by
  cases form <;> rfl

/-- A decorator that is built is honest about its room. -/
theorem honest_node (child : Option (Node G)) : (form.node child).Honest := by
  cases form <;> exact trivial

/-- A decorator takes in the child it is built around. -/
theorem adopt_node (c : Node G) : (form.node none).adopt c = form.node (some c) := by
  cases form <;> rfl

/-- There is nothing to be checked. -/
theorem finish_node (child : Option (Node G)) :
    ((form.node child).named title).finish = .ok () := by
  cases form <;> cases title <;> rfl

end DecoratorForm

end Instinct
