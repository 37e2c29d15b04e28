import Instinct.Blackboard
import Instinct.Proofs.Runs
import Instinct.Proofs.SortedMaps
import Mathlib.Data.Set.Card

/-! # What a blackboard shows after any use

A slot is found by its name and read at a type, and both come from the caller: through a key, or as
a name and a type known only at run time. What a blackboard shows is described by a map that knows
nothing of packing and order, from names to a type and a value of that type. Which types there are
is left open.

* **`SlotTypes U V`** — types known by their codes in `U`, whose values fit into slots that hold
  values of `V`; **`SlotTypes.ofFamily`** — every family of types is such a universe.
* **`SlotType`** — the universe of a running tree.
* **`TypedValue`** — a type and a value of it; **`TypedValue.as?`** reads it at a type.
* **`Edit`** — what is done to a blackboard; **`Blackboard.edit`** does it, and **`Notes.edit`**
  says what it means.
* **`Blackboard.Holds`** — the blackboard holds what the notes say.
* **`Blackboard.Shows`** — everything that can be read off a blackboard, told by the notes.
* **`Blackboard.shows_run`** — after any edits a blackboard shows what the notes say. -/

namespace Instinct

/-! ## (1) Types of slots -/

/-- **A universe of types for slots.** A type is known by its code, its values fit into slots, and
what a slot holds has one type only. -/
class SlotTypes (U : Type) (V : outParam Type) where
  /-- The values of a type. -/
  Carrier : U → Type
  /-- How they fit into a slot. -/
  slot : ∀ t, Slot (Carrier t) V
  /-- The type of what a slot holds. -/
  typeOf : V → U
  typeOf_pack : ∀ t a, typeOf ((slot t).pack a) = t

namespace SlotTypes

variable {U V : Type}

/-- **Every family of types is a universe**: a slot holds a value together with its type. -/
abbrev ofFamily [DecidableEq U] (C : U → Type) : SlotTypes U (Σ t, C t) where
  Carrier := C
  slot t := {
    pack := Sigma.mk t
    unpack? := fun v => if h : v.1 = t then some (h ▸ v.2) else none
    unpack?_eq_some_iff := by
      rintro ⟨u, b⟩ a
      by_cases h : u = t
      · subst h
        simp
      · simp [h] }
  typeOf := Sigma.fst
  typeOf_pack _ _ := rfl

variable [SlotTypes U V]

instance (t : U) : Slot (Carrier t) V := slot t

/-- How the values of a type fit into a slot that is known to be the type of a code. -/
abbrev slotOf {t : U} {α : Type} (h : Carrier t = α) : Slot α V := h ▸ slot t

end SlotTypes

open SlotTypes (Carrier)

/-- **The types of slots of a running tree.** -/
inductive SlotType where
  | bool | int | byte | word | float | text | duration | vec | agent | target | scene | log | stream
deriving DecidableEq

/-- The values of a type. -/
def SlotType.Values : SlotType → Type
  | bool => Bool
  | int => Int64
  | byte => UInt8
  | word => UInt32
  | float => Float32
  | text => String
  | duration => Duration
  | vec => Vec2
  | agent => AgentId
  | target => TargetId
  | scene => SceneId
  | log => TraceLog
  | stream => TraceStream

instance (t : SlotType) : Slot t.Values :=
  match t with
  | .bool => inferInstanceAs (Slot Bool)
  | .int => inferInstanceAs (Slot Int64)
  | .byte => inferInstanceAs (Slot UInt8)
  | .word => inferInstanceAs (Slot UInt32)
  | .float => inferInstanceAs (Slot Float32)
  | .text => inferInstanceAs (Slot String)
  | .duration => inferInstanceAs (Slot Duration)
  | .vec => inferInstanceAs (Slot Vec2)
  | .agent => inferInstanceAs (Slot AgentId)
  | .target => inferInstanceAs (Slot TargetId)
  | .scene => inferInstanceAs (Slot SceneId)
  | .log => inferInstanceAs (Slot TraceLog)
  | .stream => inferInstanceAs (Slot TraceStream)

/-- The type of what a slot holds. -/
def Value.slotType : Value → SlotType
  | bool _ => .bool
  | int _ => .int
  | byte _ => .byte
  | word _ => .word
  | float _ => .float
  | text _ => .text
  | duration _ => .duration
  | vec _ => .vec
  | agent _ => .agent
  | target _ => .target
  | scene _ => .scene
  | log _ => .log
  | stream _ => .stream

/-- **The universe of a running tree.** -/
instance : SlotTypes SlotType Value where
  Carrier := SlotType.Values
  slot t := inferInstanceAs (Slot t.Values)
  typeOf := Value.slotType
  typeOf_pack t a := by cases t <;> rfl

variable {U V : Type} [SlotTypes U V]

/-! ## (2) Typed values -/

/-- **A type and a value of it.** -/
structure TypedValue (U : Type) {V : Type} [SlotTypes U V] where
  type : U
  value : Carrier type

namespace TypedValue

/-- The value as a slot holds it. -/
def pack (e : TypedValue U) : V := Slot.pack e.value

/-- **Typed values are packed apart**: neither types nor values are mixed up. -/
theorem pack_inj {e e' : TypedValue U} : e.pack = e'.pack ↔ e = e' := by
  refine ⟨fun h => ?_, congrArg pack⟩
  obtain ⟨t, a⟩ := e
  obtain ⟨u, b⟩ := e'
  -- what the slot holds tells the type, and at that type it is read back
  have htype : t = u := (SlotTypes.typeOf_pack t a).symm.trans
    ((congrArg SlotTypes.typeOf h).trans (SlotTypes.typeOf_pack u b))
  subst htype
  have hvalue : some a = some b := by
    rw [← Blackboard.unpack?_pack (V := V) a, ← Blackboard.unpack?_pack (V := V) b]
    exact congrArg Slot.unpack? h
  rw [Option.some.inj hvalue]

variable [DecidableEq U]

/-- **Read a value at a type**: there is something to read just if that is the type it has. -/
def as? (t : U) (e : TypedValue U) : Option (Carrier t) :=
  if h : e.type = t then some (h ▸ e.value) else none

/-- What is read at a type is the value, and the type is the one it has. -/
theorem as?_eq_some_iff {t : U} {e : TypedValue U} {a : Carrier t} :
    e.as? t = some a ↔ e = ⟨t, a⟩ := by
  obtain ⟨u, b⟩ := e
  unfold as?
  by_cases h : u = t
  · subst h
    simp
  · rw [dif_neg h]
    simp [h]

/-- **A slot reads as the value in it does**, at every type. -/
theorem unpack?_pack (t : U) (e : TypedValue U) :
    (Slot.unpack? e.pack : Option (Carrier t)) = e.as? t := by
  refine Option.ext fun a => ?_
  rw [Slot.unpack?_eq_some_iff, as?_eq_some_iff, ← pack_inj]
  rfl

end TypedValue

/-! ## (3) Edits -/

/-- **What is done to a blackboard**, through keys and through names. -/
inductive Edit (U : Type) {V : Type} [SlotTypes U V] where
  | set (type : U) (key : Key (Carrier type)) (value : Carrier type)
  | setNamed (type : U) (name : String) (value : Carrier type)
  /-- A value is handed out to be changed in place. -/
  | modify (type : U) (key : Key (Carrier type)) (change : Carrier type → Carrier type)
  | remove (type : U) (key : Key (Carrier type))
  | removeName (name : String)
  | clear

/-- **What an edit answers.** -/
inductive Answer (U : Type) {V : Type} [SlotTypes U V] where
  /-- The value that was handed out. -/
  | found (value : Option (TypedValue U))
  /-- Whether there was a slot. -/
  | existed (b : Bool)

/-- One edit of a blackboard. -/
def Blackboard.edit : Edit U → Blackboard V → Option (Answer U) × Blackboard V
  | .set _ key value, b => (none, b.set key value)
  | .setNamed _ name value, b => (none, b.setNamed name value)
  | .modify type key change, b =>
    (some (.found ((b.get? key).map (TypedValue.mk type))), b.modify key change)
  | .remove type key, b => (some (.found ((b.get? key).map (TypedValue.mk type))), b.remove key)
  | .removeName name, b => (some (.existed (b.containsName name)), b.removeName name)
  | .clear, _ => (none, .empty)

/-- **What was written last under each name**, with its type. -/
abbrev Notes (U : Type) {V : Type} [SlotTypes U V] : Type := String → Option (TypedValue U)

namespace Notes

/-- The notes on a new blackboard. -/
def blank : Notes U := fun _ => none

variable [DecidableEq U]

/-- What a name reads as at a type. -/
def read? (notes : Notes U) (type : U) (name : String) : Option (Carrier type) :=
  (notes name).bind (TypedValue.as? type)

/-- **What an edit means.** At another type than that of the slot nothing is found, and nothing is
changed in place or removed. -/
def edit : Edit U → Notes U → Option (Answer U) × Notes U
  | .set type key value, notes => (none, Function.update notes key.name (some ⟨type, value⟩))
  | .setNamed type name value, notes => (none, Function.update notes name (some ⟨type, value⟩))
  | .modify type key change, notes =>
    match notes.read? type key.name with
    | some a =>
      (some (.found (some ⟨type, a⟩)), Function.update notes key.name (some ⟨type, change a⟩))
    | none => (some (.found none), notes)
  | .remove type key, notes =>
    match notes.read? type key.name with
    | some a => (some (.found (some ⟨type, a⟩)), Function.update notes key.name none)
    | none => (some (.found none), notes)
  | .removeName name, notes =>
    (some (.existed (notes name).isSome), Function.update notes name none)
  | .clear, _ => (none, blank)

/-- A name reads as a value at a type just if that value was noted under it, with that type. -/
theorem read?_eq_some_iff {notes : Notes U} {type : U} {name : String} {a : Carrier type} :
    notes.read? type name = some a ↔ notes name = some ⟨type, a⟩ := by
  unfold read?
  rw [Option.bind_eq_some_iff]
  constructor
  · rintro ⟨e, hname, he⟩
    rw [hname, TypedValue.as?_eq_some_iff.mp he]
  · intro hname
    exact ⟨_, hname, TypedValue.as?_eq_some_iff.mpr rfl⟩

end Notes

/-! ## (4) A blackboard and its notes -/

namespace Blackboard

/-- **The blackboard holds what the notes say.** -/
def Holds (b : Blackboard V) (notes : Notes U) : Prop :=
  ∀ name, b.value? name = (notes name).map TypedValue.pack

/-- Nothing is noted on a new blackboard. -/
theorem holds_empty : Holds .empty (.blank : Notes U) := fun _ => rfl

section Holds

variable {b : Blackboard V} {notes : Notes U}

/-- A name has a slot just if something is noted under it. -/
theorem Holds.containsName (h : Holds b notes) (name : String) :
    b.containsName name = (notes name).isSome := by
  have hvalue : b.slots.get? name = (notes name).map TypedValue.pack := h name
  rw [Blackboard.containsName, NameMap.Raw.contains, hvalue, Option.isSome_map]

/-- The slot of a name is written. -/
theorem Holds.setNamed (h : Holds b notes) (e : TypedValue U) (name : String) :
    Holds (b.setNamed name e.value) (Function.update notes name (some e)) := by
  intro other
  rw [value?_setNamed, Function.update_apply, h other]
  by_cases hname : name = other
  · rw [if_pos hname, if_pos hname.symm]
    rfl
  · rw [if_neg hname, if_neg (Ne.symm hname)]

/-- The slot of a name is removed. -/
theorem Holds.removeName (h : Holds b notes) (name : String) :
    Holds (b.removeName name) (Function.update notes name none) := by
  intro other
  rw [value?_removeName, Function.update_apply, h other]
  by_cases hname : name = other
  · rw [if_pos hname, if_pos hname.symm]
    rfl
  · rw [if_neg hname, if_neg (Ne.symm hname)]

variable [DecidableEq U]

/-- A name reads at a type as it does in the notes. -/
theorem Holds.getAs? (h : Holds b notes) (type : U) (name : String) :
    b.getAs? (Carrier type) name = notes.read? type name := by
  unfold Blackboard.getAs? Notes.read?
  rw [h name, Option.bind_map]
  refine congrArg _ (funext fun e => ?_)
  exact TypedValue.unpack?_pack type e

/-- A key reads as a value just if that value is noted under its name, with the key's type. -/
theorem Holds.get?_eq_some_iff (h : Holds b notes) (type : U) (key : Key (Carrier type))
    (a : Carrier type) : b.get? key = some a ↔ notes key.name = some ⟨type, a⟩ := by
  rw [Blackboard.get?, h.getAs? type key.name, Notes.read?_eq_some_iff]

/-- So does a key whose type is the one of a code. -/
theorem Holds.get?_eq_some_iff_of_carrier (h : Holds b notes) (type : U) {α : Type}
    (htype : Carrier type = α) (key : Key α) (a : α) :
    letI := SlotTypes.slotOf htype
    b.get? key = some a ↔ notes key.name = some ⟨type, cast htype.symm a⟩ := by
  subst htype
  exact h.get?_eq_some_iff type key a

/-- A value of the key's type is changed in place. -/
theorem Holds.modify (h : Holds b notes) {type : U} {key : Key (Carrier type)}
    {a : Carrier type} (hread : notes.read? type key.name = some a)
    (change : Carrier type → Carrier type) :
    Holds (b.modify key change) (Function.update notes key.name (some ⟨type, change a⟩)) := by
  intro other
  rw [value?_modify, Function.update_apply, h other]
  by_cases hname : key.name = other
  · subst hname
    rw [if_pos rfl, if_pos rfl, Notes.read?_eq_some_iff.mp hread]
    simp only [Option.map_some, TypedValue.pack, Blackboard.unpack?_pack]
  · rw [if_neg hname, if_neg (Ne.symm hname)]

/-- **Nothing is changed in place at another type.** -/
theorem Holds.modify_other (h : Holds b notes) {type : U} {key : Key (Carrier type)}
    (hread : notes.read? type key.name = none) (change : Carrier type → Carrier type) :
    b.modify key change = b := by
  refine modify_eq_self fun a ha => ?_
  have hget : b.get? key = none := (h.getAs? type key.name).trans hread
  rw [hget] at ha
  cases ha

/-- **Nothing is removed at another type.** -/
theorem Holds.remove_other (h : Holds b notes) {type : U} {key : Key (Carrier type)}
    (hread : notes.read? type key.name = none) : b.remove key = b := by
  have hget : b.get? key = none := (h.getAs? type key.name).trans hread
  rw [Blackboard.remove, hget]

/-- **One edit**: its answer is what the notes say, and so is what the blackboard holds after it. -/
theorem Holds.edit (h : Holds b notes) (e : Edit U) :
    (Notes.edit e notes).1 = (Blackboard.edit e b).1 ∧
      Holds (Blackboard.edit e b).2 (Notes.edit e notes).2 := by
  cases e with
  | set type key value => exact ⟨rfl, h.setNamed ⟨type, value⟩ key.name⟩
  | setNamed type name value => exact ⟨rfl, h.setNamed ⟨type, value⟩ name⟩
  | modify type key change =>
    have hget : b.get? key = notes.read? type key.name := h.getAs? type key.name
    rw [Blackboard.edit, Notes.edit, hget]
    cases hread : notes.read? type key.name with
    | some a => exact ⟨rfl, h.modify hread change⟩
    | none =>
      rw [h.modify_other hread change]
      exact ⟨rfl, h⟩
  | remove type key =>
    have hget : b.get? key = notes.read? type key.name := h.getAs? type key.name
    rw [Blackboard.edit, Notes.edit, hget]
    cases hread : notes.read? type key.name with
    | some a =>
      have hremove : b.remove key = b.removeName key.name := by
        rw [Blackboard.remove, hget, hread]
      rw [hremove]
      exact ⟨rfl, h.removeName key.name⟩
    | none =>
      rw [h.remove_other hread]
      exact ⟨rfl, h⟩
  | removeName name =>
    refine ⟨?_, h.removeName name⟩
    rw [Notes.edit, Blackboard.edit, h.containsName]
  | clear => exact ⟨rfl, holds_empty⟩

end Holds

/-! ## (5) What can be read off a blackboard -/

/-- **Everything that can be read off a blackboard**, told by the notes on it. -/
structure Shows [DecidableEq U] (b : Blackboard V) (notes : Notes U) : Prop where
  /-- A name reads as a value just if that value was written last, at that type. -/
  getAs? : ∀ (type : U) (name : String) (a : Carrier type),
    b.getAs? (Carrier type) name = some a ↔ notes name = some ⟨type, a⟩
  get? : ∀ (type : U) (key : Key (Carrier type)) (a : Carrier type),
    b.get? key = some a ↔ notes key.name = some ⟨type, a⟩
  getD : ∀ (type : U) (key : Key (Carrier type)) (fallback : Carrier type),
    b.getD key fallback = (notes.read? type key.name).getD fallback
  /-- A flag is set just if a truth value was written last, and that is `true`. -/
  flag : ∀ (type : U) (htype : Carrier type = Bool) (key : Key Bool),
    letI := SlotTypes.slotOf htype
    b.flag key = true ↔ notes key.name = some ⟨type, cast htype.symm true⟩
  /-- At another type there is nothing to change and nothing to remove. -/
  other : ∀ (type : U) (key : Key (Carrier type)), (∀ a, notes key.name ≠ some ⟨type, a⟩) →
    (∀ change, Blackboard.edit (.modify type key change) b = (some (.found none), b)) ∧
      Blackboard.edit (.remove type key) b = (some (.found none), b)
  contains : ∀ (type : U) (key : Key (Carrier type)),
    b.contains key = (notes key.name).isSome
  containsName : ∀ name, b.containsName name = (notes name).isSome
  /-- The names are strictly increasing in the order of their bytes. -/
  names : b.names.Pairwise NameBefore
  mem_names : ∀ name, name ∈ b.names ↔ (notes name).isSome
  size : b.size = {name | (notes name).isSome}.ncard
  isEmpty : b.isEmpty = true ↔ notes = .blank

section Shows

variable {b : Blackboard V} {notes : Notes U}

/-- The names of the slots are those with something noted under them. -/
theorem Holds.mem_names (h : Holds b notes) (name : String) :
    name ∈ b.names ↔ (notes name).isSome := by
  rw [← h.containsName]
  exact b.slots.mem_names_iff name

/-- As many slots as there are names with something noted under them. -/
theorem Holds.size (h : Holds b notes) : b.size = {name | (notes name).isSome}.ncard := by
  have hnames : {name | (notes name).isSome} = (b.names.toFinset : Set String) := by
    ext name
    rw [List.coe_toFinset]
    exact (h.mem_names name).symm
  have hnodup : b.names.Nodup := b.slots.nodup_names
  rw [hnames, Set.ncard_coe_finset, List.toFinset_card_of_nodup hnodup]
  exact (List.length_map _).symm

/-- There is no slot just if nothing is noted. -/
theorem Holds.isEmpty (h : Holds b notes) : b.isEmpty = true ↔ notes = .blank := by
  have hentries : b.isEmpty = true ↔ b.names = [] := by
    rw [Blackboard.isEmpty, NameMap.Raw.isEmpty, List.isEmpty_iff]
    exact List.map_eq_nil_iff.symm
  rw [hentries, List.eq_nil_iff_forall_not_mem]
  constructor
  · intro hnone
    funext name
    exact Option.not_isSome_iff_eq_none.mp ((h.mem_names name).not.mp (hnone name))
  · rintro rfl name hname
    cases (h.mem_names name).mp hname

variable [DecidableEq U]

/-- **Whatever holds what the notes say shows it.** -/
theorem Holds.shows (h : Holds b notes) : Shows b notes where
  getAs? type name a := by rw [h.getAs? type name, Notes.read?_eq_some_iff]
  get? := h.get?_eq_some_iff
  getD type key fallback := by rw [Blackboard.getD, Blackboard.get?, h.getAs? type key.name]
  flag type htype key := by
    let := SlotTypes.slotOf htype
    have hflag : b.flag key = true ↔ b.get? key = some true := by
      rw [Blackboard.flag, Blackboard.getD]
      cases b.get? key <;> simp
    exact hflag.trans (h.get?_eq_some_iff_of_carrier type htype key true)
  other type key hother := by
    have hread : notes.read? type key.name = none := by
      refine Option.eq_none_iff_forall_ne_some.mpr fun a ha => ?_
      exact hother a (Notes.read?_eq_some_iff.mp ha)
    have hget : b.get? key = none := (h.getAs? type key.name).trans hread
    constructor
    · intro change
      rw [Blackboard.edit, hget, h.modify_other hread change]
      rfl
    · rw [Blackboard.edit, hget, h.remove_other hread]
      rfl
  contains type key := h.containsName key.name
  containsName := h.containsName
  names := NameMap.Raw.sorted_iff_names.mp b.slots.sorted
  mem_names := h.mem_names
  size := h.size
  isEmpty := h.isEmpty

/-- **After any edits a blackboard shows what the notes say**, whatever types there are, and every
edit was answered as they say. -/
theorem shows_run (edits : List (Edit U)) :
    let r := runSteps Blackboard.edit edits .empty
    let notes := runSteps Notes.edit edits .blank
    r.1 = notes.1 ∧ Shows r.2 notes.2 := by
  intro r notes
  have hsame : List.Forall₂ Eq edits edits := List.forall₂_eq_eq_eq ▸ rfl
  -- the two runs go along side by side, with what the blackboard holds told by the notes
  have hstep : ∀ e e' (b : Blackboard V) (notes : Notes U), e = e' → Holds b notes →
      (Notes.edit e' notes).1 = (Blackboard.edit e b).1 ∧
        Holds (Blackboard.edit e b).2 (Notes.edit e' notes).2 := by
    rintro e _ b notes rfl hb
    exact hb.edit e
  obtain ⟨hanswers, hholds⟩ := runSteps_together hstep hsame holds_empty
  exact ⟨hanswers.symm, hholds.shows⟩

end Shows

/-- On a running tree a flag is set, and a text takes its place. The flag is gone, and nothing is
removed at its type. -/
theorem shows_run_retyped :
    let key : Key Bool := ⟨"angry"⟩
    let edits : List (Edit SlotType) := [.set .bool key true, .setNamed .text "angry" "very"]
    let b : Blackboard := (runSteps Blackboard.edit edits .empty).2
    b.flag key = false ∧ b.getAs? String "angry" = some "very" ∧ b.remove key = b ∧
      b.names = ["angry"] := by
  intro key edits b
  obtain ⟨-, hshows⟩ := shows_run edits
  have hnote : (runSteps Notes.edit edits .blank).2 "angry" = some ⟨.text, "very"⟩ := rfl
  have hother : ∀ a, (runSteps Notes.edit edits .blank).2 key.name ≠ some ⟨.bool, a⟩ := by
    intro a ha
    cases hnote.symm.trans ha
  have hremove : Blackboard.edit (.remove SlotType.bool key) b = (some (.found none), b) :=
    (hshows.other .bool key hother).2
  refine ⟨?_, (hshows.getAs? .text "angry" "very").mpr hnote, ?_, rfl⟩
  · exact Bool.eq_false_iff.mpr fun hflag => hother _ ((hshows.flag .bool rfl key).mp hflag)
  · exact (Prod.ext_iff.mp hremove).2

/-- There may be infinitely many types: here numbers below a bound, the bound being the type. -/
example :
    let _ := SlotTypes.ofFamily fun n : Nat => Fin n
    let edits : List (Edit Nat) := [.setNamed 4 "die" (3 : Fin 4), .setNamed 6 "die" (5 : Fin 6)]
    let b := (runSteps Blackboard.edit edits .empty).2
    b.getAs? (Carrier 6) "die" = some (5 : Fin 6) ∧ b.getAs? (Carrier 4) "die" = none :=
  ⟨rfl, rfl⟩

end Blackboard

end Instinct
