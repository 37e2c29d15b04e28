/-! # Maps from names, kept in the order of the names

* **`NameMap.Raw α`** — values listed with their names, and what is done to such a list in one pass
  over it.
* **`NameMap.Raw.get?`** — the value under a name: the view through which every operation is read.
  The laws that tie the operations to it need no hypothesis on the order.
* **`NameMap.Raw.Sorted`** — names strictly increase by their UTF-8 bytes; every operation keeps it.
* **`NameMap α`** — the lists that are in this order. -/

namespace Instinct

/-! ## The order of names -/

/-- The bytes of a name in UTF-8, by which names are ordered. -/
def nameBytes (name : String) : List UInt8 := name.toByteArray.data.toList

/-- One name comes before another in the order of their UTF-8 bytes. -/
def NameBefore (a b : String) : Prop := nameBytes a < nameBytes b

instance (a b : String) : Decidable (NameBefore a b) :=
  inferInstanceAs (Decidable (nameBytes a < nameBytes b))

/-- How two names compare by their UTF-8 bytes. -/
def compareNames (a b : String) : Ordering :=
  if a = b then .eq else if NameBefore a b then .lt else .gt

/-- A name is told by its bytes. -/
theorem nameBytes_inj {a b : String} : nameBytes a = nameBytes b ↔ a = b := by
  rw [nameBytes, nameBytes, Array.toList_inj, ← ByteArray.ext_iff, String.toByteArray_inj]

/-- No name comes before itself. -/
theorem NameBefore.irrefl (a : String) : ¬ NameBefore a a := List.lt_irrefl _

/-- Of two names one at most comes before the other. -/
theorem NameBefore.asymm {a b : String} (h : NameBefore a b) : ¬ NameBefore b a := List.lt_asymm h

/-- A name that comes before another is not that one. -/
theorem NameBefore.ne {a b : String} (h : NameBefore a b) : a ≠ b := by
  rintro rfl
  exact NameBefore.irrefl a h

/-- What comes before a name comes before all that the name comes before. -/
theorem NameBefore.trans {a b c : String} (h₁ : NameBefore a b) (h₂ : NameBefore b c) :
    NameBefore a c := List.lt_trans h₁ h₂

/-- Of two different names one comes before the other. -/
theorem NameBefore.of_not {a b : String} (hne : a ≠ b) (h : ¬ NameBefore a b) : NameBefore b a :=
  Decidable.byContradiction fun h' => hne (nameBytes_inj.mp (List.le_antisymm h' h))

/-! ## Values listed with their names -/

/-- **Values listed with their names.** Inductive types can be nested in it, which is why nothing
is said here about the order; where nothing stands in the way, use `NameMap`. -/
structure NameMap.Raw (α : Type) where
  /-- The names with their values. -/
  entries : List (String × α)

namespace NameMap

namespace Raw

variable {α β : Type}

/-- The list without entries. -/
def empty : Raw α := ⟨[]⟩

instance : Inhabited (Raw α) := ⟨empty⟩

/-- The names in order. -/
def names (m : Raw α) : List String := m.entries.map (·.1)

/-- The values in the order of their names. -/
def values (m : Raw α) : List α := m.entries.map (·.2)

/-- The number of entries. -/
def size (m : Raw α) : Nat := m.entries.length

/-- Whether there is no entry. -/
def isEmpty (m : Raw α) : Bool := m.entries.isEmpty

/-- The first value listed under a name. -/
def lookup (name : String) : List (String × α) → Option α
  | [] => none
  | (k, v) :: rest => if k = name then some v else lookup name rest

/-- The entries with one more, put where its name belongs; an entry of that name is replaced. -/
def insertEntry (name : String) (value : α) : List (String × α) → List (String × α)
  | [] => [(name, value)]
  | (k, v) :: rest =>
    if k = name then (name, value) :: rest
    else if NameBefore name k then (name, value) :: (k, v) :: rest
    else (k, v) :: insertEntry name value rest

/-- The entries with the first value of a name changed. -/
def modifyEntry (name : String) (f : α → α) : List (String × α) → List (String × α)
  | [] => []
  | (k, v) :: rest => if k = name then (k, f v) :: rest else (k, v) :: modifyEntry name f rest

/-- The value under a name. -/
def get? (m : Raw α) (name : String) : Option α := lookup name m.entries

/-- Whether a name has a value. -/
def contains (m : Raw α) (name : String) : Bool := (m.get? name).isSome

/-- Put a value under a name, in place of one that is there. -/
def insert (m : Raw α) (name : String) (value : α) : Raw α :=
  ⟨insertEntry name value m.entries⟩

/-- Remove a name and its value. -/
def erase (m : Raw α) (name : String) : Raw α :=
  ⟨m.entries.filter fun e => e.1 ≠ name⟩

/-- Change the value under a name, if there is one. -/
def modify (m : Raw α) (name : String) (f : α → α) : Raw α :=
  ⟨modifyEntry name f m.entries⟩

/-- The same names with other values. -/
def map (f : α → β) (m : Raw α) : Raw β := ⟨m.entries.map fun e => (e.1, f e.2)⟩

/-- **The order of a list**: names strictly increase by their bytes. -/
def Sorted (m : Raw α) : Prop := m.entries.Pairwise fun a b => NameBefore a.1 b.1

/-! ### What the operations do to the view -/

/-- Nothing is found without entries. -/
@[simp] theorem get?_empty (name : String) : (empty : Raw α).get? name = none := rfl

/-- A value that is found is listed. -/
theorem mem_of_lookup {name : String} {value : α} {es : List (String × α)}
    (h : lookup name es = some value) : (name, value) ∈ es := by
  induction es with
  | nil => cases h
  | cons e es ih =>
    obtain ⟨k, v⟩ := e
    rw [lookup] at h
    split at h
    · next hk =>
      obtain rfl := Option.some.inj h
      exact hk ▸ List.mem_cons_self
    · exact List.mem_cons_of_mem _ (ih h)

/-- What is found after a value was put in: that value under its name, and under every other name
what was found before. -/
theorem lookup_insertEntry (name other : String) (value : α) (es : List (String × α)) :
    lookup other (insertEntry name value es) =
      if name = other then some value else lookup other es := by
  induction es with
  | nil => simp [insertEntry, lookup]
  | cons e es ih =>
    obtain ⟨k, v⟩ := e
    unfold insertEntry
    split
    · -- the entry of that name is replaced
      next h => subst h; by_cases hk : k = other <;> simp [lookup, hk]
    · split
      · -- the new entry goes in front
        by_cases hk : name = other <;> simp [lookup, hk]
      · -- the entry has another name and comes earlier, so the value is put in behind it
        next h _ =>
        by_cases hk : k = other
        · subst hk; simp [lookup, Ne.symm h]
        · simp [lookup, hk, ih]

/-- After `insert` the name has the new value and every other name what it had. -/
theorem get?_insert (m : Raw α) (name other : String) (value : α) :
    (m.insert name value).get? other = if name = other then some value else m.get? other :=
  lookup_insertEntry name other value m.entries

/-- What is found after a name was taken out: nothing under it, and under every other name what was
found before. -/
theorem lookup_filter_ne (name other : String) (es : List (String × α)) :
    lookup other (es.filter fun e => e.1 ≠ name) =
      if name = other then none else lookup other es := by
  induction es with
  | nil => simp [lookup]
  | cons e es ih =>
    obtain ⟨k, v⟩ := e
    by_cases hk : k = name
    · -- an entry of the name that is taken out: all later ones are left to the induction
      subst hk
      by_cases ho : k = other
      · simp_all
      · simp_all [lookup]
    · by_cases ho : k = other
      · subst ho; simp [lookup, hk, Ne.symm hk]
      · simp_all [lookup]

/-- After `erase` the name has no value and every other name what it had. -/
theorem get?_erase (m : Raw α) (name other : String) :
    (m.erase name).get? other = if name = other then none else m.get? other :=
  lookup_filter_ne name other m.entries

/-- What is found after the value of a name was changed: the changed value under that name, and
under every other name what was found before. -/
theorem lookup_modifyEntry (name other : String) (f : α → α) (es : List (String × α)) :
    lookup other (modifyEntry name f es) =
      if name = other then (lookup other es).map f else lookup other es := by
  induction es with
  | nil => simp [modifyEntry, lookup]
  | cons e es ih =>
    obtain ⟨k, v⟩ := e
    unfold modifyEntry
    split
    · -- the first entry of the name, which is the one that is found as well
      next h => subst h; by_cases hk : k = other <;> simp [lookup, hk]
    · next h =>
      by_cases hk : k = other
      · subst hk; simp [lookup, Ne.symm h]
      · simp [lookup, hk, ih]

/-- After `modify` the value of the name is changed and every other name has what it had. -/
theorem get?_modify (m : Raw α) (name other : String) (f : α → α) :
    (m.modify name f).get? other =
      if name = other then (m.get? other).map f else m.get? other :=
  lookup_modifyEntry name other f m.entries

/-- A change of a value leaves the names alone. -/
theorem map_fst_modifyEntry (name : String) (f : α → α) (es : List (String × α)) :
    (modifyEntry name f es).map (·.1) = es.map (·.1) := by
  induction es with
  | nil => rfl
  | cons e es ih =>
    obtain ⟨k, v⟩ := e
    rw [modifyEntry]
    split
    · rfl
    · rw [List.map_cons, List.map_cons, ih]

/-- After `modify` there are the names that there were. -/
theorem names_modify (m : Raw α) (name : String) (f : α → α) :
    (m.modify name f).names = m.names := map_fst_modifyEntry name f m.entries

/-- Two changes of the value of one name are one change. -/
theorem modifyEntry_modifyEntry (name : String) (f g : α → α) (es : List (String × α)) :
    modifyEntry name g (modifyEntry name f es) = modifyEntry name (fun v => g (f v)) es := by
  induction es with
  | nil => rfl
  | cons e es ih =>
    obtain ⟨k, v⟩ := e
    by_cases hk : k = name
    · simp only [modifyEntry, if_pos hk]
    · simp only [modifyEntry, if_neg hk, ih]

/-- Two changes of the value of one name are one change. -/
theorem modify_modify (m : Raw α) (name : String) (f g : α → α) :
    (m.modify name f).modify name g = m.modify name fun v => g (f v) :=
  congrArg mk (modifyEntry_modifyEntry name f g m.entries)

/-- Changes that do the same to the value that is found do the same. -/
theorem modifyEntry_congr {name : String} {f g : α → α} {es : List (String × α)}
    (h : ∀ v ∈ lookup name es, f v = g v) : modifyEntry name f es = modifyEntry name g es := by
  induction es with
  | nil => rfl
  | cons e es ih =>
    obtain ⟨k, v⟩ := e
    by_cases hk : k = name
    · rw [lookup, if_pos hk] at h
      rw [modifyEntry, modifyEntry, if_pos hk, if_pos hk, h v rfl]
    · rw [lookup, if_neg hk] at h
      rw [modifyEntry, modifyEntry, if_neg hk, if_neg hk, ih h]

/-- Only what a change does to the value of the name is of account. -/
theorem modify_congr {m : Raw α} {name : String} {f g : α → α}
    (h : ∀ v ∈ m.get? name, f v = g v) : m.modify name f = m.modify name g :=
  congrArg mk (modifyEntry_congr h)

/-- The change that leaves every value as it is changes nothing. -/
theorem modifyEntry_id (name : String) (es : List (String × α)) :
    modifyEntry name id es = es := by
  induction es with
  | nil => rfl
  | cons e es ih =>
    obtain ⟨k, v⟩ := e
    rw [modifyEntry, ih]
    split <;> rfl

/-- A change that leaves the value of the name as it is changes nothing. -/
theorem modify_eq_self {m : Raw α} {name : String} {f : α → α}
    (h : ∀ v ∈ m.get? name, f v = v) : m.modify name f = m :=
  (modify_congr (g := id) h).trans (congrArg mk (modifyEntry_id name m.entries))

/-- What holds of all values still does after a change to one that keeps it. -/
theorem forall_mem_modify {m : Raw α} {name : String} {f : α → α} {P : α → Prop}
    (h : ∀ e ∈ m.entries, P e.2) (hf : ∀ v, P v → P (f v)) :
    ∀ e ∈ (m.modify name f).entries, P e.2 := by
  obtain ⟨es⟩ := m
  unfold modify
  dsimp only at h ⊢
  induction es with
  | nil => exact h
  | cons e es ih =>
    obtain ⟨he, hes⟩ := List.forall_mem_cons.mp h
    rw [modifyEntry]
    split
    · exact List.forall_mem_cons.mpr ⟨hf e.2 he, hes⟩
    · exact List.forall_mem_cons.mpr ⟨he, ih hes⟩

/-! ### What keeps the order -/

/-- A list is in order if its names are. -/
theorem sorted_iff_names {m : Raw α} : m.Sorted ↔ m.names.Pairwise NameBefore :=
  List.pairwise_map.symm

/-- What is listed after a value was put in is that value, or was listed before. -/
theorem mem_insertEntry {name : String} {value : α} {es : List (String × α)} :
    ∀ e ∈ insertEntry name value es, e = (name, value) ∨ e ∈ es := by
  induction es with
  | nil => exact fun e he => .inl (List.mem_singleton.mp he)
  | cons e es ih =>
    obtain ⟨k, v⟩ := e
    intro e he
    rw [insertEntry] at he
    split at he
    · exact (List.mem_cons.mp he).imp_right (List.mem_cons_of_mem _)
    · split at he
      · exact List.mem_cons.mp he
      · obtain rfl | he := List.mem_cons.mp he
        · exact .inr List.mem_cons_self
        · exact (ih e he).imp_right (List.mem_cons_of_mem _)

/-- A list in order stays so when a value is put into it. -/
theorem Sorted.insert {m : Raw α} (h : m.Sorted) (name : String) (value : α) :
    (m.insert name value).Sorted := by
  obtain ⟨es⟩ := m
  unfold Sorted Raw.insert at *
  dsimp only at h ⊢
  induction es with
  | nil => exact List.pairwise_singleton ..
  | cons e es ih =>
    obtain ⟨k, v⟩ := e
    obtain ⟨hbefore, hes⟩ := List.pairwise_cons.mp h
    rw [insertEntry]
    split
    · -- the entry of that name is replaced, and its name stays where it was
      next hk => exact List.pairwise_cons.mpr ⟨hk ▸ hbefore, hes⟩
    · next hk =>
      split
      · -- the name belongs before the first one, and with it before all others
        next hname =>
        refine List.pairwise_cons.mpr ⟨List.forall_mem_cons.mpr ⟨hname, fun e he => ?_⟩, h⟩
        exact hname.trans (hbefore e he)
      · next hname =>
        refine List.pairwise_cons.mpr ⟨fun e he => ?_, ih hes⟩
        obtain rfl | he := mem_insertEntry e he
        · exact NameBefore.of_not (Ne.symm hk) hname
        · exact hbefore e he

/-- A list in order stays so when a value is taken out of it. -/
theorem Sorted.erase {m : Raw α} (h : m.Sorted) (name : String) : (m.erase name).Sorted :=
  List.Pairwise.filter _ h

/-- A list in order stays so when a value of it is changed. -/
theorem Sorted.modify {m : Raw α} (h : m.Sorted) (name : String) (f : α → α) :
    (m.modify name f).Sorted := by
  rw [sorted_iff_names, names_modify]
  exact sorted_iff_names.mp h

end Raw

end NameMap

/-! ## Maps -/

/-- **A map from names**: values listed in the order of their names, each name once. -/
structure NameMap (α : Type) extends NameMap.Raw α where
  /-- Names strictly increase by their bytes. -/
  sorted : toRaw.Sorted

namespace NameMap

variable {α : Type}

/-- The map without entries. -/
def empty : NameMap α := ⟨.empty, .nil⟩

instance : Inhabited (NameMap α) := ⟨empty⟩

/-- Put a value under a name, in place of one that is there. -/
def insert (m : NameMap α) (name : String) (value : α) : NameMap α :=
  ⟨m.toRaw.insert name value, m.sorted.insert name value⟩

/-- Remove a name and its value. -/
def erase (m : NameMap α) (name : String) : NameMap α :=
  ⟨m.toRaw.erase name, m.sorted.erase name⟩

/-- Change the value under a name, if there is one. -/
def modify (m : NameMap α) (name : String) (f : α → α) : NameMap α :=
  ⟨m.toRaw.modify name f, m.sorted.modify name f⟩

/-- The map that a list of entries stands for: of several values under one name the last wins. -/
def ofList (entries : List (String × α)) : NameMap α :=
  entries.foldl (fun m e => m.insert e.1 e.2) empty

/-- Add one to the count under a name. -/
def increment (m : NameMap Nat) (name : String) : NameMap Nat :=
  m.insert name ((m.get? name).getD 0 + 1)

/-- Maps with the same entries are the same: there is one order only. -/
theorem toRaw_inj {m m' : NameMap α} : m.toRaw = m'.toRaw ↔ m = m' := by
  refine ⟨fun h => ?_, congrArg toRaw⟩
  cases m
  cases m'
  exact (mk.injEq ..).mpr h

/-- After `insert` the name has the new value and every other name what it had. -/
theorem get?_insert (m : NameMap α) (name other : String) (value : α) :
    (m.insert name value).get? other = if name = other then some value else m.get? other :=
  m.toRaw.get?_insert name other value

/-- After `erase` the name has no value and every other name what it had. -/
theorem get?_erase (m : NameMap α) (name other : String) :
    (m.erase name).get? other = if name = other then none else m.get? other :=
  m.toRaw.get?_erase name other

/-- After `modify` the value of the name is changed and every other name has what it had. -/
theorem get?_modify (m : NameMap α) (name other : String) (f : α → α) :
    (m.modify name f).get? other =
      if name = other then (m.get? other).map f else m.get? other :=
  m.toRaw.get?_modify name other f

end NameMap

end Instinct
