import Instinct.NameMap
import Mathlib.Data.List.Induction

/-! # Maps by their names

* **`NameMap.Raw.mem_names_iff`**, **`NameMap.nodup_names`** — the names of a map are those that
  have a value, each listed once.
* **`NameMap.ofList_entries`** — a map is put together again from its entries.
* **`NameMap.tally`** — the counts of the names in a list; **`NameMap.count_tally`**,
  **`NameMap.total_tally`** — how often each occurs, and how many there are in all. -/

namespace Instinct

namespace NameMap

variable {α : Type}

namespace Raw

/-! ## The names of a map -/

/-- A name is listed if there is something to find under it. -/
theorem mem_map_fst_iff (name : String) (es : List (String × α)) :
    name ∈ es.map (·.1) ↔ (lookup name es).isSome = true := by
  induction es with
  | nil => simp [lookup]
  | cons e es ih =>
    obtain ⟨k, v⟩ := e
    rw [List.map_cons, List.mem_cons, ih, lookup]
    by_cases hk : k = name
    · rw [if_pos hk]
      exact iff_of_true (.inl hk.symm) rfl
    · rw [if_neg hk]
      exact or_iff_right (Ne.symm hk)

/-- The names are those that have a value. -/
theorem mem_names_iff (m : Raw α) (name : String) : name ∈ m.names ↔ (m.get? name).isSome :=
  mem_map_fst_iff name m.entries

/-! ## Maps put together again -/

/-- A name behind all others is put at the end. -/
theorem insertEntry_last {name : String} {value : α} {es : List (String × α)}
    (h : ∀ e ∈ es, NameBefore e.1 name) : insertEntry name value es = es ++ [(name, value)] := by
  induction es with
  | nil => rfl
  | cons e es ih =>
    obtain ⟨k, v⟩ := e
    obtain ⟨hk, hes⟩ := List.forall_mem_cons.mp h
    rw [insertEntry, if_neg hk.ne, if_neg hk.asymm, ih hes]
    rfl

/-- A name that comes before all others has no value. -/
theorem lookup_eq_none_of_before {name : String} {es : List (String × α)}
    (h : ∀ e ∈ es, NameBefore name e.1) : lookup name es = none := by
  cases hlookup : lookup name es with
  | none => rfl
  | some v => exact absurd (h _ (mem_of_lookup hlookup)) (NameBefore.irrefl name)

/-! ## Sums -/

/-- How often anything was counted. -/
def total (m : Raw Nat) : Nat := m.values.foldl (· + ·) 0

/-- The first count and the sum of the others. -/
theorem total_cons (e : String × Nat) (es : List (String × Nat)) :
    (mk (e :: es)).total = e.2 + (mk es).total := by
  have hassoc : (es.map (·.2)).foldl (· + ·) (e.2 + 0) = e.2 + (es.map (·.2)).foldl (· + ·) 0 :=
    List.foldl_assoc
  rw [total, values, List.map_cons, List.foldl_cons, Nat.zero_add]
  exact hassoc

end Raw

/-- Each name of a map is listed once. -/
theorem nodup_names (m : NameMap α) : m.names.Nodup :=
  (Raw.sorted_iff_names.mp m.sorted).imp NameBefore.ne

/-- Entries that are put in one after the other, each behind all before it, stay as they are. -/
theorem foldl_insert {done es : List (String × α)} {m : NameMap α} (hm : m.entries = done)
    (h : (Raw.mk (done ++ es)).Sorted) :
    (es.foldl (fun m e => m.insert e.1 e.2) m).entries = done ++ es := by
  induction es generalizing done m with
  | nil => rw [List.foldl_nil, List.append_nil, hm]
  | cons e es ih =>
    have hlast : ∀ d ∈ done, NameBefore d.1 e.1 := fun d hd =>
      (List.pairwise_append.mp h).2.2 d hd e List.mem_cons_self
    have hinsert : (m.insert e.1 e.2).entries = done ++ [e] := by
      show Raw.insertEntry e.1 e.2 m.entries = done ++ [e]
      rw [hm, Raw.insertEntry_last hlast]
    rw [List.append_cons] at h ⊢
    exact ih hinsert h

/-- **A map is put together again from its entries.** -/
theorem ofList_entries (m : NameMap α) : ofList m.entries = m :=
  toRaw_inj.mp (congrArg Raw.mk (foldl_insert rfl m.sorted))

/-! ## Counts -/

/-- How often a name was counted. -/
def count (m : NameMap Nat) (name : String) : Nat := (m.get? name).getD 0

/-- The counts of the names in a list. -/
def tally (names : List String) : NameMap Nat := names.foldl increment empty

/-- Counting a name once more adds one to its count and leaves the others as they are. -/
theorem count_increment (m : NameMap Nat) (name other : String) :
    (m.increment name).count other = m.count other + if name = other then 1 else 0 := by
  unfold count increment
  rw [get?_insert]
  by_cases h : name = other
  · rw [if_pos h, if_pos h, h]
    rfl
  · rw [if_neg h, if_neg h]
    rfl

/-- **Counting a name once more** adds one to the sum. -/
theorem total_increment (m : NameMap Nat) (name : String) :
    (m.increment name).total = m.total + 1 := by
  obtain ⟨⟨es⟩, h⟩ := m
  show (Raw.mk (Raw.insertEntry name ((Raw.lookup name es).getD 0 + 1) es)).total =
    (Raw.mk es).total + 1
  induction es with
  | nil => rfl
  | cons e es ih =>
    obtain ⟨k, v⟩ := e
    obtain ⟨hbefore, hes⟩ := List.pairwise_cons.mp h
    by_cases hk : k = name
    · rw [Raw.lookup, if_pos hk, Raw.insertEntry, if_pos hk, Raw.total_cons, Raw.total_cons,
        Option.getD_some]
      omega
    · by_cases hname : NameBefore name k
      · -- the name comes before all others, so it was not counted yet
        have hnone : Raw.lookup name ((k, v) :: es) = none := by
          refine Raw.lookup_eq_none_of_before (List.forall_mem_cons.mpr ⟨hname, fun e he => ?_⟩)
          exact hname.trans (hbefore e he)
        rw [hnone, Raw.insertEntry, if_neg hk, if_pos hname, Raw.total_cons, Option.getD_none]
        omega
      · rw [Raw.lookup, if_neg hk, Raw.insertEntry, if_neg hk, if_neg hname, Raw.total_cons,
          Raw.total_cons, ih hes]
        omega

/-- One more name is counted once more. -/
theorem tally_concat (names : List String) (name : String) :
    tally (names ++ [name]) = (tally names).increment name := by
  rw [tally, List.foldl_append]
  rfl

/-- **What is counted of a list** is how often each name occurs. -/
theorem count_tally (names : List String) (name : String) :
    (tally names).count name = names.count name := by
  induction names using List.reverseRecOn with
  | nil => rfl
  | append_singleton names last ih =>
    rw [tally_concat, count_increment, ih, List.count_append, List.count_singleton]
    simp only [beq_iff_eq]

/-- **All counts of a list** add up to its length. -/
theorem total_tally (names : List String) : (tally names).total = names.length := by
  induction names using List.reverseRecOn with
  | nil => rfl
  | append_singleton names last ih =>
    rw [tally_concat, total_increment, ih, List.length_append]
    rfl

end NameMap

end Instinct
