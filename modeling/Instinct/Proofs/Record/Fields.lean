import Instinct.Record.Writing
import Instinct.Record.Source
import Instinct.Proofs.Json.RoundTrip

/-! # Fields of records read back

A record is written as an object with its fields in order, some of which may be left out. The reader
looks every field up by its name, which finds the field again because no two have the same name.

* **`Source.under_present`** — under the name of a field there is the field, if it was written.
* **`Shape.record_objectOf`**, **`Shape.record_object`** — the fields of a record are read back.
* **`Shape.exact_objectOf`**, **`Shape.exact_object`** — a record of exact fields is exact. -/

namespace Instinct

/-! ## Names and what is under them -/

namespace Source

variable {D : Type}

/-- The fields that have a document. -/
def present (fields : List (String × Option D)) : List (String × D) :=
  fields.filterMap fun f => f.2.map fun d => (f.1, d)

/-- A field that is missing is left out. -/
theorem present_missing (name : String) (fields : List (String × Option D)) :
    present ((name, none) :: fields) = present fields := rfl

/-- A field that is there is written down. -/
theorem present_written (name : String) (d : D) (fields : List (String × Option D)) :
    present ((name, some d) :: fields) = (name, d) :: present fields := rfl

/-- What is written down is a field that is there. -/
theorem mem_of_mem_present {fields : List (String × Option D)} {e : String × D}
    (h : e ∈ present fields) : (e.1, some e.2) ∈ fields := by
  obtain ⟨f, hf, hmap⟩ := List.mem_filterMap.mp h
  obtain ⟨d, hd, rfl⟩ := Option.map_eq_some_iff.mp hmap
  exact hd ▸ hf

/-- What stands in front is found under its name. -/
theorem under_cons_self (name : String) (d : D) (es : List (String × D)) :
    under ((name, d) :: es) name = d :: under es name := by
  rw [under, List.filter_cons_of_pos (by simp)]
  rfl

/-- What bears another name is passed over. -/
theorem under_cons_of_ne {k name : String} (h : k ≠ name) (d : D) (es : List (String × D)) :
    under ((k, d) :: es) name = under es name := by
  rw [under, List.filter_cons_of_neg (by simpa using h)]
  rfl

/-- There is nothing under a name that nothing bears. -/
theorem under_eq_nil {es : List (String × D)} {name : String} (h : ∀ e ∈ es, e.1 ≠ name) :
    under es name = [] := by
  rw [under, List.filter_eq_nil_iff.mpr fun e he => by simpa using h e he]
  rfl

/-- **Under the name of a field there is the field, if it was written.** -/
theorem under_present {fields : List (String × Option D)} (hnodup : (fields.map (·.1)).Nodup)
    {name : String} {value : Option D} (h : (name, value) ∈ fields) :
    under (present fields) name = value.toList := by
  induction fields with
  | nil => cases h
  | cons f fields ih =>
    obtain ⟨k, v⟩ := f
    obtain ⟨hk, hrest⟩ := List.nodup_cons.mp hnodup
    obtain heq | hmem := List.mem_cons.mp h
    · -- the field is the first one: no other one bears its name
      cases heq
      have hnone : under (present fields) name = [] := under_eq_nil fun e he hname =>
        hk (List.mem_map.mpr ⟨_, mem_of_mem_present he, hname⟩)
      cases value with
      | none => rw [present_missing, hnone]; rfl
      | some d => rw [present_written, under_cons_self, hnone]; rfl
    · -- the field comes later: the first one bears another name
      have hne : k ≠ name := by
        rintro rfl
        exact hk (List.mem_map.mpr ⟨_, hmem, rfl⟩)
      cases v with
      | none => rw [present_missing, ih hrest hmem]
      | some d => rw [present_written, under_cons_of_ne hne, ih hrest hmem]

/-- What is looked up name by name is found if it is there for each name. -/
theorem mapM_names {β : Type} {find : String → Option β} {names : List String} {values : List β}
    (hlength : values.length = names.length)
    (h : ∀ f ∈ names.zip values, find f.1 = some f.2) : names.mapM find = some values :=
  calc names.mapM find
      = ((names.zip values).map (·.1)).mapM find := by
        rw [List.map_fst_zip (Nat.le_of_eq hlength.symm)]
    _ = some ((names.zip values).map (·.2)) := by
        rw [List.mapM_map]
        exact mapM_eq_some_map h
    _ = some values := by rw [List.map_snd_zip (Nat.le_of_eq hlength)]

/-- The fields of a record are found by their names. -/
theorem namedFields_present {shape : Shape} (hnodup : shape.fields.Nodup)
    {values : List (Option D)} (hlength : values.length = shape.fields.length) :
    namedFields shape (present (shape.fields.zip values)) = some values := by
  have hnames : (shape.fields.zip values).map (·.1) = shape.fields :=
    List.map_fst_zip (Nat.le_of_eq hlength.symm)
  -- whatever was written belongs to the record, so that nothing is refused as unknown
  have hknown : ((present (shape.fields.zip values)).any fun e => !shape.fields.contains e.1) =
      false := by
    rw [List.any_eq_false]
    intro e he
    have hmem := (List.of_mem_zip (mem_of_mem_present he)).1
    simpa using hmem
  rw [namedFields, hknown, Bool.and_false]
  refine mapM_names hlength fun f hf => ?_
  rw [under_present (hnames.symm ▸ hnodup) hf]
  cases f.2 <;> rfl

end Source

/-! ## Records -/

namespace Shape

variable {shape : Shape}

/-- A record is written as the fields it has. -/
theorem objectOf_eq (values : List (Option Json)) :
    shape.objectOf values = .object (Source.present (shape.fields.zip values)) := rfl

/-- A record without missing fields. -/
theorem object_eq_objectOf (values : List Json) :
    shape.object values = shape.objectOf (values.map some) := by
  rw [objectOf_eq, object, Source.present, List.zip_map_right, List.filterMap_map]
  exact congrArg _ List.filterMap_some.symm

/-- **The fields of a record are read back**, those that were left out as missing. -/
theorem record_objectOf (hnodup : shape.fields.Nodup) {values : List (Option Json)}
    (hlength : values.length = shape.fields.length) :
    Json.source.record shape (shape.objectOf values) = some values :=
  Source.namedFields_present hnodup hlength

/-- **The fields of a record are read back.** -/
theorem record_object (hnodup : shape.fields.Nodup) {values : List Json}
    (hlength : values.length = shape.fields.length) :
    Json.source.record shape (shape.object values) = some (values.map some) := by
  rw [object_eq_objectOf]
  exact record_objectOf hnodup ((List.length_map ..).trans hlength)

/-- A record is exact if its fields are. -/
theorem exact_objectOf {values : List (Option Json)}
    (h : ∀ v ∈ values, ∀ d ∈ v, Json.Exact d) : (shape.objectOf values).Exact :=
  .object fun _ he => h _ (List.of_mem_zip (Source.mem_of_mem_present he)).2 _ rfl

/-- A record is exact if its fields are. -/
theorem exact_object {values : List Json} (h : ∀ v ∈ values, Json.Exact v) :
    (shape.object values).Exact :=
  .object fun _ he => h _ (List.of_mem_zip he).2

end Shape

end Instinct
