import Instinct.Record.Text
import Instinct.Proofs.Record.Fields
import Instinct.Proofs.SortedMaps

/-! # Records read back from the text they are written as

* **`Json.Kept`** — what is written down exactly and read as it was.
* **`Json.Kept.list`**, **`Json.Kept.nameMap`** — lists and maps of such values are kept too.
* **`Duration.kept`**, **`Frame.kept`**, … — every record without numbers of a fixed precision is.
* **`Json.read?_compact`** — each of them is the value that its compact JSON text stands for. -/

namespace Instinct

namespace Json

/-- **A value is kept** by a way of writing and a way of reading: the document is exact, so that its
text spells it, and the document is read as the value. -/
structure Kept {α : Type} (read : Json → Option α) (write : α → Json) (a : α) : Prop where
  exact : (write a).Exact
  read_write : read (write a) = some a

variable {α : Type} {read : Json → Option α} {write : α → Json}

/-- What is kept comes back from its text. -/
theorem Kept.parse?_compact {a : α} (h : Kept read write a) :
    (parse? (write a).compact).bind read = some a := by
  rw [Json.parse?_compact h.exact]
  exact h.read_write

/-! ## Numbers -/

/-- A natural number below the size of a word fits. -/
theorem fits_natCast {n : Nat} (h : n < UInt64.size) : Fits n :=
  ⟨by omega, Int.ofNat_le.mpr (Nat.le_of_lt_succ h)⟩

/-- A word of 64 bits is written exactly. -/
@[simp] theorem exact_word (n : UInt64) : (word n).Exact := .int (fits_natCast n.toNat_lt)

/-- So is one of 32 bits. -/
@[simp] theorem exact_word32 (n : UInt32) : (int n.toNat).Exact :=
  .int (fits_natCast (Nat.lt_trans n.toNat_lt (by decide)))

/-- So is a signed integer of 32 bits. -/
@[simp] theorem exact_int32 (n : Int32) : (int n.toInt).Exact := by
  have hlow := n.le_toInt
  have hhigh := n.toInt_lt
  exact .int ⟨by omega, by rw [largestSignificand]; omega⟩

/-- A natural number is read as such. -/
theorem natural?_natCast (n : Nat) : source.natural? (int n) = some n := by
  simp only [source, Int.natCast_nonneg, ↓reduceIte, Int.toNat_natCast]

/-- A natural number is read as a word of 64 bits if it is one. -/
theorem word64_natCast {n : Nat} (h : n < UInt64.size) :
    source.word64 (int n) = some (UInt64.ofNat n) := by
  rw [Source.word64, natural?_natCast]
  exact if_pos h

/-- And as one of 32 bits. -/
theorem word32_natCast {n : Nat} (h : n < UInt32.size) :
    source.word32 (int n) = some (UInt32.ofNat n) := by
  rw [Source.word32, natural?_natCast]
  exact if_pos h

/-- A word of 64 bits is read as it was written. -/
theorem word64_word (n : UInt64) : source.word64 (word n) = some n :=
  (word64_natCast n.toNat_lt).trans (congrArg some UInt64.ofNat_toNat)

/-- So is one of 32 bits. -/
theorem word32_toNat (n : UInt32) : source.word32 (int n.toNat) = some n :=
  (word32_natCast n.toNat_lt).trans (congrArg some UInt32.ofNat_toNat)

/-- So is a signed integer of 32 bits. -/
theorem int32_toInt (n : Int32) : source.int32 (int n.toInt) = some n :=
  (if_pos ⟨n.minValue_le_toInt, n.toInt_le⟩).trans (congrArg some n.ofInt_toInt)

/-! ## Lists, maps and values that may be missing -/

/-- A list of values that are kept is kept. -/
theorem Kept.list {as : List α} (h : ∀ a ∈ as, Kept read write a) :
    Kept (source.list read) (fun as => .array (as.map write)) as where
  exact := .array (List.forall_mem_map.mpr fun a ha => (h a ha).exact)
  read_write := mapM_map_eq_some fun a ha => (h a ha).read_write

/-- A map of values that are kept is kept. -/
theorem Kept.nameMap {m : NameMap α} (h : ∀ e ∈ m.entries, Kept read write e.2) :
    Kept (source.nameMap read) (NameMap.json write) m where
  exact := .object (List.forall_mem_map.mpr fun e he => (h e he).exact)
  read_write := by
    -- the entries are read one by one, each under its own name
    have hread : (m.entries.map fun e => (e.1, write e.2)).mapM
        (fun e => (read e.2).map fun v => (e.1, v)) = some m.entries := by
      refine mapM_map_eq_some fun e he => ?_
      rw [(h e he).read_write]
      rfl
    -- and they are in order already, so they make up the same map
    calc source.nameMap read (NameMap.json write m)
        = some (NameMap.ofList m.entries) := congrArg (Option.map NameMap.ofList) hread
      _ = some m := congrArg some m.ofList_entries

/-- What is written and is not nothing is there. -/
theorem present?_of_ne_null {v : Json} (h : v ≠ null) : source.present? v = some (some v) := by
  cases v with
  | null => exact absurd rfl h
  | _ => rfl

/-- A field that is left out if there is no value. -/
theorem defaulted_optional (h : ∀ a, read (write a) = some a) (hnull : ∀ a, write a ≠ null)
    (o : Option α) : Source.defaulted none (source.optional read) (o.map write) = some o := by
  cases o with
  | none => rfl
  | some a =>
    rw [Option.map_some, Source.defaulted, Source.optional, present?_of_ne_null (hnull a)]
    exact congrArg (Option.map some) (h a)

/-! ## Texts and truth values -/

/-- A text is written exactly. -/
@[simp] theorem exact_text (s : String) : (text s).Exact := .text s

/-- So is a truth value. -/
@[simp] theorem exact_bool (b : Bool) : (bool b).Exact := .bool b

/-- So is a text or nothing. -/
@[simp] theorem exact_textOrNull (o : Option String) : (textOrNull o).Exact := by
  cases o with
  | none => exact .null
  | some s => exact .text s

/-- A text that is written as null if there is none. -/
theorem defaulted_textOrNull (o : Option String) :
    Source.defaulted none (source.optional source.text?) (some (textOrNull o)) = some o := by
  cases o <;> rfl

end Json

open Json (Kept)

/-! ## Records without parts of their own -/

/-- The seconds of a duration fit a word of 64 bits. -/
theorem Duration.seconds_lt (d : Duration) : d.seconds < UInt64.size := by
  have hlongest := d.nanos_le
  rw [longestNanos] at hlongest
  rw [seconds, nanosPerSecond, UInt64.size]
  omega

/-- What is below a second fits one of 32 bits. -/
theorem Duration.subsecond_lt (d : Duration) : d.subsecond < UInt32.size :=
  Nat.lt_trans (Nat.mod_lt _ (by decide)) (by decide : nanosPerSecond < UInt32.size)

/-- A span is put together again from its seconds and the nanoseconds beyond them. -/
theorem Duration.ofParts?_seconds_subsecond (d : Duration) :
    ofParts? (.ofNat d.seconds) (.ofNat d.subsecond) = some d := by
  have htotal : d.seconds * nanosPerSecond + d.subsecond = d.nanos := Nat.div_add_mod' ..
  simp only [ofParts?, UInt64.toNat_ofNat_of_lt' d.seconds_lt,
    UInt32.toNat_ofNat_of_lt' d.subsecond_lt, htotal, d.nanos_le, ↓reduceDIte]

/-- A span is read from its two parts. -/
theorem Source.duration_of_parts {D : Type} {src : Source D} {d seconds subsecond : D} {s : UInt64}
    {n : UInt32} (h : src.record Duration.shape d = some [some seconds, some subsecond])
    (hs : src.word64 seconds = some s) (hn : src.word32 subsecond = some n) :
    src.duration d = Duration.ofParts? s n := by
  have hseconds : required src.word64 (some seconds) = some s := hs
  have hsubsecond : required src.word32 (some subsecond) = some n := hn
  -- The parts are put in by rewriting: the bound in `Duration.ofParts?` is too long a numeral to be
  -- unfolded on the way.
  rw [Source.duration, h]
  simp only [hseconds, hsubsecond, Option.bind_eq_bind]
  rw [Option.bind_some, Option.bind_some]

/-- **A duration** is written as its seconds and what is below a second. -/
theorem Duration.kept (d : Duration) : Kept Json.source.duration Duration.json d where
  exact := by
    have hseconds := Json.fits_natCast d.seconds_lt
    have hsubsecond := Json.fits_natCast (Nat.lt_trans d.subsecond_lt (by decide))
    exact Shape.exact_object (by simp [Json.Exact.int hseconds, Json.Exact.int hsubsecond])
  read_write := by
    have hrecord : Json.source.record shape d.json = some [some _, some _] :=
      Shape.record_object (by decide) rfl
    rw [Source.duration_of_parts hrecord (Json.word64_natCast d.seconds_lt)
      (Json.word32_natCast d.subsecond_lt), d.ofParts?_seconds_subsecond]

/-- **An event** of the log is kept, whatever it tells. -/
theorem TraceEvent.kept (e : TraceEvent) : Kept Json.source.traceEvent TraceEvent.json e where
  exact := Shape.exact_object (by simp)
  read_write := by
    rw [Source.traceEvent, TraceEvent.json, Shape.record_object (by decide) rfl]
    simp only [List.map_cons, List.map_nil, Source.required, Option.bind_some, Option.bind_eq_bind,
      Json.word64_word, Json.defaulted_textOrNull]
    rfl

/-- **A pace** is kept, as it is three words. -/
theorem Pace.kept (p : Pace) : Kept Json.source.pace Pace.json p where
  exact := Shape.exact_object (by simp)
  read_write := by
    rw [Source.pace, Pace.json, Shape.record_object (by decide) rfl]
    simp only [List.map_cons, List.map_nil, Source.defaulted, Option.bind_some, Option.bind_eq_bind,
      Json.word32_toNat, Json.word64_word]
    rfl

/-- **An override** is kept; what it leaves alone is not written. -/
theorem Override.kept (o : Override) : Kept Json.source.override Override.json o where
  exact := Shape.exact_objectOf (by simp)
  read_write := by
    rw [Source.override, Override.json, Shape.record_objectOf (by decide) rfl]
    simp only [Json.defaulted_optional Json.int32_toInt nofun,
      Json.defaulted_optional Json.word64_word nofun, Option.bind_some, Option.bind_eq_bind,
      Option.pure_def]

/-! ## Records of records -/

/-- **A frame** is kept. -/
theorem Frame.kept (f : Frame) : Kept Json.source.frame Frame.json f where
  exact := Shape.exact_object (by simp [(Duration.kept _).exact])
  read_write := by
    rw [Source.frame, Frame.json, Shape.record_object (by decide) rfl]
    simp only [List.map_cons, List.map_nil, Source.required, Option.bind_some, Option.bind_eq_bind,
      Json.word64_word, (Duration.kept _).read_write, Option.pure_def]

/-- **A log** is kept, event by event. -/
theorem TraceLog.kept (l : TraceLog) : Kept Json.source.traceLog TraceLog.json l := by
  have hevents := Kept.list fun e (_ : e ∈ l.events.toList) => TraceEvent.kept e
  refine ⟨Shape.exact_object (List.forall_mem_singleton.mpr hevents.exact), ?_⟩
  rw [Source.traceLog, TraceLog.json, Shape.record_object (by decide) rfl]
  simp only [List.map_cons, List.map_nil, Source.required, Option.bind_some, hevents.read_write,
    Option.map_some]

/-- **A tuning** is kept: a map of maps of overrides. -/
theorem Tuning.kept (t : Tuning) : Kept Json.source.tuning Tuning.json t := by
  have harchetypes : Kept (Json.source.nameMap (Json.source.nameMap Json.source.override))
      (NameMap.json (NameMap.json Override.json)) t.archetypes :=
    .nameMap fun _ _ => .nameMap fun p _ => Override.kept p.2
  refine ⟨Shape.exact_object (List.forall_mem_singleton.mpr harchetypes.exact), ?_⟩
  rw [Source.tuning, Tuning.json, Shape.record_object (by decide) rfl]
  simp only [List.map_cons, List.map_nil, Source.defaulted, harchetypes.read_write,
    Option.map_some]

/-! ## Texts -/

/-- **Every record is the value that its compact JSON text stands for.** -/
theorem Json.read?_compact :
    (∀ e : TraceEvent, Json.read? e.json.compact = some e) ∧
    (∀ l : TraceLog, Json.read? l.json.compact = some l) ∧
    (∀ f : Frame, Json.read? f.json.compact = some f) ∧
    (∀ p : Pace, Json.read? p.json.compact = some p) ∧
    (∀ o : Override, Json.read? o.json.compact = some o) ∧
    ∀ t : Tuning, Json.read? t.json.compact = some t :=
  ⟨fun e => e.kept.parse?_compact, fun l => l.kept.parse?_compact, fun f => f.kept.parse?_compact,
    fun p => p.kept.parse?_compact, fun o => o.kept.parse?_compact,
    fun t => t.kept.parse?_compact⟩

/-- Read back is the tuning of a wolf that howls less often and never bites. -/
theorem Json.read?_compact_wolf :
    let patterns := NameMap.ofList
      [("howl", { cooldownMs := some 2500 }), ("bite", { priority := some (-1) })]
    let tuning : Tuning := ⟨.ofList [("wolf", patterns)]⟩
    Json.read? tuning.json.compact = some tuning := by
  intro patterns tuning
  exact Json.read?_compact.2.2.2.2.2 tuning

end Instinct
