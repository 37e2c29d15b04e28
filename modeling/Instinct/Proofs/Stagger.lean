import Instinct.Demo.Arena
import Instinct.Node.Kinds
import Instinct.Proofs.Cadence
import Mathlib.Data.List.Nodup

/-! # Minds spread over the frames

Minds that think on every so many frames are moved against one another by their numbers. A frame is
one to think on where its number and that of the mind make up a multiple of the period, and in this
the two numbers are alike: what holds of consecutive frames holds of consecutive minds.

* **`existsUnique_multiple`**, **`countP_multiples`** — multiples among consecutive numbers.
* **`Pace.thinksOn_staggered`** — the frames that a staggered mind thinks on.
* **`Mind.sail`** — minds that are updated together, frame by frame; **`Mind.Abreast.sail`** — their
  paces stay, and all their clocks show the number of the next frame.
* **`Pace.staggered_evenly`** — one frame in every period for a mind, and one mind in every period
  for a frame. -/

namespace Instinct

/-! ## (1) Multiples among consecutive numbers -/

/-- No two multiples of `e` are less than `e` apart. -/
theorem eq_of_multiples {m e x y : Nat} (hx : (m + x) % e = 0) (hy : (m + y) % e = 0)
    (hxy : x < y + e) (hyx : y < x + e) : x = y := by
  have hover : e ∣ (m + y) - (m + x) := Nat.dvd_sub (Nat.dvd_of_mod_eq_zero hy)
    (Nat.dvd_of_mod_eq_zero hx)
  have hunder : e ∣ (m + x) - (m + y) := Nat.dvd_sub (Nat.dvd_of_mod_eq_zero hx)
    (Nat.dvd_of_mod_eq_zero hy)
  -- one of the two differences stops at zero, the other one is zero because it is too small
  have hover := Nat.eq_zero_of_dvd_of_lt hover (by omega)
  have hunder := Nat.eq_zero_of_dvd_of_lt hunder (by omega)
  omega

/-- **One of `e` consecutive numbers** makes up a multiple of `e` with `m`. -/
theorem existsUnique_multiple (m a : Nat) {e : Nat} (he : 0 < e) :
    ∃! x, a ≤ x ∧ x < a + e ∧ (m + x) % e = 0 := by
  have hrest : (m + a) % e < e := Nat.mod_lt _ he
  have hstep : (e - (m + a) % e) % e < e := Nat.mod_lt _ he
  -- the rest of `m + a` is filled up to the next multiple
  have hfilled : (m + (a + (e - (m + a) % e) % e)) % e = 0 := by
    have hnext : m + a + (e - (m + a) % e) = e * ((m + a) / e + 1) := by
      have hdiv := Nat.div_add_mod (m + a) e
      rw [Nat.mul_add_one]
      omega
    rw [← Nat.add_assoc, Nat.add_mod_mod, hnext, Nat.mul_mod_right]
  refine ⟨a + (e - (m + a) % e) % e, ⟨by omega, by omega, hfilled⟩, ?_⟩
  rintro y ⟨hay, hye, hy⟩
  exact eq_of_multiples hy hfilled (by omega) (by omega)

/-- **Every `e` of consecutive numbers** count once. -/
theorem countP_multiples (m first k : Nat) {e : Nat} (he : 0 < e) :
    (List.range' first (k * e)).countP (fun x => (m + x) % e = 0) = k := by
  induction k generalizing first with
  | zero => simp
  | succ k ih =>
    obtain ⟨x, ⟨hfirst, hlast, hx⟩, hunique⟩ := existsUnique_multiple m first he
    have hone : (List.range' first e).countP (fun x => (m + x) % e = 0) = 1 := by
      have hsame : ∀ y ∈ List.range' first e,
          decide ((m + y) % e = 0) = true ↔ (y == x) = true := by
        intro y hy
        obtain ⟨hay, hye⟩ := List.mem_range'_1.mp hy
        rw [decide_eq_true_iff, beq_iff_eq]
        constructor
        · intro hmultiple
          exact hunique y ⟨hay, hye, hmultiple⟩
        · rintro rfl
          exact hx
      rw [List.countP_congr hsame]
      have hmem : x ∈ List.range' first e := List.mem_range'_1.mpr ⟨hfirst, hlast⟩
      have hnodup : (List.range' first e).Nodup := List.nodup_range'
      exact List.count_eq_one_of_mem hnodup hmem
    rw [Nat.succ_mul, Nat.add_comm, ← List.range'_append_1, List.countP_append, hone, ih]
    omega

/-! ## (2) The frames of a staggered mind -/

namespace Pace

/-- A period lasts at least one frame. -/
theorem toNat_period_pos (every : UInt32) : 0 < (period every).toNat := by
  rw [toNat_period]
  omega

/-- A period is what it is made of a second time. -/
@[simp] theorem period_period (every : UInt32) : period (period every) = period every := by
  unfold period
  by_cases h : every = 0
  · rw [if_pos h, if_neg (by decide)]
  · rw [if_neg h, if_neg h]

/-- A staggered mind thinks once in a period. -/
@[simp] theorem every_staggered (id : UInt64) (every : UInt32) :
    (staggered id every).every = period every := rfl

/-- The offset is what the number of the mind leaves, which has room in its 32 bits. -/
@[simp] theorem toNat_offset_staggered (id : UInt64) (every : UInt32) :
    (staggered id every).offset.toNat = id.toNat % (period every).toNat := by
  have hlt : id.toNat % (period every).toNat < 2 ^ 32 :=
    Nat.lt_trans (Nat.mod_lt _ (toNat_period_pos every)) (period every).toNat_lt
  unfold staggered
  rw [UInt64.toNat_toUInt32, UInt64.toNat_mod, UInt32.toNat_toUInt64, Nat.mod_eq_of_lt hlt]

/-- The frames it thinks on are those whose number makes up a multiple of the period with its own.
-/
theorem due_staggered (id : UInt64) (every : UInt32) (n : Nat) :
    (staggered id every).Due n ↔ (n + id.toNat) % (period every).toNat = 0 := by
  unfold Due
  rw [toNat_offset_staggered, every_staggered, ← toNat_period, period_period, Nat.add_mod_mod]

/-- **The frames that a staggered mind thinks on**: the number of the frame and the number of the
mind make up a multiple of the period. -/
theorem thinksOn_staggered (id : UInt64) (every : UInt32) {n : Nat}
    (hfits : n + (period every).toNat ≤ 2 ^ 64) :
    (staggered id every).thinksOn (.ofNat n)
      = decide ((n + id.toNat) % (period every).toNat = 0) := by
  have hlt : (staggered id every).offset.toNat < (period every).toNat := by
    rw [toNat_offset_staggered]
    exact Nat.mod_lt _ (toNat_period_pos every)
  rw [thinksOn_eq _ (by omega)]
  exact decide_eq_decide.mpr (due_staggered id every n)

end Pace

/-! ## (3) Minds that are updated together -/

namespace Mind

variable {G : Type} [Collaborators G]

/-- **Several minds through several frames**, all of them in every frame. -/
def sail (spans : List Duration) (minds : List (Mind G)) (s : Stage G) :
    List (Mind G) × Stage G :=
  spans.foldl (fun r dt => updateAll dt r.1 r.2) (minds, s)

/-- The first of the minds is updated before the others. -/
theorem updateAll_cons (dt : Duration) (m : Mind G) (minds : List (Mind G)) (s : Stage G) :
    updateAll dt (m :: minds) s =
      ((m.update dt s).2.1 :: (updateAll dt minds (m.update dt s).2.2).1,
        (updateAll dt minds (m.update dt s).2.2).2) := rfl

/-- **Minds abreast**: these are their paces, and each of them has seen `n` frames. -/
structure Abreast (paces : List Pace) (n : Nat) (minds : List (Mind G)) : Prop where
  map_pace : minds.map (·.pace) = paces
  clock : ∀ m ∈ minds, m.clock.tick = .ofNat n

omit [Collaborators G] in
/-- Minds that have not seen a frame yet. -/
theorem abreast_ofTree {ι : Type} (ids : List ι) (trees : ι → Tree (Node G)) (paces : ι → Pace) :
    Abreast (ids.map paces) 0 (ids.map fun id => ofTree (trees id) (paces id)) where
  map_pace := List.map_map
  clock := by
    intro m hm
    obtain ⟨id, -, rfl⟩ := List.mem_map.mp hm
    rfl

/-- **One frame leaves minds abreast.** -/
theorem Abreast.updateAll {paces : List Pace} {n : Nat} {minds : List (Mind G)}
    (h : Abreast paces n minds) (dt : Duration) (s : Stage G) :
    Abreast paces (n + 1) (updateAll dt minds s).1 := by
  induction minds generalizing paces s with
  | nil => exact ⟨h.map_pace, fun m hm => nomatch hm⟩
  | cons m minds ih =>
    obtain ⟨rfl, hclock⟩ := h
    have ih := ih ⟨rfl, fun m' hm' => hclock m' (List.mem_cons_of_mem _ hm')⟩ (m.update dt s).2.2
    rw [updateAll_cons]
    constructor
    · rw [List.map_cons, pace_update, ih.map_pace, List.map_cons]
    · -- the first mind has gone on by one frame, and so have the others after it
      intro m' hm'
      obtain rfl | hm' := List.mem_cons.mp hm'
      · rw [clock_update, UInt64.ofNat_add, ← hclock m List.mem_cons_self]
        rfl
      · exact ih.clock m' hm'

/-- **A whole run leaves minds abreast.** -/
theorem Abreast.sail {paces : List Pace} {n : Nat} {minds : List (Mind G)}
    (h : Abreast paces n minds) (spans : List Duration) (s : Stage G) :
    Abreast paces (n + spans.length) (sail spans minds s).1 := by
  induction spans generalizing n minds s with
  | nil => exact h
  | cons dt spans ih =>
    have hnext := ih (h.updateAll dt s) (Mind.updateAll dt minds s).2
    rw [List.length_cons, Nat.add_comm spans.length 1, ← Nat.add_assoc]
    exact hnext

omit [Collaborators G] in
/-- The minds whose turn it is are counted by their paces. -/
theorem Abreast.countP {paces : List Pace} {n : Nat} {minds : List (Mind G)}
    (h : Abreast paces n minds) (dt : Duration) :
    minds.countP (fun m => m.pace.thinksOn (m.frame dt).tick)
      = paces.countP (·.thinksOn (.ofNat n)) := by
  rw [← h.map_pace, List.countP_map]
  refine List.countP_congr fun m hm => ?_
  have hframe : (m.frame dt).tick = .ofNat n := h.clock m hm
  rw [hframe]
  rfl

end Mind

namespace Pace

/-- **Of minds numbered in a row** one in each period thinks, on any frame. -/
theorem countP_staggered (every : UInt32) {n first k : Nat}
    (hn : n + (period every).toNat ≤ 2 ^ 64) (hids : first + k * (period every).toNat ≤ 2 ^ 64) :
    ((List.range' first (k * (period every).toNat)).map
      fun id => staggered (.ofNat id) every).countP (·.thinksOn (.ofNat n)) = k := by
  have hmultiples := countP_multiples n first k (toNat_period_pos every)
  rw [List.countP_map, ← List.countP_congr, hmultiples]
  intro id hid
  obtain ⟨-, hlast⟩ := List.mem_range'_1.mp hid
  have hid : (UInt64.ofNat id).toNat = id := by
    rw [UInt64.toNat_ofNat', Nat.mod_eq_of_lt (by omega)]
  rw [Function.comp_apply, thinksOn_staggered _ every hn, hid]

/-- **Staggered minds are spread evenly over the frames.** Whatever the period is, zero counting as
one: a mind thinks on one of any frames in a row that make up a period; on every frame one of any
minds with numbers in a row that make up a period thinks; and of `k` times as many minds, `k` think
on each frame that they see. -/
theorem staggered_evenly {G : Type} [Collaborators G] (every : UInt32) :
    let e := max every.toNat 1
    (∀ (id : UInt64) (t : Nat), t + 2 * e < 2 ^ 64 →
      ∃! n, t ≤ n ∧ n < t + e ∧ (staggered id every).thinksOn (.ofNat n) = true) ∧
    (∀ (tick : UInt64) (first : Nat), tick.toNat + e ≤ 2 ^ 64 → first + e ≤ 2 ^ 64 →
      ∃! id, first ≤ id ∧ id < first + e ∧ (staggered (.ofNat id) every).thinksOn tick = true) ∧
    ∀ (first k : Nat) (minds : List (Mind G)) (spans : List Duration) (dt : Duration) (s : Stage G),
      first + k * e ≤ 2 ^ 64 → spans.length + e ≤ 2 ^ 64 →
      Mind.Abreast ((List.range' first (k * e)).map fun id => staggered (.ofNat id) every) 0 minds →
      (Mind.sail spans minds s).1.countP (fun m => m.pace.thinksOn (m.frame dt).tick) = k := by
  intro e
  have he : (period every).toNat = e := toNat_period every
  have hpos : 0 < e := he ▸ toNat_period_pos every
  refine ⟨fun id t ht => ?_, fun tick first htick hfirst => ?_, ?_⟩
  · -- the number of the mind is fixed, that of the frame is looked for
    obtain ⟨n, ⟨hfrom, hto, hn⟩, hunique⟩ := existsUnique_multiple id.toNat t hpos
    have hthinks : ∀ x, x < t + e →
        ((staggered id every).thinksOn (.ofNat x) = true ↔ (id.toNat + x) % e = 0) := by
      intro x hx
      rw [thinksOn_staggered id every (by omega), decide_eq_true_iff, he, Nat.add_comm]
    refine ⟨n, ⟨hfrom, hto, (hthinks n hto).mpr hn⟩, ?_⟩
    rintro x ⟨hx, hxt, hxthinks⟩
    exact hunique x ⟨hx, hxt, (hthinks x hxt).mp hxthinks⟩
  · -- the number of the frame is fixed, that of the mind is looked for
    obtain ⟨id, ⟨hfrom, hto, hid⟩, hunique⟩ := existsUnique_multiple tick.toNat first hpos
    have hthinks : ∀ x, x < first + e →
        ((staggered (.ofNat x) every).thinksOn tick = true ↔ (tick.toNat + x) % e = 0) := by
      intro x hx
      have hroom : (UInt64.ofNat x).toNat = x := by
        rw [UInt64.toNat_ofNat', Nat.mod_eq_of_lt (by omega)]
      have hthinks := thinksOn_staggered (.ofNat x) every (n := tick.toNat) (by omega)
      rw [UInt64.ofNat_toNat, hroom, he] at hthinks
      rw [hthinks, decide_eq_true_iff]
    refine ⟨id, ⟨hfrom, hto, (hthinks id hto).mpr hid⟩, ?_⟩
    rintro x ⟨hx, hxt, hxthinks⟩
    exact hunique x ⟨hx, hxt, (hthinks x hxt).mp hxthinks⟩
  · -- the minds are abreast after the run, so they are all at the same frame
    intro first k minds spans dt s hids hspans hminds
    have habreast := hminds.sail spans s
    rw [Nat.zero_add] at habreast
    rw [habreast.countP dt, ← he]
    exact countP_staggered every (by omega) (by rwa [he])

/-- The mind with number seven, the frame with number five, eight minds in their second frame. -/
theorem staggered_evenly_four :
    let minds : List (Mind Arena) := (List.range' 6 (2 * 4)).map fun id =>
      .ofTree { root := .fixed .success } (staggered (.ofNat id) 4)
    let s : Stage Arena := { game := { fighter := default, target := .zero } }
    (∃! n, 1 ≤ n ∧ n < 1 + 4 ∧ (staggered 7 4).thinksOn (.ofNat n) = true) ∧
      (∃! id, 6 ≤ id ∧ id < 6 + 4 ∧ (staggered (.ofNat id) 4).thinksOn 5 = true) ∧
      (Mind.sail [.ofMillis 16] minds s).1.countP
        (fun m => m.pace.thinksOn (m.frame (.ofMillis 16)).tick) = 2 := by
  intro minds s
  obtain ⟨hframes, hminds, hfleet⟩ := staggered_evenly (G := Arena) 4
  refine ⟨hframes 7 1 (by decide), hminds 5 6 (by decide) (by decide), ?_⟩
  exact hfleet 6 2 minds [.ofMillis 16] (.ofMillis 16) s (by decide) (by decide)
    (Mind.abreast_ofTree _ _ _)

end Pace

end Instinct
