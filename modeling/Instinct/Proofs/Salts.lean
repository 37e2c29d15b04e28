import Instinct.Node.Kinds
import Instinct.Proofs.Mixing

/-! # Near names have different salts

The salt of a name takes in its bytes one after the other, and none of these steps loses anything.
So two names that differ in one byte have different salts, however much they share before and
behind it, and the trees of patterns that bear such names are ticked under different seeds.

* **`saltByte_inj_salt`**, **`saltByte_inj_byte`** — taking in a byte tells salts and bytes apart.
* **`foldl_saltByte_inj_byte`** — one byte among others is told apart.
* **`Pattern.TicksUnder`** — the seed that the tree of a pattern is ticked under, as far as any tree
  can tell; **`Pattern.ticksUnder_iff`** — there is one, from the salt of the name.
* **`Pattern.near_names_ticked_apart`** — all of this for names that differ in one byte. -/

namespace Instinct

/-! ## (1) Taking in a byte -/

/-- The factor of a salt has an inverse modulo `2 ^ 64`, since it is odd. -/
theorem saltFactor_mul_inverse : (0x100000001B3 : UInt64) * 0xCE965057AFF6957B = 1 := by decide

variable {salt salt' : UInt64} {x y : UInt8}

/-- Taking in a byte keeps different salts apart. -/
@[simp] theorem saltByte_inj_salt : saltByte salt x = saltByte salt' x ↔ salt = salt' := by
  rw [saltByte, saltByte, mul_inj_of_mul_eq_one saltFactor_mul_inverse, UInt64.xor_left_inj]

/-- Different bytes make different salts. -/
@[simp] theorem saltByte_inj_byte : saltByte salt x = saltByte salt y ↔ x = y := by
  rw [saltByte, saltByte, mul_inj_of_mul_eq_one saltFactor_mul_inverse, UInt64.xor_right_inj,
    UInt8.toUInt64_inj]

/-! ## (2) Taking in a name -/

/-- The same bytes keep different salts apart. -/
theorem foldl_saltByte_inj_salt (bytes : List UInt8) :
    bytes.foldl saltByte salt = bytes.foldl saltByte salt' ↔ salt = salt' := by
  -- both salts change with each byte
  induction bytes generalizing salt salt' with
  | nil => rfl
  | cons x bytes ih => rw [List.foldl_cons, List.foldl_cons, ih, saltByte_inj_salt]

/-- **One byte among others is told apart**, whatever stands before and behind it. -/
theorem foldl_saltByte_inj_byte (front back : List UInt8) :
    (front ++ x :: back).foldl saltByte salt = (front ++ y :: back).foldl saltByte salt ↔
      x = y := by
  rw [List.foldl_append, List.foldl_append, List.foldl_cons, List.foldl_cons,
    foldl_saltByte_inj_salt, saltByte_inj_byte]

/-- The salt of a name is stirred together byte by byte. -/
theorem nameSalt_eq (name : String) :
    nameSalt name = (nameBytes name).foldl saltByte 0xCBF29CE484222325 := rfl

/-- **Names that differ in one byte at most** have the same salt only if they do not differ. -/
theorem nameSalt_inj_byte {name name' : String} {front back : List UInt8}
    (hname : nameBytes name = front ++ x :: back) (hname' : nameBytes name' = front ++ y :: back) :
    nameSalt name = nameSalt name' ↔ x = y := by
  rw [nameSalt_eq, nameSalt_eq, hname, hname', foldl_saltByte_inj_byte]

/-! ## (3) The seeds of patterns -/

variable {N G : Type}

/-- Machines that succeed under one seed and fail under all others. -/
def Machine.seeking (seed : UInt64) : Machine N G :=
  { Machine.inert with
    tick := fun f n w => ⟨if f.seed = seed then .success else .failure, n, w⟩ }

namespace Pattern

/-- **The seed that a pattern's tree is ticked under.** However its nodes act, a tick of the pattern
is one of its tree, on the blackboard with the situation written on it and in the frame at hand,
with that seed in the place of the seed of the frame. -/
def TicksUnder (p : Pattern N G) (s : Situation) (stage : Stage G) (seed : UInt64) : Prop :=
  ∀ m : Machine N G, p.tick m s stage =
    let after := { p.tree with board := p.briefedBoard s }.tick m { s.frame with seed } stage
    (after.1, { p with tree := after.2.1 }, after.2.2)

/-- **There is one seed that a pattern's tree is ticked under**, derived from the seed of the frame
by the salt of the pattern's name. -/
theorem ticksUnder_iff {p : Pattern N G} {s : Situation} {stage : Stage G} {seed : UInt64} :
    p.TicksUnder s stage seed ↔ seed = deriveSeed s.frame.seed (nameSalt p.name) 0 := by
  constructor
  · intro h
    -- machines that seek the seed would tell it from the one that is derived
    have hstatus : (if deriveSeed s.frame.seed (nameSalt p.name) 0 = seed then Status.success
        else .failure) = if seed = seed then .success else .failure :=
      congrArg Prod.fst (h (.seeking seed))
    by_contra hne
    rw [if_neg (Ne.symm hne), if_pos rfl] at hstatus
    exact Status.noConfusion hstatus
  · rintro rfl m
    rfl

/-- **Patterns with near names are ticked under different seeds.** Two names with the same bytes
before and behind one byte, in which they differ, have different salts. So the trees of two patterns
that bear these names are never ticked under the same seed, in whatever situations of one run and on
whatever stages. -/
theorem near_names_ticked_apart {front back : List UInt8} {x y : UInt8} (hxy : x ≠ y)
    {name name' : String} (hname : nameBytes name = front ++ x :: back)
    (hname' : nameBytes name' = front ++ y :: back) :
    nameSalt name ≠ nameSalt name' ∧
    ∀ p p' : Pattern N G, p.name = name → p'.name = name' →
      ∀ s s' : Situation, s.frame.seed = s'.frame.seed → ∀ stage stage' : Stage G,
        ∃ seed seed', (∀ z, p.TicksUnder s stage z ↔ z = seed) ∧
          (∀ z, p'.TicksUnder s' stage' z ↔ z = seed') ∧ seed ≠ seed' := by
  have hsalts : nameSalt name ≠ nameSalt name' := fun h =>
    hxy ((nameSalt_inj_byte hname hname').mp h)
  refine ⟨hsalts, fun p p' hp hp' s s' hseed stage stage' => ?_⟩
  refine ⟨_, _, fun _ => ticksUnder_iff, fun _ => ticksUnder_iff, fun h => hsalts ?_⟩
  -- the salt has the place of the tick in a derived seed
  rw [hp, hp', hseed] at h
  exact deriveSeed_inj_tick.mp h

/-- Two patterns that tell the seed they see, whose names differ in the middle. -/
theorem near_names_ticked_apart_swipe :
    let tell : Node UInt64 := .action "tell" fun f b _ => (.success, b, f.seed)
    let swipe : Pattern (Node UInt64) UInt64 := { name := "swipe", tree := { root := tell } }
    let swine : Pattern (Node UInt64) UInt64 := { name := "swine", tree := { root := tell } }
    let s : Situation := { frame := { tick := 3, seed := 7 } }
    let stage : Stage UInt64 := { game := 0 }
    (112 : UInt8) ≠ 110 ∧ nameBytes "swipe" = [115, 119, 105] ++ 112 :: [101] ∧
    nameBytes "swine" = [115, 119, 105] ++ 110 :: [101] ∧ nameSalt "swipe" ≠ nameSalt "swine" ∧
    (swipe.tick Node.asMachine s stage).2.2.game ≠
      (swine.tick Node.asMachine s stage).2.2.game := by
  intro tell swipe swine s stage
  have hxy : (112 : UInt8) ≠ 110 := by decide
  have hswipe : nameBytes "swipe" = [115, 119, 105] ++ 112 :: [101] := by decide
  have hswine : nameBytes "swine" = [115, 119, 105] ++ 110 :: [101] := by decide
  -- the two names differ in their fourth byte and nowhere else
  obtain ⟨hsalts, hseeds⟩ := near_names_ticked_apart hxy hswipe hswine
  obtain ⟨seed, seed', hseed, hseed', hne⟩ := hseeds swipe swine rfl rfl s s rfl stage stage
  refine ⟨hxy, hswipe, hswine, hsalts, ?_⟩
  rw [(hseed seed).mpr rfl, (hseed' seed').mpr rfl]
  exact hne

end Pattern

end Instinct
