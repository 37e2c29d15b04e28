import Instinct.Node.Kinds
import Instinct.Proofs.Assembly.Streams
import Instinct.Proofs.Mixing
import Instinct.Proofs.Runs
import Mathlib.Data.List.Nodup

/-! # Draw sites stay apart

No two selectors of an assembly draw from the same stream, and no two draws within a tick from the
same random source.

* **`Assembly.Call`**, **`Assembly.handedOut`** — what is done to an assembly, and the streams that
  it hands out meanwhile.
* **`Assembly.handedOut_eq`** — they are those of consecutive draw sites.
* **`Assembly.random_sources_distinct`** — so no two are the same, and what is derived from
  different streams, draws and salts is different again. -/

namespace Instinct

variable {G : Type}

namespace Assembly

/-- **What is done to an assembly.** -/
inductive Call (G : Type) where
  /-- One declaration. -/
  | declare (d : Declaration G)
  /-- A build, whether it gives a tree or an error. -/
  | build

/-- How many streams are asked for. -/
def Call.sites : Call G → Nat
  | declare d => d.sites
  | build => 0

/-- The stream that a declaration is given, if it asks for one. -/
def streamFor (a : Assembly G) : Declaration G → Option UInt64
  | .random => some a.nextStream.1
  | .weighted _ => some a.nextStream.1
  | .node _ | .name _ | .close => none

/-- One thing done to an assembly, with the stream that is handed out. -/
def call : Call G → Assembly G → Option UInt64 × Assembly G
  | .declare d, a => (a.streamFor d, a.declare d)
  | .build, a => (none, a.build.2)

/-- **The streams handed out** by a new assembly, whatever is done to it. -/
def handedOut (salt : UInt64) (calls : List (Call G)) : List UInt64 :=
  (runSteps call calls (withSalt salt)).1

/-- The stream of a declaration is the one that its selector draws from. -/
theorem declare_of_streamFor {a : Assembly G} {d : Declaration G} {stream : UInt64}
    (h : a.streamFor d = some stream) :
    ∃ c, (c = .random { stream } ∨ ∃ ws, c = .weighted (some ws) { stream }) ∧
      a.declare d = a.nextStream.2.add (.composite none c []) := by
  cases d with
  | random =>
    obtain rfl := Option.some.inj h
    exact ⟨_, .inl rfl, rfl⟩
  | weighted ws =>
    obtain rfl := Option.some.inj h
    exact ⟨_, .inr ⟨ws, rfl⟩, rfl⟩
  -- nothing else draws
  | node n => cases h
  | name title => cases h
  | close => cases h

/-! ## Consecutive draw sites -/

/-- A declaration takes the next streams, as many as it has places that draw. -/
theorem toList_streamFor {a : Assembly G} {n : Nat} (hn : a.streams = .ofNat n)
    (d : Declaration G) :
    (a.streamFor d).toList = (List.range' (n + 1) d.sites).map (site a.salt) := by
  have hnext : a.nextStream.1 = site a.salt (n + 1) := by
    rw [nextStream, site, hn, UInt64.ofNat_add]
    rfl
  cases d with
  | random => exact congrArg (fun stream => [stream]) hnext
  | weighted ws => exact congrArg (fun stream => [stream]) hnext
  | node n => rfl
  | name title => rfl
  | close => rfl

/-- What is handed out on the way, from any assembly on. -/
theorem streams_runSteps {a : Assembly G} {n : Nat} (hn : a.streams = .ofNat n)
    (calls : List (Call G)) :
    (runSteps call calls a).1
      = (List.range' (n + 1) (calls.map Call.sites).sum).map (site a.salt) := by
  -- the calls are read from the front, with the number of streams before them left open
  induction calls generalizing a n with
  | nil => rfl
  | cons c calls ih =>
    rw [runSteps_cons, List.map_cons, List.sum_cons, ← List.range'_append_1, List.map_append]
    cases c with
    | declare d =>
      have hstreams : (a.declare d).streams = .ofNat (n + d.sites) := by
        rw [streams_declare, hn, UInt64.ofNat_add]
      have hrest := ih hstreams
      rw [salt_declare, Nat.add_right_comm] at hrest
      exact congrArg₂ _ (toList_streamFor hn d) hrest
    -- a build hands out no stream and keeps the count
    | build =>
      have hstreams : a.build.2.streams = .ofNat n := by
        rw [afresh_build]
        exact hn
      have hrest := ih hstreams
      rw [afresh_build] at hrest
      show (runSteps call calls a.build.2).1 = _
      rw [Call.sites, List.range'_zero, afresh_build]
      exact hrest

/-- **The streams handed out are those of consecutive draw sites**, from the first on. -/
theorem handedOut_eq (salt : UInt64) (calls : List (Call G)) :
    handedOut salt calls = (List.range' 1 (calls.map Call.sites).sum).map (site salt) :=
  streams_runSteps (a := withSalt salt) rfl calls

/-- Different numbers of one assembly stand for different streams. -/
theorem site_inj {salt : UInt64} {j k : Nat} (hj : j < UInt64.size) (hk : k < UInt64.size) :
    site salt j = site salt k ↔ j = k := by
  rw [site, site, deriveSeed_inj_stream, ← UInt64.toNat_inj, UInt64.toNat_ofNat_of_lt' hj,
    UInt64.toNat_ofNat_of_lt' hk]

/-- **Draw sites stay apart.** The scrambler is a bijection, and a derived seed or stream tells two
of any of its parts apart. So fewer than `2 ^ 64` streams that an assembly hands out are all
different, whatever is built or fails in between; in one tick no two draws of a node have the same
random source, and no two nodes of different streams have it at the same draw; and different salts
give different seeds. -/
theorem random_sources_distinct (salt : UInt64) {calls : List (Call G)}
    (hfew : (calls.map Call.sites).sum < UInt64.size) :
    Function.Bijective mix ∧
    (∀ tick stream, Function.Injective fun seed => deriveSeed seed tick stream) ∧
    (∀ seed stream, Function.Injective fun tick => deriveSeed seed tick stream) ∧
    (∀ seed tick, Function.Injective fun stream => deriveSeed seed tick stream) ∧
    (∀ draw, Function.Injective fun site => drawStream site draw) ∧
    (∀ site, Function.Injective fun draw => drawStream site draw) ∧
    ((handedOut salt calls).length = (calls.map Call.sites).sum ∧ (handedOut salt calls).Nodup ∧
      ∀ (a : Assembly G) d stream, a.streamFor d = some stream → ∃ c,
        (c = .random { stream } ∨ ∃ ws, c = .weighted (some ws) { stream }) ∧
        a.declare d = a.nextStream.2.add (.composite none c [])) ∧
    (∀ (frame : Frame) (d : Draws), Function.Injective fun draw =>
      (Draws.generator { d with count := draw } frame).state) ∧
    (∀ (frame : Frame) (d : Draws), Function.Injective fun stream =>
      (Draws.generator { d with stream } frame).state) ∧
    ∀ frame : Frame, Function.Injective fun salt => (frame.salted salt).seed := by
  refine ⟨mixing.bijective, fun _ _ _ _ => deriveSeed_inj_seed.mp,
    fun _ _ _ _ => deriveSeed_inj_tick.mp, fun _ _ _ _ => deriveSeed_inj_stream.mp,
    fun _ _ _ => drawStream_inj_site.mp, fun _ _ _ => drawStream_inj_draw.mp, ⟨?_, ?_, ?_⟩,
    fun _ _ _ _ => Frame.drawGenerator_inj_draw.mp, fun _ _ _ _ => Frame.drawGenerator_inj_site.mp,
    fun _ _ _ => Frame.salted_inj.mp⟩
  · rw [handedOut_eq, List.length_map, List.length_range']
  · rw [handedOut_eq]
    refine List.Nodup.map_on (fun j hj k hk hjk => ?_) List.nodup_range'
    -- all numbers of draw sites are below `2 ^ 64`, so counting them never went round
    rw [List.mem_range'_1] at hj hk
    exact (site_inj (by omega) (by omega)).mp hjk
  · intro a d stream h
    exact declare_of_streamFor h

/-- Three selectors, the first two of them in a build that fails. -/
theorem random_sources_distinct_failing :
    let calls : List (Call Unit) := [.declare .random, .declare .close, .declare (.weighted [1]),
      .build, .declare .random, .build]
    ((withSalt 7).declareAll [.random, .close, .weighted [1]] : Assembly Unit).build.1
      = .error (.multipleRoots "RandomSelector") ∧
    (calls.map Call.sites).sum = 3 ∧ 3 < UInt64.size ∧
    (handedOut 7 calls).length = 3 ∧ (handedOut 7 calls).Nodup := by
  intro calls
  have hfew : (calls.map Call.sites).sum < UInt64.size := by decide
  obtain ⟨-, -, -, -, -, -, ⟨hlength, hnodup, -⟩, -⟩ := random_sources_distinct 7 hfew
  exact ⟨rfl, rfl, hfew, hlength, hnodup⟩

end Assembly

end Instinct
