import Instinct.Proofs.Assembly.DrawSites

/-! # After a build an assembly is as good as new

Nothing of an earlier construction is left after a build, whether it gave a tree or an error: no
open node, no leaf held back, no root and no error. What remains is the count of the streams that
were handed out.

* **`Assembly.reply`**, **`Assembly.replies`** — what the builds among some calls give.
* **`Assembly.afresh_after`** — the streams that are handed out by any calls at all.
* **`Assembly.as_good_as_new`** — a used assembly gives what a new one gives. -/

namespace Instinct

variable {G : Type}

namespace Assembly

/-- One thing done to an assembly, with what it gives. Only builds give something. -/
def reply : Call G → Assembly G → Option (Except BuildError (Tree (Node G))) × Assembly G
  | .declare d, a => (none, a.declare d)
  | .build, a => (some a.build.1, a.build.2)

/-- **What the builds among some calls give**, in order. -/
def replies (a : Assembly G) (calls : List (Call G)) : List (Except BuildError (Tree (Node G))) :=
  (runSteps reply calls a).1

/-- The assembly after some calls. -/
def after (a : Assembly G) (calls : List (Call G)) : Assembly G := (runSteps reply calls a).2

variable {a : Assembly G}

/-- What is left after the first call and the others. -/
theorem after_cons (c : Call G) (calls : List (Call G)) :
    a.after (c :: calls) = (reply c a).2.after calls := rfl

/-- What is left after some calls and some more. -/
theorem after_append (calls calls' : List (Call G)) :
    a.after (calls ++ calls') = (a.after calls).after calls' := by
  induction calls generalizing a with
  | nil => rfl
  | cons c calls ih => rw [List.cons_append, after_cons, after_cons, ih]

/-- The replies to the first call and to the others. -/
theorem replies_cons (c : Call G) (calls : List (Call G)) :
    a.replies (c :: calls) = (reply c a).1.toList ++ (reply c a).2.replies calls := rfl

/-- Declarations and the build that ends them. -/
theorem replies_declare (a : Assembly G) (ds : List (Declaration G)) :
    a.replies (ds.map .declare ++ [.build]) = [a.treeOf ds] := by
  induction ds generalizing a with
  | nil => rfl
  | cons d ds ih =>
    rw [List.map_cons, List.cons_append, replies_cons]
    exact ih (a.declare d)

/-- A call hands out as many streams as it asks for. -/
theorem afresh_reply (c : Call G) (a : Assembly G) :
    (reply c a).2.afresh = { salt := a.salt, streams := a.streams + .ofNat c.sites } := by
  cases c with
  | declare d => exact a.afresh_declare d
  | build =>
    have hstreams : a.streams + .ofNat 0 = a.streams := a.streams.add_zero
    show a.build.2.afresh = { salt := a.salt, streams := a.streams + .ofNat 0 }
    rw [afresh_build, hstreams]
    rfl

/-- No call changes the salt. -/
theorem salt_reply (c : Call G) (a : Assembly G) : (reply c a).2.salt = a.salt := by
  show (reply c a).2.afresh.salt = a.salt
  rw [afresh_reply]

/-- A call takes as many streams as it has sites. -/
theorem streams_reply (c : Call G) (a : Assembly G) :
    (reply c a).2.streams = a.streams + .ofNat c.sites := by
  show (reply c a).2.afresh.streams = a.streams + .ofNat c.sites
  rw [afresh_reply]

/-- **Any calls hand out as many streams as they ask for.** -/
theorem afresh_after (calls : List (Call G)) (a : Assembly G) :
    (a.after calls).afresh
      = { salt := a.salt, streams := a.streams + .ofNat (calls.map Call.sites).sum } := by
  induction calls generalizing a with
  | nil =>
    exact congrArg (fun streams => { salt := a.salt, streams : Assembly G }) a.streams.add_zero.symm
  | cons c calls ih =>
    rw [after_cons, ih, salt_reply, streams_reply, List.map_cons, List.sum_cons, UInt64.ofNat_add,
      UInt64.add_assoc]

/-- **After a build an assembly is as good as new**, whatever was declared and built with it, and
whether the build gave a tree or an error. It is a new one of the same salt, which has handed out as
many streams as were asked for by all selectors so far, those that were ignored after an error among
them. So nothing of an earlier construction is left in it, and later builds give what they give on
such a new one. -/
theorem as_good_as_new (salt : UInt64) (history later : List (Call G)) :
    let used := (withSalt salt).after (history ++ [.build])
    let fresh : Assembly G := { salt, streams := .ofNat (history.map Call.sites).sum }
    used = fresh ∧
    (used.opened = [] ∧ used.staged = none ∧ used.root = none ∧ used.error = none) ∧
    used.replies (later ++ [.build]) = fresh.replies (later ++ [.build]) ∧
    ∀ ds, used.replies (ds.map .declare ++ [.build]) = [fresh.treeOf ds] := by
  intro used fresh
  have hused : used = fresh := by
    -- the last build hands the tree out, and leaves only the salt and the count
    show (withSalt salt).after (history ++ [.build]) = fresh
    have hbuild : (withSalt salt).after (history ++ [.build])
        = ((withSalt salt).after history).build.2 := after_append _ _
    rw [hbuild, afresh_build, afresh_after]
    exact congrArg (fun streams => { salt, streams : Assembly G }) (UInt64.zero_add _)
  rw [hused]
  exact ⟨rfl, ⟨rfl, rfl, rfl, rfl⟩, rfl, fresh.replies_declare⟩

end Assembly

end Instinct
