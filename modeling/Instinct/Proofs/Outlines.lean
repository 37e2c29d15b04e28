import Instinct.Node.Outline
import Instinct.Proofs.Trail

/-! # The text of a tree tells its outline

A tree is shown as one line for each node, with two blanks for each level. Nothing closes a node:
how far a line is indented is all that tells where it belongs. A node's own name stands in
parentheses, and may itself contain blanks and parentheses; only a line break in it would be taken
for one of the text.

* **`Outline.label_inj`** — the label of a node tells its kind and its name.
* **`Outline.readLine_indented`** — a line tells its depth and its label.
* **`Outline.lines_inj`** — the depths and labels of all nodes in order tell the outline.
* **`Outline.split_render`** — the lines of a text are those of its nodes.
* **`Node.lines_outline`** — the lines of a node's outline, by the places below it.
* **`Node.describe_tells`** — the text of a tree has a line for each of its nodes, and trees of the
  same text have the same outline. -/

namespace Instinct

/-! ## (1) Labels -/

namespace Kind

/-- A kind is found by its name. -/
theorem find?_name (k : Kind) : all.find? (·.name = k.name) = some k := by
  cases k <;> decide

/-- The name of a kind tells the kind. -/
theorem name_inj {k k' : Kind} : k.name = k'.name ↔ k = k' := by
  refine ⟨fun h => ?_, congrArg name⟩
  rw [← Option.some_inj, ← find?_name k, ← find?_name k', h]

/-- No kind has a parenthesis in its name. -/
theorem parenthesis_notMem_name (k : Kind) : '(' ∉ k.name.toList := by
  cases k <;> decide

/-- No kind has a line break in its name. -/
theorem lineBreak_notMem_name (k : Kind) : '\n' ∉ k.name.toList := by
  cases k <;> decide

/-- No kind has a blank in front of its name. -/
theorem takeWhile_blank_name (k : Kind) (rest : List Char) :
    (k.name.toList ++ rest).takeWhile (· = ' ') = [] := by
  cases k <;> rfl

end Kind

namespace Outline

/-- A node without a name of its own is labelled by its kind. -/
theorem label_name (k : Kind) : label k k.name = k.name := if_pos rfl

/-- A name of its own stands in parentheses. -/
theorem toList_label_of_ne {k : Kind} {name : String} (h : name ≠ k.name) :
    (label k name).toList = k.name.toList ++ '(' :: (name.toList ++ [')']) := by
  rw [label, if_neg h]
  simp only [String.toList_append, List.append_assoc]
  rfl

/-- Up to the first parenthesis a label is the name of the kind. -/
theorem takeWhile_label (k : Kind) (name : String) :
    (label k name).toList.takeWhile (· ≠ '(') = k.name.toList := by
  have hkind : ∀ c ∈ k.name.toList, decide (c ≠ '(') = true := by
    rintro c hc
    rw [decide_eq_true_iff]
    rintro rfl
    exact k.parenthesis_notMem_name hc
  -- without a name of its own the label is the name of the kind and no more
  by_cases hname : name = k.name
  · rw [hname, label_name, ← List.append_nil k.name.toList, List.takeWhile_append_of_pos hkind]
    rfl
  · rw [toList_label_of_ne hname, List.takeWhile_append_of_pos hkind, List.takeWhile_cons_of_neg,
      List.append_nil]
    decide

/-- **The label of a node tells its kind and its name**, whatever the name is. -/
theorem label_inj {k k' : Kind} {name name' : String} :
    label k name = label k' name' ↔ k = k' ∧ name = name' := by
  constructor
  · intro h
    have hkind : k = k' := by
      rw [← Kind.name_inj, ← String.toList_inj, ← takeWhile_label k name,
        ← takeWhile_label k' name', h]
    subst hkind
    refine ⟨rfl, ?_⟩
    have hchars := congrArg String.toList h
    by_cases hname : name = k.name <;> by_cases hname' : name' = k.name
    · rw [hname, hname']
    · -- only one of the two labels has parentheses
      rw [hname, label_name, toList_label_of_ne hname', List.self_eq_append_right] at hchars
      cases hchars
    · rw [hname', label_name, toList_label_of_ne hname, List.append_right_eq_self] at hchars
      cases hchars
    · rw [toList_label_of_ne hname, toList_label_of_ne hname', List.append_cancel_left_eq,
        List.cons.injEq, List.append_cancel_right_eq] at hchars
      exact String.toList_inj.mp hchars.2
  · rintro ⟨rfl, rfl⟩
    rfl

/-- A label begins with no blank. -/
theorem takeWhile_blank_label (k : Kind) (name : String) :
    (label k name).toList.takeWhile (· = ' ') = [] := by
  by_cases hname : name = k.name
  · rw [hname, label_name, ← List.append_nil k.name.toList]
    exact k.takeWhile_blank_name []
  · rw [toList_label_of_ne hname]
    exact k.takeWhile_blank_name _

/-- A label has no line break that is not in the name. -/
theorem lineBreak_notMem_label (k : Kind) {name : String} (h : '\n' ∉ name.toList) :
    '\n' ∉ (label k name).toList := by
  by_cases hname : name = k.name
  · rw [hname, label_name]
    exact k.lineBreak_notMem_name
  · rw [toList_label_of_ne hname]
    intro hmem
    rcases List.mem_append.mp hmem with hmem | hmem
    · exact k.lineBreak_notMem_name hmem
    · simp [h] at hmem

/-! ## (2) Lines -/

/-- A line of the text, without its line break. -/
def indented (line : Nat × String) : String :=
  String.ofList (List.replicate (2 * line.1) ' ') ++ line.2

/-- A line of the text ends in a line break. -/
theorem renderLine_eq (line : Nat × String) : renderLine line = indented line ++ "\n" := rfl

/-- The characters of a line: blanks, and then the label. -/
theorem toList_indented (line : Nat × String) :
    (indented line).toList = List.replicate (2 * line.1) ' ' ++ line.2.toList := by
  rw [indented, String.toList_append, String.toList_ofList]

/-- Read a line: how far it is indented, and what follows. -/
def readLine (text : String) : Nat × String :=
  ((text.toList.takeWhile (· = ' ')).length / 2, String.ofList (text.toList.dropWhile (· = ' ')))

/-- **A line tells its depth and its label**, if the label begins with no blank. -/
theorem readLine_indented {line : Nat × String} (h : line.2.toList.takeWhile (· = ' ') = []) :
    readLine (indented line) = line := by
  have hblanks : ∀ c ∈ List.replicate (2 * line.1) ' ', decide (c = ' ') = true := fun c hc =>
    decide_eq_true (List.eq_of_mem_replicate hc)
  -- the label begins with no blank, so all blanks in front belong to the depth
  have hlabel : line.2.toList.dropWhile (· = ' ') = line.2.toList := by
    have hboth := List.takeWhile_append_dropWhile (p := fun c => decide (c = ' '))
      (l := line.2.toList)
    rwa [h, List.nil_append] at hboth
  unfold readLine
  rw [toList_indented, List.takeWhile_append_of_pos hblanks, List.dropWhile_append_of_pos hblanks,
    h, hlabel, List.append_nil, List.length_replicate, String.ofList_toList]
  exact Prod.ext (Nat.mul_div_cancel_left _ Nat.two_pos) rfl

/-- **The lines of a text**: as many as were written, and nothing behind the last line break. -/
theorem split_join_lines {ls : List (Nat × String)} (h : ∀ l ∈ ls, '\n' ∉ l.2.toList) :
    (String.join (ls.map renderLine)).toList.splitOn '\n'
      = ls.map (fun l => (indented l).toList) ++ [[]] := by
  induction ls with
  | nil => rfl
  | cons l ls ih =>
    obtain ⟨hl, hls⟩ := List.forall_mem_cons.mp h
    -- the only line break in a line is the one at its end
    have hbreak : '\n' ∉ (indented l).toList := by
      rw [toList_indented]
      intro hmem
      rcases List.mem_append.mp hmem with hmem | hmem
      · cases List.eq_of_mem_replicate hmem
      · exact hl hmem
    have htext : (String.join ((l :: ls).map renderLine)).toList
        = (indented l).toList ++ '\n' :: (String.join (ls.map renderLine)).toList := by
      rw [List.map_cons, String.join_cons, renderLine_eq, String.toList_append,
        String.toList_append, List.append_assoc]
      rfl
    rw [htext, List.splitOn_append_cons_self_of_not_mem hbreak, ih hls]
    rfl

/-! ## (3) Outlines from their lines -/

/-- Outlines side by side are told one after another. -/
theorem linesOfAll_eq (depth : Nat) (os : List Outline) :
    linesOfAll depth os = os.flatMap (lines depth) := by
  induction os with
  | nil => rfl
  | cons o os ih => rw [linesOfAll, ih, List.flatMap_cons]

/-- **What comes after a subtree** is no deeper than `depth`. -/
def Stops (depth : Nat) (rest : List (Nat × String)) : Prop := ∀ l ∈ rest.head?, l.1 ≤ depth

/-- What is no deeper than one level is no deeper than the next. -/
theorem Stops.mono {d d' : Nat} (h : d ≤ d') {rest : List (Nat × String)} (hrest : Stops d rest) :
    Stops d' rest := fun l hl => Nat.le_trans (hrest l hl) h

/-- The lines of subtrees begin at their own depth. -/
theorem stops_linesOfAll {d : Nat} (os : List Outline) {rest : List (Nat × String)}
    (hrest : Stops d rest) : Stops d (linesOfAll d os ++ rest) := by
  cases os with
  | nil => exact hrest
  | cons o os =>
    obtain ⟨k, name, cs⟩ := o
    intro l hl
    obtain rfl := Option.some.inj hl
    exact Nat.le_refl d

mutual

/-- A subtree is told by its lines, up to where they stop being deeper than its root. -/
theorem lines_append_inj {d : Nat} (o o' : Outline) {rest rest' : List (Nat × String)}
    (hrest : Stops d rest) (hrest' : Stops d rest')
    (h : lines d o ++ rest = lines d o' ++ rest') : o = o' ∧ rest = rest' := by
  obtain ⟨k, name, cs⟩ := o
  obtain ⟨k', name', cs'⟩ := o'
  rw [lines, lines, List.cons_append, List.cons_append, List.cons.injEq, Prod.mk.injEq,
    label_inj] at h
  obtain ⟨⟨-, rfl, rfl⟩, h⟩ := h
  obtain ⟨rfl, rfl⟩ := linesOfAll_append_inj cs cs' hrest hrest' h
  exact ⟨rfl, rfl⟩

/-- Subtrees side by side are told by their lines, up to where they end. -/
theorem linesOfAll_append_inj {d : Nat} (os os' : List Outline) {rest rest' : List (Nat × String)}
    (hrest : Stops d rest) (hrest' : Stops d rest')
    (h : linesOfAll (d + 1) os ++ rest = linesOfAll (d + 1) os' ++ rest') :
    os = os' ∧ rest = rest' := by
  match os, os' with
  | [], [] => exact ⟨rfl, h⟩
  | [], ⟨k, name, cs⟩ :: os' =>
    -- the next line would be one level deeper than what comes after
    rw [linesOfAll, List.nil_append] at h
    have := hrest (d + 1, label k name) (h ▸ rfl)
    omega
  | ⟨k, name, cs⟩ :: os, [] =>
    rw [linesOfAll.eq_1, List.nil_append] at h
    have := hrest' (d + 1, label k name) (h ▸ rfl)
    omega
  | o :: os, o' :: os' =>
    rw [linesOfAll, linesOfAll, List.append_assoc, List.append_assoc] at h
    have hup : d ≤ d + 1 := Nat.le_succ d
    obtain ⟨rfl, hafter⟩ := lines_append_inj o o' (stops_linesOfAll os (hrest.mono hup))
      (stops_linesOfAll os' (hrest'.mono hup)) h
    obtain ⟨rfl, rfl⟩ := linesOfAll_append_inj os os' hrest hrest' hafter
    exact ⟨rfl, rfl⟩

end

/-- **The depths and labels of all nodes in order tell the outline.** -/
theorem lines_inj {d : Nat} {o o' : Outline} : lines d o = lines d o' ↔ o = o' := by
  refine ⟨fun h => ?_, congrArg (lines d)⟩
  have hstops : Stops d [] := fun l hl => nomatch hl
  exact (lines_append_inj o o' hstops hstops (by rw [h])).1

/-! ## (4) The text of an outline -/

/-- **The lines of the text of an outline** are those of its nodes. -/
theorem split_render {o : Outline} (h : ∀ l ∈ o.lines 0, '\n' ∉ l.2.toList) :
    (o.render.split '\n').toList.map (·.copy) = (o.lines 0).map indented ++ [""] := by
  rw [String.toList_split_char, render, split_join_lines h, List.map_append, List.map_map]
  simp only [Function.comp_def, String.ofList_toList]
  rfl

end Outline

/-! ## (5) The text of a tree -/

namespace Node

variable {G H : Type}

/-- Outlines of a list are made one by one. -/
theorem outlines_eq (ns : List (Node G)) : outlines ns = ns.map outline := by
  induction ns with
  | nil => rfl
  | cons n ns ih => rw [outlines, ih, List.map_cons]

/-- The outline of a node, from those of its children. -/
theorem outline_eq (n : Node G) : n.outline = .node n.kind n.name (n.children.map outline) := by
  cases n with
  | composite title c cs => rw [outline, outlines_eq, kind, name, children]
  | decorator title d child => cases child <;> rfl
  | leaf title l => rfl
  | patterns title s => rfl
  | custom c cs => rw [outline, outlines_eq, kind, name, children]

/-- The line of a node at a place. -/
def lineAt (depth : Nat) (p : List Nat × Node G) : Nat × String :=
  (depth + p.1.length, Outline.label p.2.kind p.2.name)

/-- **The lines of a node's outline** are those of the places below it, in order. -/
theorem lines_outline (n : Node G) (depth : Nat) :
    n.outline.lines depth = n.places.map (lineAt depth) := by
  induction n using beneath_induction generalizing depth with
  | step n ih =>
    rw [outline_eq, Outline.lines, Outline.linesOfAll_eq, places_eq, List.map_cons,
      List.map_flatMap, List.flatMap_map]
    refine congrArg₂ List.cons rfl ?_
    -- the children come with their numbers here, and without them there
    have hchildren : n.children.flatMap (fun c => c.outline.lines (depth + 1))
        = n.children.zipIdx.flatMap fun c => c.1.outline.lines (depth + 1) := by
      conv_lhs => rw [← List.zipIdx_map_fst 0 n.children]
      exact List.flatMap_map ..
    rw [hchildren]
    refine List.flatMap_congr fun c hc => ?_
    rw [ih c.1 (mem_beneath_of_mem_zipIdx hc), List.map_map]
    refine List.map_congr_left fun p hp => ?_
    rw [Function.comp_apply, lineAt, lineAt, Prod.map_fst, List.length_cons, Nat.add_assoc,
      Nat.add_comm 1]
    rfl

/-- Every line of a node's outline is read back. -/
theorem map_readLine_lines (n : Node G) :
    ((n.outline.lines 0).map Outline.indented).map Outline.readLine = n.outline.lines 0 := by
  rw [lines_outline, List.map_map, List.map_map]
  refine List.map_congr_left fun p _ => ?_
  exact Outline.readLine_indented (Outline.takeWhile_blank_label p.2.kind p.2.name)

/-- **The lines of the text of a tree** are those of its outline. -/
theorem split_describe {n : Node G} (hn : ∀ p ∈ n.places, '\n' ∉ p.2.name.toList) :
    (n.describe.split '\n').toList.map (·.copy)
      = (n.outline.lines 0).map Outline.indented ++ [""] := by
  refine Outline.split_render fun l hl => ?_
  rw [lines_outline] at hl
  obtain ⟨p, hp, rfl⟩ := List.mem_map.mp hl
  exact Outline.lineBreak_notMem_label p.2.kind (hn p hp)

/-- **The text of a tree tells its outline**, as long as no node has a line break in its name: it
has one line for each node that is shown, a node before its children and these from left to right,
with two blanks for each node above it; and two trees that are shown alike have the same outline. -/
theorem describe_tells (n : Node G) (n' : Node H)
    (hn : ∀ p ∈ n.places, '\n' ∉ p.2.name.toList) (hn' : ∀ p ∈ n'.places, '\n' ∉ p.2.name.toList) :
    (n.describe.split '\n').toList.map (·.copy)
        = (n.places.map fun p => String.ofList (List.replicate (2 * p.1.length) ' ')
            ++ Outline.label p.2.kind p.2.name) ++ [""] ∧
      (n.describe = n'.describe → n.outline = n'.outline) := by
  constructor
  · rw [split_describe hn, lines_outline, List.map_map]
    refine congrArg (· ++ [""]) (List.map_congr_left fun p _ => ?_)
    rw [Function.comp_apply, lineAt, Outline.indented, Nat.zero_add]
  · -- the same text is split into the same lines, which are read back
    intro h
    have hsplit : (n.outline.lines 0).map Outline.indented ++ [""]
        = (n'.outline.lines 0).map Outline.indented ++ [""] := by
      rw [← split_describe hn, ← split_describe hn', h]
    have hlines := congrArg (List.map Outline.readLine) (List.append_cancel_right hsplit)
    rw [map_readLine_lines, map_readLine_lines] at hlines
    exact Outline.lines_inj.mp hlines

/-- Two trees of the same nodes in the same order, of which only one lies deeper. -/
theorem describe_tells_nested :
    let n : Node Unit := .sequence [(sequence [.fixed .success]).rename "a (b)", .fixed .success]
    let n' : Node Unit := .sequence [(sequence [.fixed .success, .fixed .success]).rename "a (b)"]
    (n.describe.split '\n').toList.map (·.copy)
        = ["Sequence", "  Sequence(a (b))", "    Success", "  Success", ""] ∧
      n.describe ≠ n'.describe := by
  intro n n'
  have hplaces : n.places = [([], n), ([0], (sequence [.fixed .success]).rename "a (b)"),
      ([0, 0], .fixed .success), ([1], .fixed .success)] := by
    simp [n, sequence, fixed, rename]
  have hn : ∀ p ∈ n.places, '\n' ∉ p.2.name.toList := by
    rw [hplaces]
    decide
  have hn' : ∀ p ∈ n'.places, '\n' ∉ p.2.name.toList := by
    simp [n', sequence, fixed, rename, name, Composite.kind, Leaf.kind, Kind.name]
  obtain ⟨hlines, houtline⟩ := describe_tells n n' hn hn'
  constructor
  · rw [hlines, hplaces]
    decide
  · intro h
    have houtline := houtline h
    simp [n, n', sequence, fixed, rename, outline, outlines] at houtline

end Node

end Instinct
