import LiveSheet.Sheet.Basic

namespace LiveSheet

/-!
# Edits

An edit gives a cell new contents or clears it, and computes again every cell that depends on it.
Whether it would close a cycle is found before anything is changed, on the graph as it would be.

* `DependencyGraph.prospectiveDependents` — the direct dependents of a node as they would be if a
  cell referred to other cells than it does.
* `DependencyGraph.prospectiveWalk` — the order of recalculation over them.
* `Sheet.set` — gives a cell contents, or clears it.
* `Sheet.enter` — the same with a name and a text as they are typed.
-/

namespace DependencyGraph

/-- The direct dependents of a node, if `name` referred to `references` and to nothing else. -/
def prospectiveDependents (g : DependencyGraph CellName) (name : CellName)
    (references : Std.ExtTreeSet CellName) (node : CellName) : List CellName :=
  let others := (g.dependents node).erase name
  (if references.contains node then others.insert name else others).toList

/-- The view lists no cells but the edited one and those listed in the graph. -/
theorem mem_of_mem_prospectiveDependents {g : DependencyGraph CellName} {name node n : CellName}
    {references : Std.ExtTreeSet CellName} (h : n ∈ g.prospectiveDependents name references node) :
    n = name ∨ n ∈ g.dependents node := by
  simp only [prospectiveDependents, Std.ExtTreeSet.mem_toList] at h
  split at h
  · rcases Std.ExtTreeSet.mem_insert.1 h with heq | hmem
    · exact Or.inl (Std.LawfulEqOrd.eq_of_compare heq).symm
    · exact Or.inr (Std.ExtTreeSet.mem_of_mem_erase hmem)
  · exact Or.inr (Std.ExtTreeSet.mem_of_mem_erase h)

/-- Through the view, too, only finitely many cells can be reached. -/
theorem finitelyReachable_prospectiveDependents (g : DependencyGraph CellName) (name : CellName)
    (references : Std.ExtTreeSet CellName) :
    FinitelyReachable (g.prospectiveDependents name references) name :=
  finitelyReachable_of_mem (name :: g.allDependents) (fun _ _ h => by
    rcases mem_of_mem_prospectiveDependents h with rfl | hmem
    · exact List.mem_cons_self
    · exact List.mem_cons_of_mem _ (mem_allDependents hmem)) name

/-- The order of recalculation from `name`, if it referred to `references` and to nothing else. -/
def prospectiveWalk (g : DependencyGraph CellName) (name : CellName)
    (references : Std.ExtTreeSet CellName) : Walk CellName :=
  recalcOrder (g.prospectiveDependents name references) name
    (g.finitelyReachable_prospectiveDependents name references)

end DependencyGraph

/-- Puts contents into a cell, or takes the cell away. -/
def Cells.put (cells : Cells) (name : CellName) : Option Contents → Cells
  | some contents => cells.insert name (Cell.ofContents contents)
  | none => cells.erase name

namespace Sheet

/-- The cells that new contents refer to. -/
def newReferences (contents : Option Contents) : Std.ExtTreeSet CellName :=
  match contents with
  | some c => c.references
  | none => ∅

/-- Carries out an edit whose order of recalculation is known. -/
def commit (s : Sheet) (name : CellName) (contents : Option Contents) (order : List CellName) :
    Sheet :=
  ⟨(s.cells.put name contents).recalculate order,
    s.graph.replaceDependees name (newReferences contents).toList, true⟩

/-- Gives a cell contents, or clears it.  With the new sheet comes the list of the cells computed
    again, in order.  An edit that would close a cycle is refused. -/
def set (s : Sheet) (name : CellName) (contents : Option Contents) :
    Except EditError (Sheet × List CellName) :=
  match (s.graph.prospectiveWalk name (newReferences contents)).result with
  | .error path => .error (.circular path)
  | .ok order => .ok (s.commit name contents order, order)

/-- Gives the cell that a text names the contents that a text stands for.  The name is looked at
    first, then the text, then the cycle. -/
def enter (s : Sheet) (name input : String) : Except EditError (Sheet × List CellName) :=
  match CellName.ofText? name with
  | none => .error (.invalidName name)
  | some cell =>
    match Contents.ofInput input with
    | .error fault => .error (.formula fault)
    | .ok contents => s.set cell contents

end Sheet

end LiveSheet
