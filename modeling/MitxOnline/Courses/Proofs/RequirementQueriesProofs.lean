import Mathlib.Data.List.Nodup
import Mathlib.Tactic.Push
import MitxOnline.Courses.RequirementQueries
import MitxOnline.Lib.Search

/-!
# Prefetched and queried requirements agree

Both traversals select the same rows in the same order. Since all steps of a path have the same length, a node below
the second level has one node of that level on its path, and takes its class from it.
-/

namespace MitxOnline

variable {table : RequirementTable} {program : ProgramId} {req op op' : StoredRequirement}
  {ops courseReqs : List StoredRequirement}

/-! ## Paths -/

theorem RequirementTable.path_injective (table : RequirementTable) (hreq : req ∈ table.rows) (hop : op ∈ table.rows)
    (hpath : req.path = op.path) : req = op := by
  have hnodup : (table.rows.map fun req => req.path).Nodup := by
    rw [List.Nodup, List.pairwise_map]
    refine table.sorted.imp fun hlt heq => ?_
    rw [heq] at hlt
    exact List.lt_irrefl _ hlt
  exact List.inj_on_of_nodup_map hnodup hreq hop hpath

/-- The node of the second level on the path of a row. -/
structure IsOperatorOf (table : RequirementTable) (op req : StoredRequirement) : Prop where
  mem : op ∈ table.rows
  program : op.program = req.program
  depth : op.depth = 2
  path : op.path <+: req.path

/-- Two nodes of the second level on one path are the same. -/
theorem IsOperatorOf.unique (h : IsOperatorOf table op req) (h' : IsOperatorOf table op' req) : op = op' := by
  refine table.path_injective h.mem h'.mem ?_
  have hlength : op.path.length = op'.path.length := by
    rw [table.steps op h.mem, table.steps op' h'.mem, h.depth, h'.depth]
  exact (List.prefix_of_prefix_length_le h.path h'.path hlength.le).eq_of_length hlength

/-- `main_ops` of a program. -/
def RequirementTable.mainOps (table : RequirementTable) (program : ProgramId) : List StoredRequirement :=
  (table.allRequirements program).filter fun req => req.depth == 2

end MitxOnline
