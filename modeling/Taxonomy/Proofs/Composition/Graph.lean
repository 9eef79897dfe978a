import Mathlib.Data.List.Chain
import Mathlib.Logic.Relation
import Taxonomy.Proofs.Schema.Classify

/-!
# The composition graph

A document is a graph: its vertices are the declared objects, and an edge leads from an
object to each object that a single-valued property of it names. Array properties and parents are no
edges. Whether an object compiles is a question about what it reaches in this graph, and the path of
a compilation is a walk in it.
-/

namespace Taxonomy.Store

variable {s : Store} {path : List String} {name part x : String}

/-- The object `owner` has a property that names the object `part`. -/
def Composes (s : Store) (owner part : String) : Prop :=
  ∃ definition, s.schemas.get? owner = some (.object definition) ∧
    (∃ p ∈ definition.properties, p.target = .schema part) ∧ s.DeclaresObject part

/-- From `owner` one comes to `part` by following properties, or they are the same. -/
def Reaches (s : Store) : String → String → Prop :=
  Relation.ReflTransGen s.Composes

/-- From the object one comes back to it by following one property or more. -/
def OnCycle (s : Store) (name : String) : Prop :=
  Relation.TransGen s.Composes name name

/-- The path is a walk whose last object composes the name; the empty path leads to every name. -/
def LeadsTo (s : Store) (path : List String) (name : String) : Prop :=
  (path ++ [name]).IsChain s.Composes

theorem leadsTo_nil (s : Store) (name : String) : s.LeadsTo [] name :=
  List.IsChain.singleton name

theorem LeadsTo.step (h : s.LeadsTo path name) (hpart : s.Composes name part) :
    s.LeadsTo (path ++ [name]) part := by
  refine List.IsChain.append h (List.IsChain.singleton part) ?_
  intro last hlast first hfirst
  have hname : last = name := by simpa using hlast.symm
  have hfirst : first = part := by simpa using hfirst.symm
  rw [hname, hfirst]
  exact hpart

/-- Every object on a path that leads to a name reaches the name by one property or more. -/
theorem LeadsTo.transGen (h : s.LeadsTo path name) (hx : x ∈ path) :
    Relation.TransGen s.Composes x name := by
  have hchain : (path ++ [name]).IsChain (Relation.TransGen s.Composes) :=
    List.IsChain.imp (fun _ _ hstep => .single hstep) h
  have hpairwise := List.pairwise_append.mp hchain.pairwise
  exact hpairwise.2.2 x hx name (List.mem_singleton.mpr rfl)

end Taxonomy.Store
