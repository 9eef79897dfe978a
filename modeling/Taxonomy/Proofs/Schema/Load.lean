import Taxonomy.Proofs.Schema.Shape
import Taxonomy.Schema.Load

/-!
# What loading guarantees

Definitions only come into a store by being read from a document. The bodies of the properties
are the members of a JSON object, which are put in order when they are read, so the properties of a
loaded object are strictly ascending by name and no two of them share one.
-/

namespace Taxonomy

/-- The properties are strictly ascending by name. -/
def ObjectDefinition.Ordered (definition : ObjectDefinition) : Prop :=
  definition.properties.Pairwise (fun p q => Text.before p.name q.name = true)

theorem ObjectDefinition.Ordered.nodup_names {definition : ObjectDefinition}
    (h : definition.Ordered) : (definition.properties.map (·.name)).Nodup :=
  List.pairwise_map.mpr (h.imp fun hbefore => Text.ne_of_before hbefore)

namespace SchemaDefinition

variable {definition : ObjectDefinition} {value : Json} {name : String}

/-- An object that is read from a document has its properties in order. -/
theorem ordered_of_ofJson (h : ofJson name value = .object definition) : definition.Ordered := by
  obtain ⟨_, hlists, -⟩ := isReadFrom_of_ofJson h
  exact hlists.ascending

end SchemaDefinition

namespace Store

/-- Stores come from a JSON value, a JSON text or a file. -/
inductive Loaded : Store → Prop
  | value {root : Json} {s : Store} (h : ofValue root = .ok s) : Loaded s
  | text {text : String} {s : Store} (h : ofText text = .ok s) : Loaded s
  | file {path : String} {file : FileState} {s : Store} (h : load path file = .ok s) : Loaded s

variable {s : Store} {name : String} {definition : ObjectDefinition}

theorem ordered_of_parsed {root : Json} (h : ofJson root = .ok s)
    (hdeclared : s.schemas.get? name = some (.object definition)) : definition.Ordered := by
  obtain ⟨_, -, hget⟩ := exists_schemas_of_ofJson h
  rw [hget] at hdeclared
  split at hdeclared
  · cases hdeclared
  · obtain ⟨value, -, hvalue⟩ := Option.map_eq_some_iff.mp hdeclared
    exact SchemaDefinition.ordered_of_ofJson hvalue

/-- Every loaded store has the schemas of a parsed document. -/
theorem Loaded.exists_parsed (h : s.Loaded) :
    ∃ root parsed, ofJson root = .ok parsed ∧ parsed.schemas = s.schemas := by
  cases h with
  | value h =>
      exact ⟨_, _, Except.mapError_eq_ok_iff.mp h, rfl⟩
  | text h =>
      obtain ⟨root, _, hroot⟩ := Except.bind_eq_ok_iff.mp (Except.mapError_eq_ok_iff.mp h)
      exact ⟨root, _, hroot, rfl⟩
  | file h =>
      obtain ⟨_, _, hread⟩ := Except.bind_eq_ok_iff.mp (Except.mapError_eq_ok_iff.mp h)
      split at hread
      all_goals
        simp only [Except.bind_eq_ok_iff] at hread
        obtain ⟨root, _, parsed, hparsed, hs⟩ := hread
        cases hs
        exact ⟨root, parsed, hparsed, rfl⟩

/-- The objects of a loaded store have their properties in order. -/
theorem Loaded.ordered (h : s.Loaded)
    (hdeclared : s.schemas.get? name = some (.object definition)) : definition.Ordered := by
  obtain ⟨_, parsed, hparsed, hschemas⟩ := h.exists_parsed
  rw [← hschemas] at hdeclared
  exact ordered_of_parsed hparsed hdeclared

end Store

end Taxonomy
