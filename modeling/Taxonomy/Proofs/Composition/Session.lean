import Taxonomy.Proofs.Composition.Memory

/-!
# Sessions of one compiler

A compiler serves any number of requests, for elements and for objects, and its memory goes
from each request to the next. The answers of a session are those of separate compilations: nothing
that an earlier request left behind, a failed one included, shows in a later answer.
-/

namespace Taxonomy

/-- A call of a compiler. -/
inductive Request
  | element (name : String) (overrides : ValueOverrides)
  | object (name : String) (overrides : ObjectOverrides)

namespace Store

variable {s : Store} {m : Memory}

/-- Serve one request from the memory. -/
def serve (s : Store) : Request → Remembering CompiledSchema
  | .element name overrides => do return .element (← s.compileElementOnce name overrides)
  | .object name overrides => do return .object (← s.compile name overrides)

/-- Serve requests one after the other: all answers, and the memory that is left. -/
def serveAll (s : Store) : List Request → Memory →
    List (Except TaxonomyError CompiledSchema) × Memory
  | [], m => ([], m)
  | request :: rest, m =>
    let served := s.serve request m
    let later := s.serveAll rest served.2
    (served.1 :: later.1, later.2)

/-- The answer to a request without any memory. -/
def afresh (s : Store) : Request → Except TaxonomyError CompiledSchema
  | .element name overrides => do return .element (← s.compileElement name overrides)
  | .object name overrides => do return .object (← s.compose name overrides)

/-- One request is served from a sound memory as it is answered without memory. -/
theorem serve_agrees (s : Store) (request : Request) :
    s.Agrees (s.serve request) (s.afresh request) := by
  cases request with
  | element name overrides =>
      exact (s.compileElementOnce_agrees name overrides).bind fun _ _ => Agrees.pure _
  | object name overrides =>
      exact (s.compile_agrees name overrides).bind fun _ _ => Agrees.pure _

/-- The memory stays sound from request to request, so every answer is the one without memory. -/
theorem serveAll_of_sound (hm : s.Sound m) (requests : List Request) :
    (s.serveAll requests m).1 = requests.map s.afresh ∧ s.Sound (s.serveAll requests m).2 := by
  induction requests generalizing m with
  | nil => exact ⟨rfl, hm⟩
  | cons request rest ih =>
      obtain ⟨hanswer, hsound⟩ := s.serve_agrees request m hm
      obtain ⟨hlater, hleft⟩ := ih hsound
      refine ⟨?_, hleft⟩
      simp only [serveAll, List.map_cons, hanswer, hlater]

/-- The memory that a session leaves behind is sound. -/
theorem sound_serveAll (s : Store) (requests : List Request) :
    s.Sound (s.serveAll requests {}).2 :=
  (serveAll_of_sound s.sound_empty requests).2

/-- After any requests an object compiles to what it composes to. -/
theorem compile_after (s : Store) (before : List Request) (name : String)
    (overrides : ObjectOverrides) :
    (s.compile name overrides (s.serveAll before {}).2).1 = s.compose name overrides :=
  (s.compile_agrees name overrides _ (s.sound_serveAll before)).1

/-- Memory is transparent: whatever is requested of one compiler, in whatever order, each request
has the answer, compiled schema or fault, that it has on its own and without memory. -/
theorem serveAll_eq_map_afresh (s : Store) (requests : List Request) :
    (s.serveAll requests {}).1 = requests.map s.afresh :=
  (serveAll_of_sound s.sound_empty requests).1

end Store

end Taxonomy
