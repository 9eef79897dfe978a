import Taxonomy.Proofs.Element.Encoding
import Taxonomy.Proofs.Element.Outcome
import Taxonomy.Proofs.Json.Reader
import Taxonomy.Proofs.Usage.Encoding

/-!
# Compiled output read back from its text

A record is written as a JSON value, and the value as text. The value is read back as the record,
field by field, and the text is read back as the value, token by token. A text holds a greatest
length only if it fits 64 bits, which is what a length does on the machine.
-/

namespace Taxonomy

open Json (Exact)

variable {α : Type} {encode : α → Json} {decode? : Json → Option α} {sized : Prop} {a b : α}

/-- What is written of `a` is read as `b`, both from the JSON value and, if the lengths in it fit 64
bits, from the text of this value. -/
structure ReadAs (encode : α → Json) (decode? : Json → Option α) (sized : Prop) (a b : α) :
    Prop where
  value : decode? (encode a) = some b
  text : sized → (Json.read? (encode a).compact).bind decode? = some b

/-- The text of a value that it holds all of is read as the value is. -/
theorem ReadAs.of_exact (hvalue : decode? (encode a) = some b)
    (hexact : sized → Exact Json.Building.deepest (encode a)) : ReadAs encode decode? sized a b where
  value := hvalue
  text hsized := by rw [Json.read?_compact (hexact hsized), Option.bind_some, hvalue]

/-- Everything that is compiled is read back as it was written, descriptors up to the sign of a zero
among their bounds. Absent options and empty lists of choices have no member. -/
theorem Store.readAs_encode (s : Store) :
    (∀ name o e, s.compileElement name o = .ok e →
      ReadAs CompiledElement.encode CompiledElement.decode? e.Sized e e) ∧
    ReadAs UsageIndex.encode UsageIndex.decode? True (UsageIndex.build s) (UsageIndex.build s) ∧
    (∀ f : FieldDescriptor, ∃ g, f.Same g ∧
      ReadAs FieldDescriptor.encode FieldDescriptor.decode? f.constraints.Sized f g) ∧
    (∀ t : ItemType, ReadAs ItemType.encode ItemType.decode? True t t) ∧
    (∀ g : ItemTypeGroup, ReadAs ItemTypeGroup.encode ItemTypeGroup.decode? True g g) ∧
    (∀ o : ValueOverrides, ReadAs ValueOverrides.encode ValueOverrides.decode? o.Sized o o) ∧
    (∀ e : CompiledElement,
      e.encode.memberNames = CompiledElement.fields.filter e.isWritten) ∧
    (∀ c : Constraints, c.encode.memberNames = Constraints.fields.filter c.isWritten) ∧
    ∀ o : ValueOverrides, o.encode.memberNames = ValueOverrides.fields.filter o.isWritten := by
  refine ⟨?element, ?index, ?descriptor, ?itemType, ?group, ?overrides,
    CompiledElement.memberNames_encode, Constraints.memberNames_encode,
    ValueOverrides.memberNames_encode⟩
  case element =>
    intro name o e hcompile
    have hunsigned := unsigned_of_compileElement hcompile
    exact .of_exact (CompiledElement.decode?_encode hunsigned) CompiledElement.exact_encode
  case index =>
    have hordered := UsageIndex.wellFormed_build s
    exact .of_exact (UsageIndex.decode?_encode hordered) fun _ => UsageIndex.exact_encode _
  case descriptor =>
    intro f
    refine ⟨{ f with constraints := f.constraints.dropZeroSigns },
      ⟨f.constraints.same_dropZeroSigns, rfl⟩, ?_⟩
    exact .of_exact f.decode?_encode FieldDescriptor.exact_encode
  case itemType =>
    intro t
    exact .of_exact t.decode?_encode fun _ => t.exact_encode
  case group =>
    intro g
    exact .of_exact g.decode?_encode fun _ => g.exact_encode
  case overrides =>
    intro o
    exact .of_exact o.decode?_encode ValueOverrides.exact_encode

/-- A number between two bounds with a unit is read back from its text. -/
theorem Store.readAs_encode_batteries :
    ∃ e, batteries.compileElement "Charge" .unchanged = .ok e ∧ e.Sized ∧
      (Json.read? e.encode.compact).bind CompiledElement.decode? = some e := by
  have hcompiled : (fun e => e.facets.map (·.constraints.maxLength)) <$>
      batteries.compileElement "Charge" .unchanged =
        .ok [none, none, none, none, some 7, none] := by
    cbv
  obtain ⟨e, hcompile, hlengths⟩ := Except.map_eq_ok_iff.mp hcompiled
  have hsized : e.Sized := by
    intro f hf n hn
    have hmem : f.constraints.maxLength ∈ e.facets.map (·.constraints.maxLength) :=
      List.mem_map_of_mem hf
    rw [hlengths, Option.mem_def.mp hn] at hmem
    simp at hmem
    omega
  have hread := (readAs_encode batteries).1 "Charge" .unchanged e hcompile
  exact ⟨e, hcompile, hsized, hread.text hsized⟩

end Taxonomy
