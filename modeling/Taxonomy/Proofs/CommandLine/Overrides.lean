import Taxonomy.CommandLine.Report
import Taxonomy.Proofs.Composition.Override
import Taxonomy.Proofs.NameMap
import Taxonomy.Proofs.Text.Digits
import Taxonomy.Proofs.Text.Split

/-!
# Overrides on the command line

The options of a compilation give properties a greatest length or mark them as read-only. The
options are read in turn, and the first one that gives no length ends the command. Otherwise they
make a map in which every property has the last length that it was given; so the order of options
matters among those of one property only, and those of properties that are no elements of the
compiled object do not matter at all.
-/

namespace Taxonomy.CommandLine

variable {given property : String} {text : List Char} {n : Nat} {failure : Failure}

/-! ### One option -/

/-- The option is the property, an equals sign and a text; the first equals sign counts. -/
def Assigns (given property : String) (text : List Char) : Prop :=
  given.toList = property.toList ++ '=' :: text ∧ '=' ∉ property.toList

/-- The option gives the property a greatest length, which is a number of 64 bits. -/
def GivesLength (given property : String) (n : Nat) : Prop :=
  property ≠ "" ∧ ∃ text, Assigns given property text ∧ Text.DenotesUnsigned n text ∧ n < 2 ^ 64

/-- How an option fails to give a length. A number that cannot be read is reported before a property
without a name. -/
inductive Offends : String → Failure → Prop
  | form {given : String} (h : '=' ∉ given.toList) : Offends given (.maxLengthForm given)
  | number {given property : String} {text : List Char} {fault : Text.UnsignedFault}
      (h : Assigns given property text)
      (hfault : Text.readLength (String.ofList text) = .error fault) :
      Offends given (.maxLengthNumber property fault)
  | property {given : String} {text : List Char} {n : Nat} (h : Assigns given "" text)
      (hnumber : Text.DenotesUnsigned n text) (hbound : n < 2 ^ 64) :
      Offends given (.maxLengthForm given)

/-- The property that an option is about: what stands before the first equals sign. -/
def propertyOf (given : String) : String :=
  String.ofList (given.toList.takeWhile (· != '='))

theorem propertyOf_of_assigns (h : Assigns given property text) : propertyOf given = property := by
  obtain ⟨hgiven, hproperty⟩ := h
  have hall : ∀ c ∈ property.toList, (c != '=') = true := by
    intro c hc
    rw [bne_iff_ne]
    rintro rfl
    exact hproperty hc
  rw [propertyOf, hgiven, List.takeWhile_append_of_pos hall]
  simp

theorem propertyOf_of_givesLength (h : GivesLength given property n) :
    propertyOf given = property := by
  obtain ⟨-, text, hassigns, -⟩ := h
  exact propertyOf_of_assigns hassigns

theorem cutAt?_of_assigns (h : Assigns given property text) :
    Text.cutAt? (· == '=') given.toList = some (property.toList, text) := by
  refine Text.cutAt?_eq_some_iff.mpr ⟨'=', rfl, h.1, ?_⟩
  intro c hc
  rw [beq_eq_false_iff_ne]
  rintro rfl
  exact h.2 hc

/-- An option that has an equals sign assigns a text to what stands before the first one. -/
theorem assigns_or_not_mem (given : String) :
    (∃ property text, Assigns given property text) ∨ '=' ∉ given.toList := by
  cases hcut : Text.cutAt? (· == '=') given.toList with
  | none =>
      refine .inr fun hmem => ?_
      have hno := Text.cutAt?_eq_none_iff.mp hcut '=' hmem
      simp at hno
  | some parts =>
      obtain ⟨front, rest⟩ := parts
      obtain ⟨c, hc, hgiven, hfront⟩ := Text.cutAt?_eq_some_iff.mp hcut
      obtain rfl : c = '=' := by simpa using hc
      refine .inl ⟨String.ofList front, rest, by simpa using hgiven, ?_⟩
      intro hmem
      have hno := hfront '=' (by simpa using hmem)
      simp at hno

namespace CompileRequest

theorem readMaxLength_of_fault {fault : Text.UnsignedFault} (h : Assigns given property text)
    (hfault : Text.readLength (String.ofList text) = .error fault) :
    readMaxLength given = .error (.maxLengthNumber property fault) := by
  rw [readMaxLength, cutAt?_of_assigns h]
  simp only [String.ofList_toList, hfault]

theorem readMaxLength_of_number (h : Assigns given property text)
    (hnumber : Text.DenotesUnsigned n text) (hbound : n < 2 ^ 64) :
    readMaxLength given =
      if property = "" then .error (.maxLengthForm given) else .ok (property, n) := by
  have hlength : Text.readLength (String.ofList text) = .ok n := by
    rw [Text.readLength_eq_ok_iff, String.toList_ofList]
    exact ⟨hnumber, hbound⟩
  rw [readMaxLength, cutAt?_of_assigns h]
  simp only [String.ofList_toList, hlength]

theorem readMaxLength_of_givesLength (h : GivesLength given property n) :
    readMaxLength given = .ok (property, n) := by
  obtain ⟨hname, text, hassigns, hnumber, hbound⟩ := h
  rw [readMaxLength_of_number hassigns hnumber hbound, if_neg hname]

theorem readMaxLength_of_offends (h : Offends given failure) :
    readMaxLength given = .error failure := by
  cases h with
  | form hno =>
      have hcut : Text.cutAt? (· == '=') given.toList = none := by
        refine Text.cutAt?_eq_none fun c hc => ?_
        rw [beq_eq_false_iff_ne]
        rintro rfl
        exact hno hc
      rw [readMaxLength, hcut]
  | number hassigns hfault => exact readMaxLength_of_fault hassigns hfault
  | property hassigns hnumber hbound =>
      rw [readMaxLength_of_number hassigns hnumber hbound, if_pos rfl]

/-- An option gives a length, or it offends. -/
theorem givesLength_or_offends (given : String) :
    (∃ property n, GivesLength given property n) ∨ ∃ failure, Offends given failure := by
  rcases assigns_or_not_mem given with ⟨property, text, hassigns⟩ | hno
  · cases hlength : Text.readLength (String.ofList text) with
    | error fault => exact .inr ⟨_, .number hassigns hlength⟩
    | ok n =>
        obtain ⟨hnumber, hbound⟩ := Text.readLength_eq_ok_iff.mp hlength
        rw [String.toList_ofList] at hnumber
        by_cases hname : property = ""
        · subst hname
          exact .inr ⟨_, .property hassigns hnumber hbound⟩
        · exact .inl ⟨property, n, hname, text, hassigns, hnumber, hbound⟩
  · exact .inr ⟨_, .form hno⟩

/-! ### All options -/

variable {r r' : CompileRequest} {specs rest : List String} {o o' : ObjectOverrides}

/-- Every option gives some property a length. -/
def AllGiveLengths (specs : List String) : Prop :=
  ∀ given ∈ specs, ∃ property n, GivesLength given property n

/-- The failure is that of the first option that gives no length. -/
def FirstOffends (specs : List String) (failure : Failure) : Prop :=
  ∃ before given after, specs = before ++ given :: after ∧ AllGiveLengths before ∧
    Offends given failure

/-- The options that are about a property, in their order. -/
def specsOf (property : String) (specs : List String) : List String :=
  specs.filter fun given => propertyOf given == property

/-- The last option about the property gives it this length. -/
def LastGives (specs : List String) (property : String) (n : Nat) : Prop :=
  ∃ given ∈ (specsOf property specs).getLast?, GivesLength given property n

theorem addMaxLengths_cons (h : GivesLength given property n) :
    addMaxLengths o (given :: rest) =
      addMaxLengths (o.alter property fun old => { old.getD .unchanged with maxLength := some n })
        rest := by
  rw [addMaxLengths, readMaxLength_of_givesLength h, Except.ok_bind]

/-- The options are added if all of them give lengths. -/
theorem exists_addMaxLengths (h : AllGiveLengths specs) (o : ObjectOverrides) :
    ∃ o', addMaxLengths o specs = .ok o' := by
  induction specs generalizing o with
  | nil => exact ⟨o, rfl⟩
  | cons given rest ih =>
      obtain ⟨⟨property, n, hgives⟩, hrest⟩ := List.forall_mem_cons.mp h
      rw [addMaxLengths_cons hgives]
      exact ih hrest _

/-- The first option that offends ends the addition. -/
theorem addMaxLengths_of_firstOffends (h : FirstOffends specs failure) (o : ObjectOverrides) :
    addMaxLengths o specs = .error failure := by
  obtain ⟨before, given, after, rfl, hbefore, hoffends⟩ := h
  induction before generalizing o with
  | nil =>
      rw [List.nil_append, addMaxLengths, readMaxLength_of_offends hoffends, Except.error_bind]
  | cons first before ih =>
      obtain ⟨⟨property, n, hgives⟩, hrest⟩ := List.forall_mem_cons.mp hbefore
      rw [List.cons_append, addMaxLengths_cons hgives]
      exact ih _ hrest

theorem allGiveLengths_or_firstOffends (specs : List String) :
    AllGiveLengths specs ∨ ∃ failure, FirstOffends specs failure := by
  induction specs with
  | nil => exact .inl fun _ h => absurd h List.not_mem_nil
  | cons given rest ih =>
      rcases givesLength_or_offends given with hgives | ⟨failure, hoffends⟩
      · rcases ih with hrest | ⟨failure, before, bad, after, rfl, hbefore, hoffends⟩
        · exact .inl (List.forall_mem_cons.mpr ⟨hgives, hrest⟩)
        · exact .inr ⟨failure, given :: before, bad, after, rfl,
            List.forall_mem_cons.mpr ⟨hgives, hbefore⟩, hoffends⟩
      · exact .inr ⟨failure, [], given, rest, rfl, fun _ h => absurd h List.not_mem_nil, hoffends⟩

theorem addMaxLengths_eq_ok_iff :
    (∃ o', addMaxLengths o specs = .ok o') ↔ AllGiveLengths specs := by
  refine ⟨fun ⟨o', ho'⟩ => ?_, fun h => exists_addMaxLengths h o⟩
  rcases allGiveLengths_or_firstOffends specs with hall | ⟨failure, hoffends⟩
  · exact hall
  · rw [addMaxLengths_of_firstOffends hoffends o] at ho'
    cases ho'

theorem addMaxLengths_eq_error_iff :
    addMaxLengths o specs = .error failure ↔ FirstOffends specs failure := by
  refine ⟨fun h => ?_, fun h => addMaxLengths_of_firstOffends h o⟩
  rcases allGiveLengths_or_firstOffends specs with hall | ⟨found, hoffends⟩
  · obtain ⟨o', ho'⟩ := exists_addMaxLengths hall o
    rw [ho'] at h
    cases h
  · rw [addMaxLengths_of_firstOffends hoffends o] at h
    cases h
    exact hoffends

/-! ### The map of the options -/

theorem specsOf_cons_of_eq (h : propertyOf given = property) :
    specsOf property (given :: rest) = given :: specsOf property rest := by
  rw [specsOf, List.filter_cons_of_pos (by simpa using h), specsOf]

theorem specsOf_cons_of_ne (h : propertyOf given ≠ property) :
    specsOf property (given :: rest) = specsOf property rest := by
  rw [specsOf, List.filter_cons_of_neg (by simpa using h), specsOf]

theorem GivesLength.unique {m : Nat} (h : GivesLength given property n)
    (h' : GivesLength given property m) : n = m := by
  have heq := (readMaxLength_of_givesLength h).symm.trans (readMaxLength_of_givesLength h')
  cases heq
  rfl

theorem LastGives.unique {m : Nat} (h : LastGives specs property n)
    (h' : LastGives specs property m) : n = m := by
  obtain ⟨given, hlast, hgives⟩ := h
  obtain ⟨given', hlast', hgives'⟩ := h'
  cases Option.mem_unique hlast hlast'
  exact GivesLength.unique hgives hgives'

/-- A length that is given last among the later options is given last. -/
theorem LastGives.cons (h : LastGives rest property n) : LastGives (given :: rest) property n := by
  obtain ⟨last, hlast, hgives⟩ := h
  refine ⟨last, ?_, hgives⟩
  by_cases hsame : propertyOf given = property
  · rw [specsOf_cons_of_eq hsame]
    exact List.mem_getLast?_cons hlast
  · rwa [specsOf_cons_of_ne hsame]

theorem get?_alter (o : ObjectOverrides) (name other : String)
    (change : Option ValueOverrides → ValueOverrides) :
    (o.alter name change).get? other =
      if name = other then some (change (o.get? name)) else o.get? other :=
  NameMap.get?_insert o name other _

/-- Adding lengths leaves a property alone that no option is about, and gives every other property
the length that is given last. -/
theorem get?_of_addMaxLengths (hall : AllGiveLengths specs)
    (h : addMaxLengths o specs = .ok o') (property : String) :
    (specsOf property specs = [] ∧ o'.get? property = o.get? property) ∨
      ∃ n, LastGives specs property n ∧
        o'.get? property = some { (o.get? property).getD .unchanged with maxLength := some n } := by
  induction specs generalizing o with
  | nil =>
      cases h
      exact .inl ⟨rfl, rfl⟩
  | cons given rest ih =>
      obtain ⟨⟨name, k, hgives⟩, hrest⟩ := List.forall_mem_cons.mp hall
      rw [addMaxLengths_cons hgives] at h
      have hname := propertyOf_of_givesLength hgives
      rcases ih hrest h with ⟨hnone, hkept⟩ | ⟨n, hlast, hset⟩
      · rw [get?_alter] at hkept
        by_cases hsame : name = property
        · subst hsame
          rw [if_pos rfl] at hkept
          refine .inr ⟨k, ⟨given, ?_, hgives⟩, hkept⟩
          rw [specsOf_cons_of_eq hname, hnone]
          rfl
        · rw [if_neg hsame] at hkept
          refine .inl ⟨?_, hkept⟩
          rw [specsOf_cons_of_ne (by rwa [hname]), hnone]
      · refine .inr ⟨n, hlast.cons, ?_⟩
        rw [hset, get?_alter]
        by_cases hsame : name = property
        · subst hsame
          simp
        · rw [if_neg hsame]

/-- Mark a property as read-only. -/
def markReadOnly (o : ObjectOverrides) (property : String) : ObjectOverrides :=
  o.alter property fun old => { old.getD .unchanged with editable := some false }

theorem overrides_eq (r : CompileRequest) :
    r.overrides = (do
      let lengths ← addMaxLengths .empty r.maxLength
      return r.readOnly.foldl markReadOnly lengths) := rfl

/-- Marking is the same however often a property is marked, and in whatever order. -/
theorem get?_foldl_markReadOnly (names : List String) (o : ObjectOverrides) (property : String) :
    (names.foldl markReadOnly o).get? property =
      if property ∈ names then
        some { (o.get? property).getD .unchanged with editable := some false }
      else o.get? property := by
  induction names generalizing o with
  | nil => simp
  | cons name names ih =>
      rw [List.foldl_cons, ih, markReadOnly, get?_alter]
      by_cases hsame : name = property
      · subst hsame
        simp
      · simp [hsame, Ne.symm hsame]

/-- The map has the properties that some option names. A property has the length that is given last,
if any is given, it may not be edited if it is marked as read-only, and it has nothing else. -/
structure LastWins (r : CompileRequest) (o : ObjectOverrides) : Prop where
  named : ∀ property, (o.get? property).isSome = true ↔
    specsOf property r.maxLength ≠ [] ∨ property ∈ r.readOnly
  maxLength : ∀ property v, o.get? property = some v →
    ∀ n, v.maxLength = some n ↔ LastGives r.maxLength property n
  editable : ∀ property v, o.get? property = some v →
    v.editable = if property ∈ r.readOnly then some false else none
  unique : ∀ property v, o.get? property = some v → v.unique = none

theorem exists_overrides_iff :
    (∃ o, r.overrides = .ok o) ↔ AllGiveLengths r.maxLength := by
  rw [overrides_eq, ← addMaxLengths_eq_ok_iff (o := .empty)]
  simp only [Except.bind_eq_ok_iff, Except.pure_eq_ok, Except.ok.injEq]
  exact ⟨fun ⟨_, lengths, h, _⟩ => ⟨lengths, h⟩, fun ⟨lengths, h⟩ => ⟨_, lengths, h, rfl⟩⟩

theorem overrides_eq_error_iff :
    r.overrides = .error failure ↔ FirstOffends r.maxLength failure := by
  rw [overrides_eq, Except.bind_eq_error_iff, ← addMaxLengths_eq_error_iff (o := .empty)]
  simp

/-- What the options give one property. -/
theorem get?_of_overrides (h : r.overrides = .ok o) (property : String) :
    ∃ length : Option Nat, (∀ n, length = some n ↔ LastGives r.maxLength property n) ∧
      (length.isSome = true ↔ specsOf property r.maxLength ≠ []) ∧
      o.get? property =
        if property ∈ r.readOnly then some { maxLength := length, editable := some false }
        else length.map fun n => { maxLength := some n } := by
  have hall := exists_overrides_iff.mp ⟨o, h⟩
  rw [overrides_eq, Except.bind_eq_ok_iff] at h
  obtain ⟨lengths, hlengths, h⟩ := h
  cases h
  rcases get?_of_addMaxLengths hall hlengths property with ⟨hnone, hkept⟩ | ⟨n, hlast, hset⟩
  · refine ⟨none, fun n => ?_, by simp [hnone], ?_⟩
    · simp [LastGives, hnone]
    · rw [get?_foldl_markReadOnly, hkept]
      rfl
  · refine ⟨some n, fun m => ?_, ?_, ?_⟩
    · exact ⟨fun hm => Option.some.inj hm ▸ hlast, fun hm => congrArg some (hlast.unique hm)⟩
    · obtain ⟨given, hgiven, -⟩ := hlast
      have hne : specsOf property r.maxLength ≠ [] := by
        intro hnil
        rw [hnil] at hgiven
        cases hgiven
      simp [hne]
    · rw [get?_foldl_markReadOnly, hset]
      rfl

/-- A property that has overrides has the last length that it was given and the mark that it was
given. -/
theorem eq_of_get?_overrides {v : ValueOverrides} (h : r.overrides = .ok o)
    (hv : o.get? property = some v) :
    ∃ length : Option Nat, (∀ n, length = some n ↔ LastGives r.maxLength property n) ∧
      v = { maxLength := length
            editable := if property ∈ r.readOnly then some false else none } := by
  obtain ⟨length, hlast, -, hget⟩ := get?_of_overrides h property
  refine ⟨length, hlast, ?_⟩
  rw [hget] at hv
  by_cases hmem : property ∈ r.readOnly
  · rw [if_pos hmem] at hv ⊢
    exact (Option.some.inj hv).symm
  · rw [if_neg hmem] at hv ⊢
    obtain ⟨n, rfl, rfl⟩ := Option.map_eq_some_iff.mp hv
    rfl

/-- The map of the options is that in which the last length of a property wins. -/
theorem lastWins_of_overrides (h : r.overrides = .ok o) : r.LastWins o where
  named property := by
    obtain ⟨length, -, hsome, hget⟩ := get?_of_overrides h property
    rw [hget, ← hsome]
    by_cases hmem : property ∈ r.readOnly <;> simp [hmem]
  maxLength property v hv := by
    obtain ⟨length, hlast, rfl⟩ := eq_of_get?_overrides h hv
    exact hlast
  editable property v hv := by
    obtain ⟨length, -, rfl⟩ := eq_of_get?_overrides h hv
    rfl
  unique property v hv := by
    obtain ⟨length, -, rfl⟩ := eq_of_get?_overrides h hv
    rfl

/-! ### What the order of options decides -/

/-- The requests say the same of a property. -/
def AgreeOn (r r' : CompileRequest) (property : String) : Prop :=
  specsOf property r.maxLength = specsOf property r'.maxLength ∧
    (property ∈ r.readOnly ↔ property ∈ r'.readOnly)

instance decidableAgreeOn (r r' : CompileRequest) (property : String) :
    Decidable (AgreeOn r r' property) :=
  inferInstanceAs (Decidable (_ ∧ _))

/-- Requests that say the same of a property give it the same overrides. -/
theorem get?_of_agreeOn (h : r.overrides = .ok o) (h' : r'.overrides = .ok o')
    (hagree : AgreeOn r r' property) : o.get? property = o'.get? property := by
  obtain ⟨length, hlast, -, hget⟩ := get?_of_overrides h property
  obtain ⟨length', hlast', -, hget'⟩ := get?_of_overrides h' property
  have hsame : length = length' := by
    refine Option.ext fun n => ?_
    rw [hlast, hlast', LastGives, LastGives, hagree.1]
  rw [hget, hget', hsame]
  simp only [hagree.2]

/-- The other request has the same options in another order, in which the options about one property
follow each other as before. -/
structure Reordered (r r' : CompileRequest) : Prop where
  name : r'.name = r.name
  maxLength : r'.maxLength.Perm r.maxLength
  kept : ∀ property, specsOf property r'.maxLength = specsOf property r.maxLength
  readOnly : r'.readOnly.Perm r.readOnly

theorem Reordered.overrides_eq (h : r.Reordered r') (hall : AllGiveLengths r.maxLength) :
    r'.overrides = r.overrides := by
  have hall' : AllGiveLengths r'.maxLength := fun given hgiven =>
    hall given (h.maxLength.mem_iff.mp hgiven)
  obtain ⟨o, ho⟩ := exists_overrides_iff.mpr hall
  obtain ⟨o', ho'⟩ := exists_overrides_iff.mpr hall'
  have hsame : o' = o := NameMap.ext_get? fun property =>
    get?_of_agreeOn ho' ho ⟨h.kept property, h.readOnly.mem_iff⟩
  rw [ho, ho', hsame]

end CompileRequest

open CompileRequest

variable {s : Store} {r r' : CompileRequest} {definition : ObjectDefinition}

/-- Only the name and the overrides of a request are compiled. -/
theorem compiledJson_congr (hname : r'.name = r.name) (h : r'.overrides = r.overrides) :
    compiledJson s r' = compiledJson s r := by
  rw [compiledJson, compiledJson, hname, h]

/-- Of an object the output is what it composes to with the overrides. -/
theorem compiledJson_of_object {o : ObjectOverrides} (ho : r.overrides = .ok o)
    (hentry : s.schemas.get? r.name = some (.object definition)) :
    compiledJson s r = (fun c : CompiledObject =>
      Json.obj [("kind", SchemaKind.object.encode), ("schema", c.encode)]) <$>
        orFail (s.compose r.name o) := by
  have hcompile : (s.compile r.name o {}).1 = s.compose r.name o := s.compile_after [] r.name o
  have hkind : orFail (Except.ok SchemaKind.object) = .ok SchemaKind.object := rfl
  rw [compiledJson, ho, Store.classify_of_object hentry, map_eq_pure_bind]
  simp only [Except.ok_bind, hkind, hcompile, pure_bind]

/-- Of an object only the options about its elements are compiled. -/
theorem compiledJson_of_agreeOn {o o' : ObjectOverrides} (hname : r'.name = r.name)
    (ho : r.overrides = .ok o) (ho' : r'.overrides = .ok o')
    (hentry : s.schemas.get? r.name = some (.object definition))
    (h : ∀ p ∈ definition.properties, s.elementOf? p.target ≠ none → AgreeOn r' r p.name) :
    compiledJson s r' = compiledJson s r := by
  have hcompose : s.compose r.name o' = s.compose r.name o := by
    refine Store.compose_congr_overrides fun found hfound p hp helement => ?_
    cases hentry.symm.trans hfound
    rw [ObjectOverrides.at, ObjectOverrides.at, get?_of_agreeOn ho' ho (h p hp helement)]
  rw [compiledJson_of_object ho hentry, compiledJson_of_object ho' (hname ▸ hentry), hname,
    hcompose]

/-- Options are read in turn. They are accepted exactly if every length option is a property that is
not empty, an equals sign and a number of 64 bits, and otherwise the first one that is not decides
the failure. Accepted options make the map in which the last length of a property wins. So the same
options in another order, in which those about one property follow each other as before, give the
same output or the same failure; and for an object the options about the properties that name
elements decide the output. -/
theorem overrides_last_wins (s : Store) (r r' : CompileRequest) :
    ((∃ o, r.overrides = .ok o) ↔ AllGiveLengths r.maxLength) ∧
    (∀ failure, r.overrides = .error failure ↔ FirstOffends r.maxLength failure) ∧
    (∀ o, r.overrides = .ok o → r.LastWins o) ∧
    (AllGiveLengths r.maxLength → r.Reordered r' → compiledJson s r' = compiledJson s r) ∧
    (AllGiveLengths r.maxLength → AllGiveLengths r'.maxLength → r'.name = r.name →
      ∀ definition, s.schemas.get? r.name = some (.object definition) →
        (∀ p ∈ definition.properties, s.elementOf? p.target ≠ none → AgreeOn r' r p.name) →
          compiledJson s r' = compiledJson s r) := by
  refine ⟨exists_overrides_iff, fun _ => overrides_eq_error_iff, fun _ => lastWins_of_overrides,
    fun hall hreordered => ?_, fun hall hall' hname definition hentry hagree => ?_⟩
  · exact compiledJson_congr hreordered.name (hreordered.overrides_eq hall)
  · obtain ⟨o, ho⟩ := exists_overrides_iff.mpr hall
    obtain ⟨o', ho'⟩ := exists_overrides_iff.mpr hall'
    exact compiledJson_of_agreeOn hname ho ho' hentry hagree

/-- A gauge has a name and a title, which are labels both, and parts that are gauges. -/
def gauges : Store where
  source := none
  schemas := .ofList [
    ("Gauge", .object ⟨none, "", [⟨"Name", .schema "Label"⟩, ⟨"Parts", .array "Gauge"⟩,
      ⟨"Title", .schema "Label"⟩]⟩),
    ("Label", .element ⟨"TaxonomyElementString", "", "String", none⟩)]
  itemTypes := .ofList [("String", .obj [])]
  itemTypeGroups := .empty

/-- Two lengths for one property, with one for another between them. -/
def twoNames : CompileRequest where
  name := "Gauge"
  maxLength := ["Name=16", "Title=8", "Name=32"]
  readOnly := ["Title"]

/-- The lengths of the name are still in their order. -/
def titleFirst : CompileRequest :=
  { twoNames with maxLength := ["Title=8", "Name=16", "Name=32"] }

/-- Options about the parts, which are no element. -/
def partsToo : CompileRequest :=
  { twoNames with maxLength := "Parts=4" :: twoNames.maxLength, readOnly := ["Parts", "Title"] }

/-- Two names are given their last lengths, and a title that may not be edited. -/
def lastLengths : ObjectOverrides :=
  .ofList [("Name", { maxLength := some 32 }),
    ("Title", { maxLength := some 8, editable := some false })]

theorem overrides_twoNames : twoNames.overrides = .ok lastLengths := rfl

theorem allGiveLengths_partsToo : AllGiveLengths partsToo.maxLength :=
  exists_overrides_iff.mp ⟨.ofList [("Name", { maxLength := some 32 }),
    ("Parts", { maxLength := some 4, editable := some false }),
    ("Title", { maxLength := some 8, editable := some false })], rfl⟩

theorem reordered_twoNames : twoNames.Reordered titleFirst where
  name := rfl
  maxLength := List.Perm.swap "Name=16" "Title=8" ["Name=32"]
  kept property := by
    have hname : propertyOf "Name=16" = "Name" := by decide
    have htitle : propertyOf "Title=8" = "Title" := by decide
    by_cases hproperty : "Name" = property
    · subst hproperty
      simp [specsOf, twoNames, titleFirst, List.filter_cons, hname, htitle]
    · simp [specsOf, twoNames, titleFirst, List.filter_cons, hname, hproperty]
  readOnly := .refl _

/-- The name gets its last length and the title, which may not be edited, its only one. The order of
options about different properties and options about the parts change nothing of the output, and an
option without a number is at fault before one without a property. -/
theorem overrides_last_wins_twoNames :
    (∃ o c, twoNames.overrides = .ok o ∧ twoNames.LastWins o ∧
      o.entries = [("Name", { maxLength := some 32 }),
        ("Title", { maxLength := some 8, editable := some false })] ∧
      gauges.compose "Gauge" o = .ok c ∧
      c.elements.map (fun e => (e.1, e.2.value?.map fun f =>
        (f.constraints.maxLength, f.constraints.editable))) =
          [("Name", some (some 32, true)), ("Title", some (some 8, false))] ∧
      compiledJson gauges twoNames =
        .ok (.obj [("kind", SchemaKind.object.encode), ("schema", c.encode)])) ∧
    (AllGiveLengths twoNames.maxLength ∧ twoNames.Reordered titleFirst ∧
      compiledJson gauges titleFirst = compiledJson gauges twoNames) ∧
    (AgreeOn partsToo twoNames "Name" ∧ AgreeOn partsToo twoNames "Title" ∧
      ¬ AgreeOn partsToo twoNames "Parts" ∧
      compiledJson gauges partsToo = compiledJson gauges twoNames) ∧
    FirstOffends ["Name=16", "Title=x", "=1"] (.maxLengthNumber "Title" .invalidDigit) := by
  have hlengths : (fun c : CompiledObject => c.elements.map fun e => (e.1, e.2.value?.map fun f =>
      (f.constraints.maxLength, f.constraints.editable))) <$> gauges.compose "Gauge" lastLengths =
        .ok [("Name", some (some 32, true)), ("Title", some (some 8, false))] := by
    cbv
  obtain ⟨c, hcompose, hlengths⟩ := Except.map_eq_ok_iff.mp hlengths
  have hentry : gauges.schemas.get? "Gauge" = some (.object ⟨none, "", [⟨"Name", .schema "Label"⟩,
      ⟨"Parts", .array "Gauge"⟩, ⟨"Title", .schema "Label"⟩]⟩) := rfl
  have hall : AllGiveLengths twoNames.maxLength := exists_overrides_iff.mp ⟨_, overrides_twoNames⟩
  have hname : AgreeOn partsToo twoNames "Name" := by decide
  have htitle : AgreeOn partsToo twoNames "Title" := by decide
  have hparts : ¬ AgreeOn partsToo twoNames "Parts" := by decide
  obtain ⟨-, -, hlast, hreordered, -⟩ := overrides_last_wins gauges twoNames titleFirst
  obtain ⟨-, -, -, -, helements⟩ := overrides_last_wins gauges twoNames partsToo
  have hbad : { twoNames with maxLength := ["Name=16", "Title=x", "=1"] }.overrides =
      .error (.maxLengthNumber "Title" .invalidDigit) := rfl
  refine ⟨⟨_, c, overrides_twoNames, hlast _ overrides_twoNames, rfl, hcompose, hlengths, ?output⟩,
    ⟨hall, reordered_twoNames, hreordered hall reordered_twoNames⟩,
    ⟨hname, htitle, hparts, ?parts⟩,
    ((overrides_last_wins gauges _ twoNames).2.1 _).mp hbad⟩
  case output =>
    rw [compiledJson_of_object overrides_twoNames hentry]
    show _ <$> orFail (gauges.compose "Gauge" _) = _
    rw [hcompose]
    rfl
  case parts =>
    refine helements hall allGiveLengths_partsToo rfl _ hentry ?_
    simp only [List.forall_mem_cons]
    exact ⟨fun _ => hname, fun h => absurd rfl h, fun _ => htitle, List.forall_mem_nil _⟩

end Taxonomy.CommandLine
