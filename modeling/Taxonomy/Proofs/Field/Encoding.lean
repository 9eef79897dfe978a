import Mathlib.Data.Option.Basic
import Taxonomy.Field.Descriptor
import Taxonomy.Proofs.Decimal.Text
import Taxonomy.Proofs.Json.Record

/-!
# Descriptors read back from JSON

What is written of a descriptor is read back as an equal descriptor. Bounds are written as text with
every place, so they come back with their scale, and only a zero loses its sign. An absent option
and an empty list of choices have no member, and the reader takes the missing member for just that.
-/

namespace Taxonomy

open Json (Exact)

variable {depth : Nat}

namespace Decimal

theorem decode?_encode (d : Decimal) : decode? d.encode = some d.dropZeroSign :=
  read?_text d

theorem exact_encode (d : Decimal) : Exact depth d.encode :=
  .str d.text

/-- The sign of a zero does not count. -/
theorem same_dropZeroSign (d : Decimal) : d.same d.dropZeroSign = true := by
  by_cases hzero : d.mantissa = 0 <;> simp [same, units, dropZeroSign, hzero]

end Decimal

namespace Facet

theorem decode?_encode (facet : Facet) : decode? facet.encode = some facet := by
  cases facet <;> rfl

theorem exact_encode (facet : Facet) : Exact depth facet.encode :=
  .str facet.name

end Facet

namespace ValueKind

theorem decodeWord?_int {n : Nat} (h : n < 2 ^ 32) :
    decodeWord? (.int n) = some (UInt32.ofNat n) := by
  have hrange : 0 ≤ (n : Int) ∧ (n : Int) < (Nat.pow 2 32 : Nat) := by
    rw [Nat.pow_eq]
    omega
  rw [decodeWord?, if_pos hrange, Int.toNat_natCast]

theorem decodeWord?_encodeWord (n : UInt32) : decodeWord? (encodeWord n) = some n := by
  rw [encodeWord, decodeWord?_int n.toNat_lt, UInt32.ofNat_toNat]

/-- The limits are read from wherever they stand in the body. -/
theorem decodeDecimal?_encode {body : List (String × Json)} {maxDigits decimalPlaces : UInt32}
    (hdigits : Entries.lookup "max_digits" body = some (encodeWord maxDigits))
    (hplaces : Entries.lookup "decimal_places" body = some (encodeWord decimalPlaces)) :
    decodeDecimal? (.obj body) = some (decimal maxDigits decimalPlaces) := by
  have hread {field : String} {n : UInt32}
      (hlookup : Entries.lookup field body = some (encodeWord n)) :
      Json.Record.required? ⟨body, true⟩ field decodeWord? = some n :=
    Json.Record.required?_of_lookup hlookup (decodeWord?_encodeWord n)
  simp only [decodeDecimal?, Json.Record.ofJson?, Option.bind_eq_bind, Option.bind_some,
    hread hdigits, hread hplaces]

theorem decode?_of_tagged {value body : Json}
    (h : Json.tagged? "type" value = some ("decimal", body)) :
    decode? value = decodeDecimal? body := by
  rw [decode?, h]
  rfl

theorem decode?_encode (kind : ValueKind) : decode? kind.encode = some kind := by
  cases kind with
  | decimal maxDigits decimalPlaces =>
      rw [encode, decode?_of_tagged rfl]
      apply decodeDecimal?_encode <;> rfl
  | _ => rfl

theorem exact_encodeWord (n : UInt32) : Exact depth (encodeWord n) := by
  have hbound := n.toNat_lt
  exact .int (by omega) (by omega)

theorem exact_encode (kind : ValueKind) : Exact (depth + 1) kind.encode := by
  cases kind with
  | decimal maxDigits decimalPlaces =>
      refine .obj (by simp [Entries.Distinct]) ?_
      simp [Exact.str, exact_encodeWord]
  | _ =>
      refine .obj (by simp [Entries.Distinct]) ?_
      simp [Exact.str]

end ValueKind

namespace Choice

theorem decode?_encode (c : Choice) : decode? c.encode = some c := rfl

theorem exact_encode (c : Choice) : Exact (depth + 1) c.encode := by
  refine .obj (by simp [Entries.Distinct]) ?_
  simp [Exact.str]

end Choice

namespace FieldDefault

theorem decode?_encode (d : FieldDefault) : decode? d.encode = some d := by
  cases d
  rfl

end FieldDefault

namespace Constraints

variable {c : Constraints}

/-- The constraints with bounds that are no negative zeros. -/
def dropZeroSigns (c : Constraints) : Constraints :=
  { c with min := c.min.map Decimal.dropZeroSign, max := c.max.map Decimal.dropZeroSign }

/-- Equality of constraints. Bounds are equal as numbers and have the same number of places. -/
structure Same (c c' : Constraints) : Prop where
  min : Option.Rel (fun d d' => d.same d' = true ∧ d.scale = d'.scale) c.min c'.min
  max : Option.Rel (fun d d' => d.same d' = true ∧ d.scale = d'.scale) c.max c'.max
  others : { c' with min := c.min, max := c.max } = c

theorem same_dropZeroSigns (c : Constraints) : c.Same c.dropZeroSigns := by
  have hbound (bound : Option Decimal) :
      Option.Rel (fun d d' => d.same d' = true ∧ d.scale = d'.scale) bound
        (bound.map Decimal.dropZeroSign) := by
    cases bound with
    | none => exact .none
    | some d => exact .some ⟨d.same_dropZeroSign, rfl⟩
  exact ⟨hbound c.min, hbound c.max, rfl⟩

/-- No bound is a negative number. -/
def Unsigned (c : Constraints) : Prop :=
  (∀ d ∈ c.min, d.negative = false) ∧ ∀ d ∈ c.max, d.negative = false

theorem Unsigned.dropZeroSigns_eq_self (h : c.Unsigned) : c.dropZeroSigns = c := by
  have hbound {bound : Option Decimal} (hbound : ∀ d ∈ bound, d.negative = false) :
      bound.map Decimal.dropZeroSign = bound := by
    cases bound with
    | none => rfl
    | some d =>
        have hpositive := hbound d rfl
        rw [Option.map_some, Decimal.dropZeroSign_eq_self (by simp [hpositive])]
  rw [dropZeroSigns, hbound h.1, hbound h.2]

/-- The members that are written. -/
def members (c : Constraints) : List (String × Json) :=
  Json.memberIfSome "min" Decimal.encode c.min ++
    Json.memberIfSome "max" Decimal.encode c.max ++
    Json.memberIfSome "max_length" Json.ofNat c.maxLength ++
    Json.memberIfAny "choices" Choice.encode c.choices ++
    [("unique", .bool c.unique), ("immutable", .bool c.immutable), ("editable", .bool c.editable)] ++
    Json.memberIfSome "default" FieldDefault.encode c.default

theorem encode_eq (c : Constraints) : c.encode = .obj c.members := rfl

/-- A field is found under its name if it was written. -/
theorem lookup_members (c : Constraints) :
    Entries.lookup "min" c.members = c.min.map Decimal.encode ∧
      Entries.lookup "max" c.members = c.max.map Decimal.encode ∧
      Entries.lookup "max_length" c.members = c.maxLength.map Json.ofNat ∧
      (Entries.lookup "choices" c.members =
        if c.choices ≠ [] then some (.arr (c.choices.map Choice.encode)) else none) ∧
      Entries.lookup "unique" c.members = some (.bool c.unique) ∧
      Entries.lookup "immutable" c.members = some (.bool c.immutable) ∧
      Entries.lookup "editable" c.members = some (.bool c.editable) ∧
      Entries.lookup "default" c.members = c.default.map FieldDefault.encode := by
  simp [members, Entries.lookup_append, Entries.lookup_cons, Json.lookup_memberIfSome,
    Json.lookup_memberIfAny]

theorem decode?_encode (c : Constraints) : decode? c.encode = some c.dropZeroSigns := by
  obtain ⟨hmin, hmax, hmaxLength, hchoices, hunique, himmutable, heditable, hdefault⟩ :=
    c.lookup_members
  have hbound {field : String} {bound : Option Decimal}
      (hlookup : Entries.lookup field c.members = bound.map Decimal.encode) :
      Json.Record.optional? ⟨c.members, true⟩ field Decimal.decode? =
        some (bound.map Decimal.dropZeroSign) :=
    Json.Record.optional?_of_lookup rfl hlookup nofun fun d _ => d.decode?_encode
  have hlength : Json.Record.optional? ⟨c.members, true⟩ "max_length" Json.asLength? =
      some (c.maxLength.map id) :=
    Json.Record.optional?_of_lookup rfl hmaxLength nofun fun n _ => Json.asLength?_ofNat n
  have hlist : Json.Record.defaulted? ⟨c.members, true⟩ "choices" []
      (Json.asListOf? Choice.decode?) = some c.choices :=
    Json.Record.defaulted?_of_lookup hchoices fun choice _ => choice.decode?_encode
  have hinitial : Json.Record.optional? ⟨c.members, true⟩ "default" FieldDefault.decode? =
      some (c.default.map id) :=
    Json.Record.optional?_of_lookup rfl hdefault nofun fun d _ => d.decode?_encode
  simp only [encode_eq, decode?, Json.Record.ofJson?, Option.bind_eq_bind, Option.bind_some,
    hbound hmin, hbound hmax, hlength, hlist, hinitial, Json.Record.required?, hunique, himmutable,
    heditable, Json.asBool?, Option.map_id_fun, id_eq]
  rfl

/-- Whether a field is written. -/
def isWritten (c : Constraints) (field : String) : Bool :=
  match field with
  | "min" => c.min.isSome
  | "max" => c.max.isSome
  | "max_length" => c.maxLength.isSome
  | "choices" => !c.choices.isEmpty
  | "default" => c.default.isSome
  | _ => true

/-- The members are the fields that are present. -/
theorem memberNames_encode (c : Constraints) :
    c.encode.memberNames = fields.filter c.isWritten := by
  obtain ⟨min, max, maxLength, choices, unique, immutable, editable, default⟩ := c
  cases min <;> cases max <;> cases maxLength <;> cases choices <;> cases default <;> rfl

/-- The greatest length fits 64 bits. -/
def Sized (c : Constraints) : Prop :=
  ∀ n ∈ c.maxLength, n < 2 ^ 64

theorem exact_encode (h : c.Sized) : Exact (depth + 3) c.encode := by
  have hfields : fields.Nodup := by decide
  have hbools : ∀ member ∈ [("unique", Json.bool c.unique), ("immutable", .bool c.immutable),
      ("editable", .bool c.editable)], Exact (depth + 2) member.2 := by
    simp [Exact.bool]
  refine .obj (Json.distinct_of_memberNames hfields c.memberNames_encode) ?_
  simp only [List.forall_mem_append]
  exact ⟨⟨⟨⟨⟨Json.exact_memberIfSome fun d _ => d.exact_encode,
    Json.exact_memberIfSome fun d _ => d.exact_encode⟩,
    Json.exact_memberIfSome fun n hn => Json.exact_ofNat (h n hn)⟩,
    Json.exact_memberIfAny fun choice _ => choice.exact_encode⟩, hbools⟩,
    Json.exact_memberIfSome fun d _ => .str d.tag⟩

end Constraints

namespace FieldDescriptor

variable {f g : FieldDescriptor}

/-- Equality of descriptors. Bounds are compared as numbers and all else as it is. -/
structure Same (f g : FieldDescriptor) : Prop where
  constraints : f.constraints.Same g.constraints
  others : { g with constraints := f.constraints } = f

/-- A descriptor is read back as it was written, but for the sign of a zero among its bounds. -/
theorem decode?_encode (f : FieldDescriptor) :
    decode? f.encode = some { f with constraints := f.constraints.dropZeroSigns } := by
  simp [decode?, encode, Json.Record.ofJson?, Json.Record.required?, Entries.lookup_cons,
    Json.asString?, Json.asBool?, Facet.decode?_encode, ValueKind.decode?_encode,
    Constraints.decode?_encode]

theorem exact_encode (h : f.constraints.Sized) : Exact (depth + 4) f.encode := by
  refine .obj (by simp [Entries.Distinct]) ?_
  simp [Exact.str, Exact.bool, Facet.exact_encode, ValueKind.exact_encode,
    Constraints.exact_encode h]

end FieldDescriptor

end Taxonomy
