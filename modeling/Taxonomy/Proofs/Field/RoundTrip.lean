import Taxonomy.Json.Writer
import Taxonomy.Proofs.Calendar.Date
import Taxonomy.Proofs.Decimal.Text
import Taxonomy.Proofs.Field.Check
import Taxonomy.Proofs.Json.Number
import Taxonomy.Proofs.RecordId.Text

/-!
# Stored values read back from JSON

What a column accepts survives being written to JSON and read again. The reader knows the kind of
the column and not the kind of the value, so a value of another kind that the column accepts comes
back as one of the column's own: a whole number as a decimal, a canonical text as an identifier.
-/

namespace Taxonomy

/-- A whole number of 64 bits is written as the decimal that it is. -/
theorem Json.compact_int (n : Int64) : (Json.int n.toInt).compact = (Decimal.ofInt64 n).text := by
  apply String.toList_injective
  have hcompact : (Json.int n.toInt).compact.toList = (toString n.toInt).toList :=
    String.toList_ofList
  have hdigits : (Decimal.ofInt64 n).digitText = Nat.toDigits 10 n.toInt.natAbs := by
    rw [← Text.zeroPadded_one]
    rfl
  have hsign : (Decimal.ofInt64 n).negative = decide (n.toInt < 0) := rfl
  rw [hcompact, toList_toString_int, Decimal.toList_text, hdigits, hsign]
  simp only [decide_eq_true_eq]

namespace FieldDescriptor

variable {f : FieldDescriptor} {v w : FacetValue}

/-- What a value of a column may come back as. Decimals keep their number and their scale. A whole
number in a decimal column comes back as a decimal of that number, and a text in an identifier
column as the identifier that it denotes and that is written like it, in lower case. Any other value
comes back as it is. -/
def ComesBackAs (kind : ValueKind) (v w : FacetValue) : Prop :=
  match kind, v with
  | .decimal _ _, .decimal d => ∃ e, w = .decimal e ∧ e.value = d.value ∧ e.scale = d.scale
  | .decimal _ _, .integer n => ∃ e, w = .decimal e ∧ e.value = n.toInt ∧ e.scale = 0
  | .uuid, .string s => ∃ id, w = .uuid id ∧ RecordId.read? s = some id ∧ id.text = s.toLower
  | _, v => w = v

theorem int64?_toInt (n : Int64) : int64? n.toInt = some n := by
  have hlow := n.le_toInt
  have hhigh := n.toInt_lt
  have hmin : Int64.minValue.toInt = -2 ^ 63 := by decide
  have hmax : Int64.maxValue.toInt = 2 ^ 63 - 1 := by decide
  rw [int64?, if_pos, Int64.ofInt_toInt]
  rw [hmin, hmax]
  omega

/-- The value that a column accepts is read back from its JSON. -/
theorem exists_valueOf?_toJson (hkind : f.kind ≠ .dateTime) (hadmits : f.Admits v) :
    ∃ w, valueOf? f.kind v.toJson = some w ∧ ComesBackAs f.kind v w := by
  rcases hadmits with ⟨rfl, -⟩ | hadmits
  · refine ⟨.null, ?_, ?_⟩ <;> cases f.kind <;> rfl
  · cases hk : f.kind with
    | boolean =>
        rw [hk] at hadmits
        obtain ⟨b, rfl⟩ := hadmits
        exact ⟨.boolean b, rfl, rfl⟩
    | integer =>
        rw [hk] at hadmits
        obtain ⟨n, rfl, -⟩ := hadmits
        refine ⟨.integer n, ?_, rfl⟩
        show (int64? n.toInt).map FacetValue.integer = _
        rw [int64?_toInt, Option.map_some]
    | decimal maxDigits decimalPlaces =>
        rw [hk] at hadmits
        obtain ⟨q, hnumber, -⟩ := hadmits
        cases v with
        | integer n =>
            refine ⟨.decimal (.ofInt64 n), ?_, .ofInt64 n, rfl, Decimal.value_ofInt64 n, rfl⟩
            show (Decimal.read? (Json.int n.toInt).compact).map FacetValue.decimal = _
            rw [Json.compact_int, Decimal.read?_text, Decimal.dropZeroSign_ofInt64, Option.map_some]
        | decimal d =>
            refine ⟨.decimal d.dropZeroSign, ?_, d.dropZeroSign, rfl, d.value_dropZeroSign,
              d.scale_dropZeroSign⟩
            show (Decimal.read? d.text).map FacetValue.decimal = _
            rw [Decimal.read?_text, Option.map_some]
        | _ => cases hnumber
    | date =>
        rw [hk] at hadmits
        obtain ⟨day, rfl⟩ := hadmits
        refine ⟨.date day, ?_, rfl⟩
        show (Date.read? day.text).map FacetValue.date = _
        rw [Date.read?_text, Option.map_some]
    | dateTime => exact absurd hk hkind
    | string =>
        rw [hk] at hadmits
        obtain ⟨s, rfl, -⟩ := hadmits
        exact ⟨.string s, rfl, rfl⟩
    | uuid =>
        rw [hk] at hadmits
        rcases hadmits with ⟨id, rfl⟩ | ⟨s, rfl, hform⟩
        · refine ⟨.uuid id, ?_, rfl⟩
          show (RecordId.read? id.text).map FacetValue.uuid = _
          rw [RecordId.read?_text, Option.map_some]
        · have hread : RecordId.read? s = some (RecordId.ofDigits s.toList) := by
            rw [RecordId.read?, if_pos (RecordId.isCanonical_iff.mpr hform)]
          refine ⟨.uuid (.ofDigits s.toList), ?_, _, rfl, hread, RecordId.text_of_read? hread⟩
          show (RecordId.read? s).map FacetValue.uuid = _
          rw [hread, Option.map_some]

/-- In a decimal column a number comes back as the same number. -/
theorem ComesBackAs.number? {maxDigits decimalPlaces : UInt32} {q : ℚ}
    (h : ComesBackAs (.decimal maxDigits decimalPlaces) v w) (hnumber : q ∈ v.number?) :
    q ∈ w.number? := by
  cases v with
  | integer n =>
      obtain ⟨e, rfl, hvalue, -⟩ := h
      obtain rfl := Option.some.inj hnumber
      exact congrArg some hvalue
  | decimal d =>
      obtain ⟨e, rfl, hvalue, -⟩ := h
      obtain rfl := Option.some.inj hnumber
      exact congrArg some hvalue
  | _ => cases hnumber

/-- What an accepted value comes back as is accepted. -/
theorem Admits.of_comesBackAs (hadmits : f.Admits v) (h : ComesBackAs f.kind v w) :
    f.Admits w := by
  rcases hadmits with ⟨rfl, hnull⟩ | hadmits
  · have hw : w = .null := by
      cases hk : f.kind <;> rw [hk] at h <;> exact h
    exact .inl ⟨hw, hnull⟩
  · right
    cases hk : f.kind with
    | boolean | date | dateTime | integer | string =>
        rw [hk] at hadmits h
        have hw : w = v := by
          cases v <;> exact h
        rw [hw]
        exact hadmits
    | decimal maxDigits decimalPlaces =>
        rw [hk] at hadmits h
        obtain ⟨q, hnumber, haccepted⟩ := hadmits
        exact ⟨q, h.number? hnumber, haccepted⟩
    | uuid =>
        rw [hk] at hadmits h
        rcases hadmits with ⟨id, rfl⟩ | ⟨s, rfl, -⟩
        · exact .inl ⟨id, h⟩
        · obtain ⟨id, rfl, -⟩ := h
          exact .inl ⟨id, rfl⟩

/-- A value that a column accepts is read back from its JSON and accepted again, and it is the same
value but for what the kind of the column changes in it. -/
theorem exists_checkJson_toJson (hkind : f.kind ≠ .dateTime) (hcheck : f.check v = .ok ()) :
    ∃ w, f.checkJson v.toJson = .ok w ∧ ComesBackAs f.kind v w := by
  rw [check_eq_ok_iff] at hcheck
  obtain ⟨w, hread, hback⟩ := exists_valueOf?_toJson hkind hcheck
  have hparse : f.parseJson v.toJson = .ok w := by
    rw [parseJson, hread]
  have haccepted : f.check w = .ok () := check_eq_ok_iff.mpr (hcheck.of_comesBackAs hback)
  refine ⟨w, ?_, hback⟩
  rw [checkJson, hparse]
  show (f.check w >>= fun _ => .ok w) = _
  rw [haccepted]
  rfl

/-- A column of rates keeps the last zero of minus one half. -/
theorem exists_checkJson_toJson_rate :
    let f : FieldDescriptor := .plain "Rate" .value .fixedDecimal
    let v : FacetValue := .decimal ⟨true, 50, 2, by decide, by decide⟩
    f.kind ≠ .dateTime ∧ f.check v = .ok () ∧
      ∃ w, f.checkJson v.toJson = .ok w ∧ ComesBackAs f.kind v w :=
  ⟨by decide, rfl, exists_checkJson_toJson (by decide) rfl⟩

end FieldDescriptor

end Taxonomy
