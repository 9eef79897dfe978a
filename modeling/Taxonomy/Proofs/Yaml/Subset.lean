import Mathlib.Algebra.Ring.Int.Defs
import Mathlib.Data.List.Permutation
import Mathlib.Tactic.Choose
import Taxonomy.Proofs.Yaml.Conversion
import Taxonomy.Schema.Load

/-!
# The common subset of YAML and JSON

A JSON value can be written in YAML with the same scalars, sequences, and mappings with string
keys, and with tags around any of its parts. Such a YAML value is converted to the JSON value it was
made from, so a document has one content and one fault in both languages.
-/

namespace Taxonomy

/-- Whole numbers are within 64 bits, signed or unsigned, and no object has two members of one
name. -/
inductive Json.Regular : Json → Prop
  | null : Regular .null
  | bool (b : Bool) : Regular (.bool b)
  | int {n : Int} (low : -2 ^ 63 ≤ n) (high : n < 2 ^ 64) : Regular (.int n)
  | float (x : Binary64) : Regular (.float x)
  | str (s : String) : Regular (.str s)
  | arr {items : List Json} (inside : ∀ item ∈ items, Regular item) : Regular (.arr items)
  | obj {members : List (String × Json)} (distinct : Entries.Distinct members)
      (inside : ∀ member ∈ members, Regular member.2) : Regular (.obj members)

namespace Yaml

/-- The YAML value has the scalars, sequences and mappings of the JSON value, all keys are strings,
and there may be tags around any part. -/
inductive HasShapeOf : Value → Json → Prop
  | null : HasShapeOf .null .null
  | bool (b : Bool) : HasShapeOf (.bool b) (.bool b)
  | int (n : Int) : HasShapeOf (.int n) (.int n)
  | float (x : Binary64) : HasShapeOf (.float (.finite x)) (.float x)
  | str (s : String) : HasShapeOf (.str s) (.str s)
  | seq {items : List (Value × Json)} (inside : ∀ item ∈ items, HasShapeOf item.1 item.2) :
      HasShapeOf (.seq (items.map (·.1))) (.arr (items.map (·.2)))
  | map {entries : List (String × Value × Json)}
      (inside : ∀ entry ∈ entries, HasShapeOf entry.2.1 entry.2.2) :
      HasShapeOf (.map (entries.map fun entry => (.str entry.1, entry.2.1)))
        (.obj (entries.map fun entry => (entry.1, entry.2.2)))
  | tagged {value : Value} {j : Json} (tag : String) (inside : HasShapeOf value j) :
      HasShapeOf (.tagged tag value) j

variable {y : Value} {j : Json}

/-- Every JSON value can be written in YAML. -/
theorem exists_hasShapeOf (hregular : j.Regular) : ∃ y, HasShapeOf y j := by
  have hvalue : Nonempty Value := ⟨.null⟩
  induction hregular with
  | null => exact ⟨_, .null⟩
  | bool b => exact ⟨_, .bool b⟩
  | @int n => exact ⟨_, .int n⟩
  | float x => exact ⟨_, .float x⟩
  | str s => exact ⟨_, .str s⟩
  | @arr items _ ih =>
      choose! write hwrite using ih
      have hshape := HasShapeOf.seq (List.forall_mem_map.mpr hwrite :
        ∀ pair ∈ items.map fun item => (write item, item), HasShapeOf pair.1 pair.2)
      rw [List.map_map, List.map_map] at hshape
      exact ⟨_, by simpa [Function.comp_def] using hshape⟩
  | @obj members _ _ ih =>
      choose! write hwrite using ih
      have hshape := HasShapeOf.map (List.forall_mem_map.mpr hwrite :
        ∀ entry ∈ members.map fun member => (member.1, write member, member.2),
          HasShapeOf entry.2.1 entry.2.2)
      rw [List.map_map, List.map_map] at hshape
      exact ⟨_, by simpa [Function.comp_def] using hshape⟩

theorem fitsSigned_iff {n : Int} : fitsSigned n = true ↔ -2 ^ 63 ≤ n ∧ n < 2 ^ 63 := by
  have hpow : ((Nat.pow 2 63 : Nat) : Int) = 2 ^ 63 := by rw [Nat.pow_eq]; rfl
  rw [fitsSigned, hpow, Bool.and_eq_true, decide_eq_true_eq, decide_eq_true_eq]

theorem fitsUnsigned_iff {n : Int} : fitsUnsigned n = true ↔ 0 ≤ n ∧ n < 2 ^ 64 := by
  have hpow : ((Nat.pow 2 64 : Nat) : Int) = 2 ^ 64 := by rw [Nat.pow_eq]; rfl
  rw [fitsUnsigned, hpow, Bool.and_eq_true, decide_eq_true_eq, decide_eq_true_eq]

/-- A whole number of 64 bits, signed or unsigned, stays a whole number. -/
theorem wholeToJson_of_fits {n : Int} (hlow : -2 ^ 63 ≤ n) (hhigh : n < 2 ^ 64) :
    wholeToJson n = .ok (.int n) := by
  rw [wholeToJson]
  by_cases hsigned : n < 2 ^ 63
  · rw [if_pos (fitsSigned_iff.mpr ⟨hlow, hsigned⟩)]
  · have hunsigned : fitsUnsigned n = true := fitsUnsigned_iff.mpr ⟨by omega, hhigh⟩
    rw [if_neg fun h => hsigned (fitsSigned_iff.mp h).2, if_pos hunsigned]

/-- A value of the common subset becomes the JSON value that it was made from. -/
theorem HasShapeOf.toJson_eq (hshape : HasShapeOf y j) (hregular : j.Regular) :
    y.toJson = .ok j := by
  induction hshape with
  | null | bool | float | str => rfl
  | int n =>
      obtain ⟨hlow, hhigh⟩ : -2 ^ 63 ≤ n ∧ n < 2 ^ 64 := by
        cases hregular with
        | int low high => exact ⟨low, high⟩
      exact wholeToJson_of_fits hlow hhigh
  | @seq items _ ih =>
      cases hregular with
      | arr hinside =>
          refine Value.toJson_seq_eq_ok_iff.mpr ⟨_, ?_, rfl⟩
          rw [List.forall₂_map_left_iff, List.forall₂_map_right_iff, List.forall₂_same]
          intro item hitem
          exact ih item hitem (hinside _ (List.mem_map_of_mem hitem))
  | @map entries _ ih =>
      cases hregular with
      | obj hdistinct hinside =>
          refine Value.toJson_map_eq_ok_iff.mpr ⟨_, ?_, (congrArg Json.obj
            (Value.gather_of_distinct hdistinct)).symm⟩
          rw [List.forall₂_map_left_iff, List.forall₂_map_right_iff, List.forall₂_same]
          intro entry hentry
          exact ⟨rfl, ih entry hentry (hinside _ (List.mem_map_of_mem hentry))⟩
  | tagged tag _ ih => exact ih hregular

end Yaml

/-- A file that holds a text has this text. -/
theorem FileState.text_toUTF8 (text : String) : (bytes text.toUTF8).text = .ok text := by
  simp [FileState.text, String.fromUTF8?, String.fromUTF8, text.isValidUTF8]

namespace Store

/-- At two paths one document was loaded, or loading failed for one reason. -/
def SameOutcome (path path' : String) (result result' : Except TaxonomyError Store) : Prop :=
  (∃ s : Store, result = .ok { s with source := some path } ∧
      result' = .ok { s with source := some path' }) ∨
    ∃ reason, result = .error (.load path reason) ∧ result' = .error (.load path' reason)

variable {path path' text text' : String} {file file' : FileState} {y : Yaml.Value} {j : Json}

/-- What is made of the JSON value of a file is the same wherever the file is. -/
theorem sameOutcome_ofJson (path path' : String) (j : Json) :
    SameOutcome path path'
      (atPath path do let s ← ofJson j; return { s with source := some path })
      (atPath path' do let s ← ofJson j; return { s with source := some path' }) := by
  cases ofJson j with
  | error reason => exact .inr ⟨reason, rfl, rfl⟩
  | ok s => exact .inl ⟨s, rfl, rfl⟩

theorem load_of_yaml (hpath : isYamlPath path = true) (hfile : file.text = .ok text)
    (hread : Yaml.read? text = some y) (hjson : y.toJson = .ok j) :
    load path file = atPath path do let s ← ofJson j; return { s with source := some path } := by
  have hdocument : readYamlDocument text = .ok j := by
    rw [readYamlDocument, hread]
    exact Except.mapError_eq_ok_iff.mpr hjson
  simp only [load, hfile, Except.mapError, Except.ok_bind, hpath, if_true, hdocument]

theorem load_of_json (hpath : isYamlPath path = false) (hfile : file.text = .ok text)
    (hread : Json.read? text = some j) :
    load path file = atPath path do let s ← ofJson j; return { s with source := some path } := by
  have hdocument : readJsonDocument text = .ok j := by
    rw [readJsonDocument, hread]
  simp only [load, hfile, Except.mapError, Except.ok_bind, hpath, Bool.false_eq_true, if_false,
    hdocument]

/-- YAML and JSON agree on their common subset: a YAML value of the shape of a JSON value is
converted to it, and a file that holds the one as YAML is loaded as a file that holds the other as
JSON. -/
theorem yaml_agrees_with_json (hregular : j.Regular) (hshape : Yaml.HasShapeOf y j) :
    y.toJson = .ok j ∧
      ∀ (path path' : String) (file file' : FileState) (text text' : String),
        isYamlPath path = true → isYamlPath path' = false →
        file.text = .ok text → file'.text = .ok text' →
        Yaml.read? text = some y → Json.read? text' = some j →
        SameOutcome path path' (load path file) (load path' file') := by
  have hjson : y.toJson = .ok j := hshape.toJson_eq hregular
  refine ⟨hjson, ?_⟩
  intro path path' file file' text text' hpath hpath' hfile hfile' hread hread'
  rw [load_of_yaml hpath hfile hread hjson, load_of_json hpath' hfile' hread']
  exact sameOutcome_ofJson path path' j

/-- Numbers at the limits of 64 bits and a double, in YAML and in JSON. -/
def limits : List (String × Yaml.Value × Json) := [
  ("least", .int (-2 ^ 63), .int (-2 ^ 63)),
  ("signed", .int (2 ^ 63 - 1), .int (2 ^ 63 - 1)),
  ("unsigned", .tagged "wide" (.int (2 ^ 63)), .int (2 ^ 63)),
  ("greatest", .int (2 ^ 64 - 1), .int (2 ^ 64 - 1)),
  ("half", .tagged "ratio" (.float (.finite ⟨false, Nat.pow 2 52, -53, by decide⟩)),
    .float ⟨false, Nat.pow 2 52, -53, by decide⟩)]

/-- A gauge and the greatest whole number, the gauge with a tag. -/
def gaugeYaml : String :=
  "limit: 18446744073709551615\nschemas:\n  Gauge: !own\n    properties: \x7b\x7d\n"

def gaugeJson : String :=
  "\x7b\"limit\": 18446744073709551615, " ++
    "\"schemas\": \x7b\"Gauge\": \x7b\"properties\": \x7b\x7d\x7d\x7d\x7d"

def gaugeValue : Yaml.Value :=
  .map [(.str "limit", .int 18446744073709551615),
    (.str "schemas", .map [(.str "Gauge", .tagged "own" (.map [(.str "properties", .map [])]))])]

def gaugeDocument : Json :=
  .obj [("limit", .int 18446744073709551615),
    ("schemas", .obj [("Gauge", .obj [("properties", .obj [])])])]

/-- The limit that a document gives beside its one gauge. -/
def gaugeLimit? : Yaml.Value → Option Int
  | .map [(.str "limit", .int n), (.str "schemas",
      .map [(.str "Gauge", .tagged "own" (.map [(.str "properties", .map [])]))])] => some n
  | _ => none

theorem eq_gaugeValue (h : gaugeLimit? y = some 18446744073709551615) : y = gaugeValue := by
  unfold gaugeLimit? at h
  split at h
  · cases h
    rfl
  · cases h

theorem read?_gaugeYaml : Yaml.read? gaugeYaml = some gaugeValue := by
  have hlimit : (Yaml.read? gaugeYaml).bind gaugeLimit? = some 18446744073709551615 := by
    decide +kernel
  obtain ⟨y, hread, hy⟩ := Option.bind_eq_some_iff.mp hlimit
  rw [hread, eq_gaugeValue hy]

theorem regular_gaugeDocument : gaugeDocument.Regular := by
  refine .obj (by decide) (List.forall_mem_cons.mpr ⟨.int (by omega) (by omega), ?_⟩)
  refine List.forall_mem_singleton.mpr (.obj (by decide) (List.forall_mem_singleton.mpr ?_))
  exact .obj (by decide) (List.forall_mem_singleton.mpr (.obj (by decide) (List.forall_mem_nil _)))

theorem hasShapeOf_gaugeDocument : Yaml.HasShapeOf gaugeValue gaugeDocument := by
  have hempty : Yaml.HasShapeOf (.map []) (.obj []) :=
    @Yaml.HasShapeOf.map [] (List.forall_mem_nil _)
  have hgauge := @Yaml.HasShapeOf.map [("properties", _, _)] (List.forall_mem_singleton.mpr hempty)
  have hschemas := @Yaml.HasShapeOf.map [("Gauge", _, _)]
    (List.forall_mem_singleton.mpr (hgauge.tagged "own"))
  exact @Yaml.HasShapeOf.map [("limit", _, _), ("schemas", _, _)]
    (List.forall_mem_cons.mpr ⟨.int _, List.forall_mem_singleton.mpr hschemas⟩)

/-- Whole numbers of 64 bits and doubles are converted to what they are, and a gauge is loaded alike
from YAML and from JSON. -/
theorem yaml_agrees_with_json_limits :
    (Yaml.Value.map (limits.map fun entry => (.str entry.1, entry.2.1))).toJson =
      .ok (.obj (limits.map fun entry => (entry.1, entry.2.2))) ∧
    ∃ s : Store,
      load "gauge.yaml" (.bytes gaugeYaml.toUTF8) = .ok { s with source := some "gauge.yaml" } ∧
      load "gauge.json" (.bytes gaugeJson.toUTF8) = .ok { s with source := some "gauge.json" } ∧
      s.contains "Gauge" = true := by
  constructor
  · refine (yaml_agrees_with_json (.obj (by decide) ?_) (.map ?_)).1
    · rw [limits]
      simp only [List.map_cons, List.map_nil, List.forall_mem_cons]
      exact ⟨.int (by omega) (by omega), .int (by omega) (by omega), .int (by omega) (by omega),
        .int (by omega) (by omega), .float _, List.forall_mem_nil _⟩
    · rw [limits]
      simp only [List.forall_mem_cons]
      exact ⟨.int _, .int _, .tagged _ (.int _), .int _, .tagged _ (.float _),
        List.forall_mem_nil _⟩
  · have hread : Json.read? gaugeJson = some gaugeDocument := rfl
    have hcontains : (fun s => s.contains "Gauge") <$> ofJson gaugeDocument = .ok true := by cbv
    obtain ⟨s, hs, hcontains⟩ := Except.map_eq_ok_iff.mp hcontains
    have hjson : isYamlPath "gauge.json" = false := by cbv
    have hload : load "gauge.json" (.bytes gaugeJson.toUTF8) =
        .ok { s with source := some "gauge.json" } := by
      rw [load_of_json hjson (FileState.text_toUTF8 gaugeJson) hread, hs]
      rfl
    have houtcome := (yaml_agrees_with_json regular_gaugeDocument hasShapeOf_gaugeDocument).2
      "gauge.yaml" "gauge.json" _ _ _ _ (by cbv) hjson (FileState.text_toUTF8 gaugeYaml)
      (FileState.text_toUTF8 gaugeJson) read?_gaugeYaml hread
    rcases houtcome with ⟨s', hyaml, hsame⟩ | ⟨reason, -, hfault⟩
    · have hschemas : s.schemas = s'.schemas :=
        (Store.mk.inj (Except.ok.inj (hload.symm.trans hsame))).2.1
      exact ⟨s', hyaml, hsame, by rw [← hcontains, contains, contains, hschemas]⟩
    · rw [hload] at hfault
      cases hfault

end Store

end Taxonomy
