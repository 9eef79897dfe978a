import Taxonomy.Proofs.Yaml.Conversion
import Taxonomy.Proofs.Yaml.Keys

/-!
# What becomes of the entries of a mapping

A mapping becomes an object that has a member for each text among the keys, with the value of the
last entry of that text. The keys of a mapping differ, but a string key may be the text of a number
or of a truth value that is a key as well. Where this happens an entry is lost, and it is the only
way to lose one.
-/

namespace Taxonomy.Yaml

variable {y : Value} {j : Json} {items : List Value} {js : List Json}
variable {entries : List (Value × Value)} {named members : List (String × Json)}

/-- The value is neither a collection nor tagged. -/
def IsScalar : Value → Prop
  | .seq _ => False
  | .map _ => False
  | .tagged _ _ => False
  | _ => True

/-- A value is its own part, and a part of what it is inside of: as an item, as the value of an
entry, or under a tag. -/
inductive Part : Value → Value → Prop
  | self (y : Value) : Part y y
  | item {part item : Value} {items : List Value} (hitem : item ∈ items) (inside : Part part item) :
      Part part (.seq items)
  | entry {part : Value} {entry : Value × Value} {entries : List (Value × Value)}
      (hentry : entry ∈ entries) (inside : Part part entry.2) : Part part (.map entries)
  | tagged {part value : Value} (tag : String) (inside : Part part value) :
      Part part (.tagged tag value)

/-- Every mapping inside the value has the property. -/
def Everywhere (P : List (Value × Value) → Prop) (y : Value) : Prop :=
  ∀ entries, Part (.map entries) y → P entries

/-- The keys of a mapping differ from each other. -/
def DifferentKeys (entries : List (Value × Value)) : Prop :=
  entries.Pairwise fun e e' => e.1.same e'.1 = false

instance (entries : List (Value × Value)) : Decidable (DifferentKeys entries) :=
  inferInstanceAs (Decidable (entries.Pairwise fun e e' => e.1.same e'.1 = false))

/-- A string key of a mapping is the text of another key, a number or a truth value. -/
def Clash (entries : List (Value × Value)) : Prop :=
  ∃ e ∈ entries, ∃ e' ∈ entries, ¬IsString e.1 ∧
    ∃ text, Value.keyText e.1 = .ok text ∧ e'.1 = .str text

/-- A value has become this JSON value: the items of its sequences have become those of arrays, and
the entries of its mappings have become named values, of which the members of objects are gathered
in a certain way. -/
inductive Becomes (Gathers : List (String × Json) → List (String × Json) → Prop) :
    Value → Json → Prop
  | scalar {y : Value} {j : Json} (hscalar : IsScalar y) (hjson : y.toJson = .ok j) :
      Becomes Gathers y j
  | seq {items : List Value} {js : List Json} (inside : List.Forall₂ (Becomes Gathers) items js) :
      Becomes Gathers (.seq items) (.arr js)
  | map {entries : List (Value × Value)} {named members : List (String × Json)}
      (names : List.Forall₂ Value.Names entries named)
      (inside : List.Forall₂ (fun entry value => Becomes Gathers entry.2 value.2) entries named)
      (gathers : Gathers named members) : Becomes Gathers (.map entries) (.obj members)
  | tagged {y : Value} {j : Json} (tag : String) (inside : Becomes Gathers y j) :
      Becomes Gathers (.tagged tag y) j

/-- Every mapping has become an object with one member for each of its entries, in their order. -/
abbrev KeepsEntries : Value → Json → Prop :=
  Becomes (· = ·)

/-- The members have the names in the order in which they first occur, and each has the last value
of its name. -/
def LastInPlace (named members : List (String × Json)) : Prop :=
  members.map (·.1) = (named.map (·.1)).eraseDups ∧
    ∀ name, Entries.lookup name members = Entries.lookup name named.reverse

/-- Induction on a value by its parts. -/
theorem Value.inductParts {motive : Value → Prop} (scalar : ∀ y, IsScalar y → motive y)
    (seq : ∀ items, (∀ item ∈ items, motive item) → motive (.seq items))
    (map : ∀ entries, (∀ entry ∈ entries, motive entry.2) → motive (.map entries))
    (tagged : ∀ tag y, motive y → motive (.tagged tag y)) : ∀ y, motive y
  | .null => scalar _ trivial
  | .bool _ => scalar _ trivial
  | .int _ => scalar _ trivial
  | .float _ => scalar _ trivial
  | .str _ => scalar _ trivial
  | .seq items => seq items fun item _ => inductParts scalar seq map tagged item
  | .map entries => map entries fun entry hentry =>
    have hinside : sizeOf entry.2 < 1 + sizeOf entries := by
      have hsize := List.sizeOf_lt_of_mem hentry
      obtain ⟨key, value⟩ := entry
      simp only [Prod.mk.sizeOf_spec] at hsize ⊢
      omega
    inductParts scalar seq map tagged entry.2
  | .tagged tag y => tagged tag y (inductParts scalar seq map tagged y)

/-! ### Parts of a value -/

section Everywhere

variable {P : List (Value × Value) → Prop}

theorem everywhere_of_isScalar (hy : IsScalar y) : Everywhere P y := by
  intro entries hpart
  cases hpart with
  | self | item | entry | tagged => cases hy

theorem everywhere_seq_iff : Everywhere P (.seq items) ↔ ∀ item ∈ items, Everywhere P item := by
  constructor
  · intro h item hitem entries hpart
    exact h entries (.item hitem hpart)
  · intro h entries hpart
    cases hpart with
    | item hitem hpart => exact h _ hitem entries hpart

theorem everywhere_map_iff :
    Everywhere P (.map entries) ↔ P entries ∧ ∀ entry ∈ entries, Everywhere P entry.2 := by
  constructor
  · intro h
    refine ⟨h entries (.self _), ?_⟩
    intro entry hentry inner hpart
    exact h inner (.entry hentry hpart)
  · rintro ⟨hhere, hinside⟩ inner hpart
    cases hpart with
    | self => exact hhere
    | entry hentry hpart => exact hinside _ hentry inner hpart

theorem everywhere_tagged_iff {tag : String} :
    Everywhere P (.tagged tag y) ↔ Everywhere P y := by
  constructor
  · intro h entries hpart
    exact h entries (.tagged tag hpart)
  · intro h entries hpart
    cases hpart with
    | tagged _ hpart => exact h entries hpart

end Everywhere

/-! ### The names of one mapping -/

theorem exists_keyText_of_names (hnames : List.Forall₂ Value.Names entries named)
    {entry : Value × Value} (hentry : entry ∈ entries) :
    ∃ text, Value.keyText entry.1 = .ok text := by
  induction hnames with
  | nil => cases hentry
  | cons hhead _ ih =>
      rcases List.mem_cons.mp hentry with rfl | hentry
      · exact ⟨_, hhead.1⟩
      · exact ih hentry

theorem keyTexts_of_names (hnames : List.Forall₂ Value.Names entries named) :
    entries.map (fun entry => Value.keyText entry.1) = (named.map (·.1)).map Except.ok := by
  induction hnames with
  | nil => rfl
  | cons hhead _ ih => rw [List.map_cons, List.map_cons, List.map_cons, hhead.1, ih]

/-- An entry has one name and one value. -/
theorem eq_of_names {named' : List (String × Json)} (h : List.Forall₂ Value.Names entries named)
    (h' : List.Forall₂ Value.Names entries named') : named = named' := by
  refine List.right_unique_forall₂' (fun entry member member' hmember hmember' => ?_) h h'
  refine Prod.ext ?_ ?_
  · exact Except.ok.inj (hmember.1.symm.trans hmember'.1)
  · exact Except.ok.inj (hmember.2.symm.trans hmember'.2)

theorem eq_str_of_isString {key : Value} (h : IsString key) : ∃ s, key = .str s := by
  cases key with
  | str s => exact ⟨s, rfl⟩
  | _ => cases h

/-- Of two different keys with one text, one is a string and the other is not. -/
theorem clash_of_keyText_eq {e e' : Value × Value} (he : e ∈ entries) (he' : e' ∈ entries)
    (hdifferent : e.1.same e'.1 = false) {text : String} (htext : Value.keyText e.1 = .ok text)
    (htext' : Value.keyText e'.1 = .ok text) : Clash entries := by
  by_cases hstring : IsString e.1
  · obtain ⟨s, hs⟩ := eq_str_of_isString hstring
    rw [hs] at htext
    cases htext
    by_cases hstring' : IsString e'.1
    · obtain ⟨s', hs'⟩ := eq_str_of_isString hstring'
      rw [hs'] at htext'
      cases htext'
      rw [hs, hs', Value.same, beq_self_eq_true] at hdifferent
      cases hdifferent
    · exact ⟨e', he', e, he, hstring', text, htext', hs⟩
  · by_cases hstring' : IsString e'.1
    · obtain ⟨s', hs'⟩ := eq_str_of_isString hstring'
      rw [hs'] at htext'
      cases htext'
      exact ⟨e, he, e', he', hstring, text, htext, hs'⟩
    · rw [same_of_keyText_eq htext htext' hstring hstring'] at hdifferent
      cases hdifferent

/-- The names of a mapping with different keys are distinct exactly if no two keys clash. -/
theorem distinct_names_iff (hkeys : DifferentKeys entries)
    (hnames : List.Forall₂ Value.Names entries named) :
    Entries.Distinct named ↔ ¬Clash entries := by
  have hok : Function.Injective (Except.ok : String → Except ConversionFault String) :=
    fun _ _ heq => Except.ok.inj heq
  rw [Entries.Distinct, ← List.nodup_map_iff hok, ← keyTexts_of_names hnames]
  constructor
  · rintro hnodup ⟨e, he, e', he', hstring, text, htext, hs⟩
    have htexts : Value.keyText e.1 = Value.keyText e'.1 := by
      rw [htext, hs]
      rfl
    obtain rfl : e = e' := List.inj_on_of_nodup_map hnodup he he' htexts
    rw [hs] at hstring
    exact hstring trivial
  · intro hclash
    refine List.pairwise_map.mpr (hkeys.imp_of_mem fun {e e'} he he' hdifferent heq => ?_)
    obtain ⟨text, htext⟩ := exists_keyText_of_names hnames he
    exact hclash (clash_of_keyText_eq he he' hdifferent htext (heq ▸ htext))

/-! ### What a value becomes -/

/-- Related lists stay related in another way exactly if this is so item by item. -/
theorem forall₂_iff_of_forall {α β : Type} {R S : α → β → Prop} {p : α → Prop} {as : List α}
    {bs : List β} (h : List.Forall₂ R as bs) (hiff : ∀ a ∈ as, ∀ b, R a b → (S a b ↔ p a)) :
    List.Forall₂ S as bs ↔ ∀ a ∈ as, p a := by
  induction h with
  | nil => simp
  | cons hhead _ ih =>
      obtain ⟨hfirst, hrest⟩ := List.forall_mem_cons.mp hiff
      rw [List.forall₂_cons, List.forall_mem_cons, hfirst _ hhead, ih hrest]

theorem forall₂_of_forall {α β : Type} {R S : α → β → Prop} {as : List α} {bs : List β}
    (h : List.Forall₂ R as bs) (himp : ∀ a ∈ as, ∀ b, R a b → S a b) : List.Forall₂ S as bs :=
  (forall₂_iff_of_forall h fun a ha b hab => iff_true_intro (himp a ha b hab)).mpr
    fun _ _ => trivial

theorem keepsEntries_seq_iff :
    KeepsEntries (.seq items) (.arr js) ↔ List.Forall₂ KeepsEntries items js := by
  constructor
  · intro h
    cases h with
    | scalar hscalar => cases hscalar
    | seq inside => exact inside
  · exact .seq

/-- Entries are kept if the members are the named values. -/
theorem keepsEntries_map_iff : KeepsEntries (.map entries) (.obj members) ↔
    List.Forall₂ Value.Names entries members ∧
      List.Forall₂ (fun entry member => KeepsEntries entry.2 member.2) entries members := by
  constructor
  · intro h
    cases h with
    | scalar hscalar => cases hscalar
    | map names inside gathers =>
        subst gathers
        exact ⟨names, inside⟩
  · rintro ⟨names, inside⟩
    exact .map names inside rfl

theorem keepsEntries_tagged_iff {tag : String} :
    KeepsEntries (.tagged tag y) j ↔ KeepsEntries y j := by
  constructor
  · intro h
    cases h with
    | scalar hscalar => cases hscalar
    | tagged _ inside => exact inside
  · exact .tagged tag

/-- What a mapping becomes has the last value of each name at the place of the first. -/
theorem lastInPlace_gather (named : List (String × Json)) :
    LastInPlace named (Value.gather named []) := by
  refine ⟨?_, fun name => ?_⟩
  · rw [Value.names_gather]
    simp
  · rw [Value.lookup_gather, Entries.lookup_nil, Option.or_none]

/-- Converted values have become what they are converted to, whatever their keys are. -/
theorem becomes_of_toJson (h : y.toJson = .ok j) : Becomes LastInPlace y j := by
  induction y using Value.inductParts generalizing j with
  | scalar y hy => exact .scalar hy h
  | seq items ih =>
      obtain ⟨js, hjs, rfl⟩ := Value.toJson_seq_eq_ok_iff.mp h
      exact .seq (forall₂_of_forall hjs fun item hitem j hj => ih item hitem hj)
  | map entries ih =>
      obtain ⟨named, hnamed, rfl⟩ := Value.toJson_map_eq_ok_iff.mp h
      refine .map hnamed ?_ (lastInPlace_gather named)
      exact forall₂_of_forall hnamed fun entry hentry member hmember => ih entry hentry hmember.2
  | tagged tag y ih => exact .tagged tag (ih h)

/-- The entries of all mappings are kept exactly if no keys clash. -/
theorem keepsEntries_iff (hkeys : Everywhere DifferentKeys y) (h : y.toJson = .ok j) :
    KeepsEntries y j ↔ Everywhere (¬Clash ·) y := by
  induction y using Value.inductParts generalizing j with
  | scalar y hy => exact iff_of_true (.scalar hy h) (everywhere_of_isScalar hy)
  | seq items ih =>
      obtain ⟨js, hjs, rfl⟩ := Value.toJson_seq_eq_ok_iff.mp h
      have hitems := everywhere_seq_iff.mp hkeys
      rw [keepsEntries_seq_iff, everywhere_seq_iff]
      exact forall₂_iff_of_forall hjs fun item hitem j hj => ih item hitem (hitems item hitem) hj
  | map entries ih =>
      obtain ⟨named, hnamed, rfl⟩ := Value.toJson_map_eq_ok_iff.mp h
      obtain ⟨hhere, hvalues⟩ := everywhere_map_iff.mp hkeys
      have hinside : List.Forall₂ (fun entry member => KeepsEntries entry.2 member.2) entries named ↔
          ∀ entry ∈ entries, Everywhere (¬Clash ·) entry.2 :=
        forall₂_iff_of_forall hnamed fun entry hentry member hmember =>
          ih entry hentry (hvalues entry hentry) hmember.2
      rw [keepsEntries_map_iff, everywhere_map_iff, ← distinct_names_iff hhere hnamed, ← hinside]
      constructor
      · rintro ⟨hmembers, hinside⟩
        -- The members are the named values, so the names of these are distinct.
        have heq : named = Value.gather named [] := eq_of_names hnamed hmembers
        rw [← heq] at hinside
        refine ⟨?_, hinside⟩
        rw [heq]
        exact Value.distinct_gather named List.nodup_nil
      · rintro ⟨hdistinct, hinside⟩
        rw [Value.gather_of_distinct hdistinct]
        exact ⟨hnamed, hinside⟩
  | tagged tag y ih =>
      rw [keepsEntries_tagged_iff, everywhere_tagged_iff]
      exact ih (everywhere_tagged_iff.mp hkeys) h

/-- The entries of a mapping with different keys become the members of an object, one for each text
among the keys, at the place of its first entry and with the value of its last. No entry is lost in
any mapping of the value exactly if in none of them a string is the text of another key. -/
theorem Value.toJson_entries (hkeys : Everywhere DifferentKeys y) (h : y.toJson = .ok j) :
    Becomes LastInPlace y j ∧ (KeepsEntries y j ↔ Everywhere (¬Clash ·) y) :=
  ⟨becomes_of_toJson h, keepsEntries_iff hkeys h⟩

/-- Entries with keys of three kinds. -/
def mixedEntries : List (Value × Value) :=
  [(.str "a", .null), (.str "b", .bool true), (.str "c", .seq [.str "x", .str "y"]),
    (.int 2, .str "two"), (.bool true, .null)]

def mixedKeys : Value :=
  .map mixedEntries

/-- Their names and values. -/
def mixedNames : List (String × Json) :=
  [("a", .null), ("b", .bool true), ("c", .arr [.str "x", .str "y"]), ("2", .str "two"),
    ("true", .null)]

/-- There is no other mapping inside. -/
theorem everywhere_mixedKeys {P : List (Value × Value) → Prop} (h : P mixedEntries) :
    Everywhere P mixedKeys := by
  refine everywhere_map_iff.mpr ⟨h, ?_⟩
  simp only [mixedEntries, List.forall_mem_cons, everywhere_seq_iff]
  exact ⟨everywhere_of_isScalar trivial, everywhere_of_isScalar trivial,
    ⟨everywhere_of_isScalar trivial, everywhere_of_isScalar trivial, List.forall_mem_nil _⟩,
    everywhere_of_isScalar trivial, everywhere_of_isScalar trivial, List.forall_mem_nil _⟩

theorem names_mixedEntries : List.Forall₂ Value.Names mixedEntries mixedNames := by
  simp only [mixedEntries, mixedNames, List.forall₂_cons, List.forall₂_nil_left_iff, and_true]
  exact ⟨⟨rfl, rfl⟩, ⟨rfl, rfl⟩, ⟨rfl, rfl⟩, ⟨rfl, rfl⟩, rfl, rfl⟩

/-- The number and the truth value become names of their own, so no entry is lost. -/
theorem Value.toJson_entries_mixedKeys :
    Everywhere DifferentKeys mixedKeys ∧ mixedKeys.toJson = .ok (.obj mixedNames) ∧
      Everywhere (¬Clash ·) mixedKeys ∧ KeepsEntries mixedKeys (.obj mixedNames) := by
  have hkeys : DifferentKeys mixedEntries := by decide
  have hdistinct : Entries.Distinct mixedNames := by decide
  have hclash : Everywhere (¬Clash ·) mixedKeys :=
    everywhere_mixedKeys ((distinct_names_iff hkeys names_mixedEntries).mp hdistinct)
  have hjson : mixedKeys.toJson = .ok (.obj mixedNames) := by cbv
  have hkept := (Value.toJson_entries (everywhere_mixedKeys hkeys) hjson).2
  exact ⟨everywhere_mixedKeys hkeys, hjson, hclash, hkept.mpr hclash⟩

/-- The number and its text, two keys that differ, become one name. -/
theorem not_forall_keepsEntries :
    ¬∀ (y : Value) (j : Json), Everywhere DifferentKeys y → y.toJson = .ok j → KeepsEntries y j := by
  intro h
  have hkeys : Everywhere DifferentKeys (.map [(.int 1, .str "a"), (.str "1", .str "b")]) := by
    refine everywhere_map_iff.mpr ⟨by decide, ?_⟩
    simp only [List.forall_mem_cons]
    exact ⟨everywhere_of_isScalar trivial, everywhere_of_isScalar trivial, List.forall_mem_nil _⟩
  have hkept := h _ (.obj [("1", .str "b")]) hkeys (by cbv)
  -- Of the two entries one member is left.
  have hlength := (keepsEntries_map_iff.mp hkept).1.length_eq
  cases hlength

end Taxonomy.Yaml
