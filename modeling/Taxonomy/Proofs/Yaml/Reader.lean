import Taxonomy.Proofs.Yaml.Entries
import Taxonomy.Yaml.Reader

/-!
# The keys of a value that is read

A document is read by a computation that may fail and that counts the aliases it follows. Whatever
it yields, in every mapping of it the keys differ from each other.
-/

namespace Taxonomy.Yaml

variable {α β : Type} {P Q : α → Prop} {step : Expanding α} {follows : Nat}

/-- Whatever the step yields has the property. -/
def Yields (step : Expanding α) (P : α → Prop) : Prop :=
  ∀ follows a follows', step.run follows = some (a, follows') → P a

namespace Yields

theorem pure {a : α} (h : P a) : Yields (pure a) P := by
  intro follows a' follows' hrun
  cases hrun
  exact h

theorem failure : Yields failure P := by
  intro follows a follows' hrun
  cases hrun

theorem bind {next : α → Expanding β} {Q : β → Prop} (hstep : Yields step P)
    (hnext : ∀ a, P a → Yields (next a) Q) : Yields (step >>= next) Q := by
  intro follows b follows' hrun
  rw [StateT.run_bind] at hrun
  obtain ⟨⟨a, between⟩, hfirst, hrest⟩ := Option.bind_eq_some_iff.mp hrun
  exact hnext a (hstep follows a between hfirst) between b follows' hrest

theorem lift {value : Option α} (h : ∀ a, value = some a → P a) : Yields (StateT.lift value) P := by
  intro follows a follows' hrun
  rw [StateT.run_lift] at hrun
  obtain ⟨a', hvalue, hpair⟩ := Option.bind_eq_some_iff.mp hrun
  cases hpair
  exact h a hvalue

theorem anything (step : Expanding α) : Yields step fun _ => True :=
  fun _ _ _ _ => trivial

/-- A list is yielded item by item. -/
theorem mapM {f : α → Expanding β} {Q : β → Prop} (h : ∀ a, Yields (f a) Q) (items : List α) :
    Yields (items.mapM f) fun bs => ∀ b ∈ bs, Q b := by
  induction items with
  | nil => exact .pure (List.forall_mem_nil _)
  | cons item rest ih =>
      rw [List.mapM_cons]
      refine (h item).bind fun b hb => ih.bind fun bs hbs => ?_
      exact .pure (List.forall_mem_cons.mpr ⟨hb, hbs⟩)

end Yields

theorem isScalar_of_plainValue? {text : String} {y : Value}
    (h : Scalar.plainValue? text = some y) : IsScalar y := by
  rw [Scalar.plainValue?] at h
  split at h
  · cases h
    trivial
  · split at h
    · cases h
      trivial
    · split at h
      · cases h
        trivial
      · cases h
      · split at h
        · cases h
          trivial
        · split at h <;>
          · cases h
            trivial

theorem isScalar_of_untagged? {text : String} {plain : Bool} {y : Value}
    (h : Scalar.untagged? text plain = some y) : IsScalar y := by
  rw [Scalar.untagged?] at h
  split at h
  · exact isScalar_of_plainValue? h
  · cases h
    trivial

/-- A scalar has no keys. -/
theorem differentKeys_of_value? {tag : Option Tag} {text : String} {plain : Bool} {y : Value}
    (h : Scalar.value? tag text plain = some y) : Everywhere DifferentKeys y := by
  cases tag with
  | none => exact everywhere_of_isScalar (isScalar_of_untagged? h)
  | some tag =>
      cases tag with
      | own name =>
          obtain ⟨value, hvalue, rfl⟩ := Option.map_eq_some_iff.mp h
          exact everywhere_tagged_iff.mpr (everywhere_of_isScalar (isScalar_of_untagged? hvalue))
      | unreadable => exact everywhere_of_isScalar (isScalar_of_untagged? h)
      | bool =>
          obtain ⟨b, -, rfl⟩ := Option.map_eq_some_iff.mp h
          exact everywhere_of_isScalar trivial
      | int =>
          replace h : Scalar.intValue? text = some y := h
          rw [Scalar.intValue?] at h
          split at h
          · cases h
            exact everywhere_of_isScalar trivial
          · cases h
      | float =>
          obtain ⟨x, -, rfl⟩ := Option.map_eq_some_iff.mp h
          exact everywhere_of_isScalar trivial
      | null =>
          replace h : (if Scalar.isNull text then some Value.null else none) = some y := h
          split at h
          · cases h
            exact everywhere_of_isScalar trivial
          · cases h
      | other =>
          cases h
          exact everywhere_of_isScalar trivial

/-- The tag of a collection has no keys. -/
theorem differentKeys_withTag {tag : Option Tag} {y : Value} (h : Everywhere DifferentKeys y) :
    Everywhere DifferentKeys (Document.withTag tag y) := by
  cases tag with
  | none => exact h
  | some tag =>
      cases tag with
      | own name => exact everywhere_tagged_iff.mpr h
      | _ => exact h

/-- Keys of a mapping are compared with those read before. -/
theorem yields_expandEntries {expand : Node → Expanding Value}
    (hexpand : ∀ node, Yields (expand node) (Everywhere DifferentKeys)) {read : List (Value × Value)}
    (hread : Everywhere DifferentKeys (.map read.reverse)) (rest : List (Node × Node)) :
    Yields (Document.expandEntries expand read rest) fun entries => Everywhere DifferentKeys (.map entries) := by
  induction rest generalizing read with
  | nil => exact .pure hread
  | cons entry rest ih =>
      obtain ⟨k, v⟩ := entry
      rw [Document.expandEntries]
      refine (hexpand k).bind fun key _ => ?_
      split
      · exact (Yields.failure (P := fun _ => False)).bind fun _ hnever => hnever.elim
      · rename_i hnew
        refine (hexpand v).bind fun value hvalue => ih ?_
        obtain ⟨hkeys, hinside⟩ := everywhere_map_iff.mp hread
        rw [List.reverse_cons, everywhere_map_iff]
        constructor
        · refine List.pairwise_append.mpr ⟨hkeys, List.pairwise_singleton _ _, ?_⟩
          intro e he e' he'
          obtain rfl := List.mem_singleton.mp he'
          rw [List.any_eq_true, not_exists] at hnew
          exact Bool.eq_false_iff.mpr fun hsame => hnew e ⟨List.mem_reverse.mp he, hsame⟩
        · intro e he
          rcases List.mem_append.mp he with he | he
          · exact hinside e he
          · obtain rfl := List.mem_singleton.mp he
            exact hvalue

theorem yields_expand (d : Document) (depth : Nat) (node : Node) :
    Yields (d.expand depth node) (Everywhere DifferentKeys) := by
  induction depth generalizing node with
  | zero =>
      rw [Document.expand]
      refine (Yields.anything _).bind fun node _ => ?_
      split
      · exact .lift fun y hy => differentKeys_of_value? hy
      · exact .failure
  | succ depth ih =>
      rw [Document.expand]
      refine (Yields.anything _).bind fun node _ => ?_
      split
      · exact .lift fun y hy => differentKeys_of_value? hy
      · rename_i items
        refine (Yields.mapM ih items).bind fun values hvalues => .pure ?_
        exact differentKeys_withTag (everywhere_seq_iff.mpr hvalues)
      · rename_i entries
        refine (yields_expandEntries ih ?_ entries).bind fun entries hentries => .pure ?_
        · exact everywhere_map_iff.mpr ⟨.nil, List.forall_mem_nil _⟩
        · exact differentKeys_withTag hentries
      · exact .failure

/-- In every mapping of a value that is read the keys differ. -/
theorem differentKeys_of_read? {text : String} {y : Value} (h : read? text = some y) :
    Everywhere DifferentKeys y := by
  obtain ⟨tokens, -, h⟩ := Option.bind_eq_some_iff.mp h
  obtain ⟨d, -, h⟩ := Option.bind_eq_some_iff.mp h
  obtain ⟨⟨value, follows⟩, hrun, rfl⟩ := Option.map_eq_some_iff.mp h
  exact yields_expand d _ _ _ _ _ hrun

end Taxonomy.Yaml
