import Taxonomy.Proofs.Json.Token
import Taxonomy.Proofs.NameMap

/-!
# Values read back from JSON text

The tokens of a value build the value again: an array comes back item by item and an object member
by member, each name being new to the members that were read before it. So a value is read back
from its text as long as the text holds all of it.
-/

namespace Taxonomy.Json

namespace Building

variable {b : Building} {value : Json} {items : List Json} {members : List (String × Json)}
variable {outer : List Unclosed} {awaiting : Awaiting} {depth : Nat}

theorem steps?_append (b : Building) (ts ts' : List Token) :
    b.steps? (ts ++ ts') = (b.steps? ts).bind fun b => b.steps? ts' := by
  induction ts generalizing b with
  | nil => rfl
  | cons token ts ih =>
      rw [List.cons_append, steps?, steps?]
      cases b.step? token with
      | none => rfl
      | some b => exact ih b

/-- A value may come next. -/
def TakesValue (awaiting : Awaiting) : Prop :=
  awaiting = .value ∨ awaiting = .firstItem

/-- The tokens of the value put it where a value may come next, if there are `depth` levels left. -/
def Builds (depth : Nat) (value : Json) : Prop :=
  ∀ b : Building, TakesValue b.awaiting → b.unclosed.length + depth ≤ deepest →
    b.steps? (tokens value) = some (put value b.unclosed)

theorem step?_of_takesValue (h : TakesValue b.awaiting) (token : Token)
    (htoken : token ≠ .arrayClose) : b.step? token = b.valueStep? token := by
  obtain ⟨unclosed, awaiting, root⟩ := b
  rcases h with hawaiting | hawaiting
  · cases hawaiting
    rfl
  · cases hawaiting
    cases token with
    | arrayClose => exact absurd rfl htoken
    | _ => rfl

theorem builds_scalar (htokens : tokens value = [.scalar value]) : Builds depth value := by
  intro b hb _
  rw [htokens, steps?, step?_of_takesValue hb (.scalar value) nofun]
  rfl

/-- Items are put into the innermost array one after the other. -/
theorem steps?_itemTokens (h : ∀ item ∈ items, Builds depth item) (hitems : items ≠ [])
    (hawaiting : TakesValue awaiting) (hdeep : outer.length + 1 + depth ≤ deepest)
    (kept : List Json) :
    steps? ⟨.array kept :: outer, awaiting, none⟩ (itemTokens items) =
      some ⟨.array (items.reverse ++ kept) :: outer, .separator, none⟩ := by
  induction items generalizing kept awaiting with
  | nil => exact absurd rfl hitems
  | cons item others ih =>
      obtain ⟨hitem, hothers⟩ := List.forall_mem_cons.mp h
      have hfirst : steps? ⟨.array kept :: outer, awaiting, none⟩ (tokens item) =
          some ⟨.array (item :: kept) :: outer, .separator, none⟩ := hitem _ hawaiting hdeep
      cases others with
      | nil => exact hfirst
      | cons next others =>
          have hcomma (ts : List Token) :
              steps? ⟨.array (item :: kept) :: outer, .separator, none⟩ (.comma :: ts) =
                steps? ⟨.array (item :: kept) :: outer, .value, none⟩ ts := rfl
          rw [itemTokens_cons_cons, steps?_append, hfirst, Option.bind_some, hcomma,
            ih hothers (List.cons_ne_nil next others) (.inl rfl), List.reverse_cons (a := item),
            List.append_assoc]
          rfl

/-- Members are set in the innermost object one after the other. -/
theorem steps?_memberTokens (h : ∀ member ∈ members, Builds depth member.2) (hmembers : members ≠ [])
    (hawaiting : awaiting = .key ∨ awaiting = .firstKey)
    (hdeep : outer.length + 1 + depth ≤ deepest) (kept : List (String × Json)) :
    steps? ⟨.object kept "" :: outer, awaiting, none⟩ (memberTokens members) =
      some ⟨.object (members.foldl (fun kept e => Entries.set e.1 e.2 kept) kept) "" :: outer,
        .separator, none⟩ := by
  induction members generalizing kept awaiting with
  | nil => exact absurd rfl hmembers
  | cons member others ih =>
      obtain ⟨key, value⟩ := member
      obtain ⟨hvalue, hothers⟩ := List.forall_mem_cons.mp h
      have hkey (ts : List Token) :
          steps? ⟨.object kept "" :: outer, awaiting, none⟩ (.scalar (.str key) :: .colon :: ts) =
            steps? ⟨.object kept key :: outer, .value, none⟩ ts := by
        rcases hawaiting with rfl | rfl <;> rfl
      have hfirst : steps? ⟨.object kept key :: outer, .value, none⟩ (tokens value) =
          some ⟨.object (Entries.set key value kept) "" :: outer, .separator, none⟩ :=
        hvalue _ (.inl rfl) hdeep
      cases others with
      | nil => rw [memberTokens, hkey, hfirst, List.foldl_cons, List.foldl_nil]
      | cons next others =>
          have hcomma (kept : List (String × Json)) (ts : List Token) :
              steps? ⟨.object kept "" :: outer, .separator, none⟩ (.comma :: ts) =
                steps? ⟨.object kept "" :: outer, .key, none⟩ ts := rfl
          rw [memberTokens_cons_cons, List.cons_append, List.cons_append, hkey, steps?_append,
            hfirst, Option.bind_some, hcomma, ih hothers (List.cons_ne_nil next others) (.inl rfl)]
          rfl

theorem builds_arr (h : ∀ item ∈ items, Builds depth item) : Builds (depth + 1) (.arr items) := by
  intro b hb hdeep
  have hroom : b.unclosed.length < deepest := by omega
  have hopen (ts : List Token) : b.steps? (.arrayOpen :: ts) =
      steps? ⟨.array [] :: b.unclosed, .firstItem, none⟩ ts := by
    rw [steps?, step?_of_takesValue hb .arrayOpen nofun, valueStep?, opened?, if_pos hroom]
  rw [tokens, List.cons_append, hopen]
  by_cases hitems : items = []
  · subst hitems
    rfl
  · have hlevel : b.unclosed.length + 1 + depth ≤ deepest := by omega
    rw [steps?_append, steps?_itemTokens h hitems (.inr rfl) hlevel, Option.bind_some]
    show some (put (.arr (items.reverse ++ []).reverse) b.unclosed) = _
    rw [List.append_nil, List.reverse_reverse]

theorem builds_obj (hdistinct : Entries.Distinct members)
    (h : ∀ member ∈ members, Builds depth member.2) : Builds (depth + 1) (.obj members) := by
  intro b hb hdeep
  have hroom : b.unclosed.length < deepest := by omega
  have hopen (ts : List Token) : b.steps? (.objectOpen :: ts) =
      steps? ⟨.object [] "" :: b.unclosed, .firstKey, none⟩ ts := by
    rw [steps?, step?_of_takesValue hb .objectOpen nofun, valueStep?, opened?, if_pos hroom]
  rw [tokens, List.cons_append, hopen]
  by_cases hmembers : members = []
  · subst hmembers
    rfl
  · have hlevel : b.unclosed.length + 1 + depth ≤ deepest := by omega
    rw [steps?_append, steps?_memberTokens h hmembers (.inr rfl) hlevel, Option.bind_some,
      Entries.foldl_set_of_distinct hdistinct]
    rfl

/-- The tokens of a value build the value. -/
theorem builds_of_exact (h : Exact depth value) : Builds depth value := by
  induction h with
  | null | bool | int | str => exact builds_scalar rfl
  | arr _ ih => exact builds_arr ih
  | obj distinct _ ih => exact builds_obj distinct ih

end Building

/-- Reading takes the text apart into tokens and builds a value from them. -/
theorem readFrom?_eq (b : Building) (lexeme : Lexeme) (cs : List Char) :
    readFrom? b lexeme cs = (lex? lexeme cs).bind fun ts => (b.steps? ts).bind Building.root := by
  induction cs generalizing b lexeme with
  | nil => rfl
  | cons c cs ih =>
      rw [readFrom?, lex?]
      cases lexStep? lexeme c with
      | none => rfl
      | some step =>
          obtain ⟨ts, next⟩ := step
          simp only [Option.bind_some, Option.bind_map, Function.comp_def, Building.steps?_append]
          cases b.steps? ts with
          | none => simp
          | some b => exact ih b next

/-- A value is read back from its text. -/
theorem read?_compact {value : Json} (h : Exact Building.deepest value) :
    read? value.compact = some value := by
  have hlex : lex? .between (compactChars value ++ []) = some (tokens value) := by
    rw [lexes_compactChars h [] endsToken_nil]
    simp [lex?, lexEnd?]
  rw [List.append_nil] at hlex
  have hbuild : Building.start.steps? (tokens value) = some (Building.put value []) :=
    Building.builds_of_exact h .start (.inl rfl) (by simp [Building.start])
  rw [read?, compact, String.toList_ofList, readFrom?_eq, hlex, Option.bind_some, hbuild]
  rfl

end Taxonomy.Json
