import Taxonomy.Json.Reader
import Taxonomy.Proofs.Json.Number

/-!
# Tokens of a written value

The text of a value is taken apart into the tokens that it was made of. A string and a mark are
complete by themselves; a word and a number are complete when a character follows that is part of
neither, and in the text of a value only commas and closing brackets follow them.
-/

namespace Taxonomy.Json

variable {read cs rest : List Char} {ts ts' : List Token} {c : Char} {value : Json} {depth : Nat}

/-- A value whose text holds all of it: whole numbers are within 64 bits, no object has two members
of one name, and at most `depth` containers stand inside each other. -/
inductive Exact : Nat → Json → Prop
  | null {depth : Nat} : Exact depth .null
  | bool {depth : Nat} (b : Bool) : Exact depth (.bool b)
  | int {depth : Nat} {n : Int} (low : -2 ^ 63 ≤ n) (high : n < 2 ^ 64) : Exact depth (.int n)
  | str {depth : Nat} (s : String) : Exact depth (.str s)
  | arr {depth : Nat} {items : List Json} (inside : ∀ item ∈ items, Exact depth item) :
      Exact (depth + 1) (.arr items)
  | obj {depth : Nat} {members : List (String × Json)} (distinct : Entries.Distinct members)
      (inside : ∀ member ∈ members, Exact depth member.2) : Exact (depth + 1) (.obj members)

mutual

/-- The tokens of a value. -/
def tokens : Json → List Token
  | arr items => .arrayOpen :: itemTokens items ++ [.arrayClose]
  | obj members => .objectOpen :: memberTokens members ++ [.objectClose]
  | value => [.scalar value]

def itemTokens : List Json → List Token
  | [] => []
  | [item] => tokens item
  | item :: rest => tokens item ++ .comma :: itemTokens rest

def memberTokens : List (String × Json) → List Token
  | [] => []
  | [(key, value)] => .scalar (.str key) :: .colon :: tokens value
  | (key, value) :: rest =>
    .scalar (.str key) :: .colon :: tokens value ++ .comma :: memberTokens rest

end

/-- The tokens of the characters that remain. -/
def lex? (lexeme : Lexeme) : List Char → Option (List Token)
  | [] => lexEnd? lexeme
  | c :: cs => (lexStep? lexeme c).bind fun step => (lex? step.2 cs).map (step.1 ++ ·)

/-- What follows belongs to no word and no number. -/
def EndsToken (rest : List Char) : Prop :=
  ∀ c ∈ rest.head?, isWordChar c = false ∧ isNumberChar c = false

/-- The characters are those of the tokens, wherever the text goes on in a way that ends them. -/
def Lexes (cs : List Char) (ts : List Token) : Prop :=
  ∀ rest, EndsToken rest → lex? .between (cs ++ rest) = (lex? .between rest).map (ts ++ ·)

theorem endsToken_nil : EndsToken [] := by
  intro c hc
  cases hc

theorem endsToken_cons (h : isWordChar c = false ∧ isNumberChar c = false) (cs : List Char) :
    EndsToken (c :: cs) := by
  intro other hother
  cases hother
  exact h

/-- A bracket, a comma or a colon is a token by itself. -/
theorem lex?_cons_of_mark {token : Token} (h : startToken? c = some (some token, .between))
    (cs : List Char) : lex? .between (c :: cs) = (lex? .between cs).map (token :: ·) := by
  simp [lex?, lexStep?, innerStep?, h]

/-- A word ends before the next token starts. -/
theorem lex?_word (hvalue : wordValue? read = some value) (hrest : EndsToken rest) :
    lex? (.word read) rest = (lex? .between rest).map (.scalar value :: ·) := by
  cases rest with
  | nil => simp [lex?, lexEnd?, hvalue]
  | cons c cs =>
      have hend := (hrest c rfl).1
      cases hstart : startToken? c <;>
        simp [lex?, lexStep?, innerStep?, hend, hvalue, hstart, Function.comp_def]

/-- A number ends before the next token starts. -/
theorem lex?_number (hvalue : readNumber? read.reverse = some value) (hrest : EndsToken rest) :
    lex? (.number read) rest = (lex? .between rest).map (.scalar value :: ·) := by
  cases rest with
  | nil => simp [lex?, lexEnd?, hvalue]
  | cons c cs =>
      have hend := (hrest c rfl).2
      cases hstart : startToken? c <;>
        simp [lex?, lexStep?, innerStep?, hend, hvalue, hstart, Function.comp_def]

/-! ### Characters that complete no token -/

/-- The lexeme after characters of which none completes a token. -/
def advance? (lexeme : Lexeme) : List Char → Option Lexeme
  | [] => some lexeme
  | c :: cs =>
    match lexStep? lexeme c with
    | some ([], next) => advance? next cs
    | _ => none

theorem advance?_cons {lexeme next : Lexeme} (h : lexStep? lexeme c = some ([], next))
    (cs : List Char) : advance? lexeme (c :: cs) = advance? next cs := by
  rw [advance?, h]

theorem advance?_append {lexeme next : Lexeme} (h : advance? lexeme cs = some next)
    (cs' : List Char) : advance? lexeme (cs ++ cs') = advance? next cs' := by
  induction cs generalizing lexeme with
  | nil =>
      cases h
      rfl
  | cons c cs ih =>
      rw [advance?] at h
      split at h
      · rename_i hstep
        rw [List.cons_append, advance?_cons hstep, ih h]
      · cases h

/-- They lead on to the characters behind them. -/
theorem lex?_append {lexeme next : Lexeme} (h : advance? lexeme cs = some next)
    (rest : List Char) : lex? lexeme (cs ++ rest) = lex? next rest := by
  induction cs generalizing lexeme with
  | nil =>
      cases h
      rfl
  | cons c cs ih =>
      rw [advance?] at h
      split at h
      · rename_i hstep
        rw [List.cons_append, lex?, hstep, Option.bind_some, ih h]
        simp
      · cases h

/-! ### Numbers -/

theorem isNumberChar_of_digit? {d : Nat} (h : Text.digit? c = some d) : isNumberChar c = true := by
  simp [isNumberChar, Text.isDigit, h]

theorem startToken?_of_digit? {d : Nat} (h : Text.digit? c = some d) :
    startToken? c = some (none, .number [c]) := by
  have hne (mark : Char) (hmark : Text.digit? mark = none) : c ≠ mark := Text.ne_of_digit? h hmark
  unfold startToken?
  split
  case h_12 => simp [Text.isDigit, h]
  all_goals exact absurd rfl (hne _ (by decide))

theorem advance?_number (read : List Char) (hcs : ∀ c ∈ cs, isNumberChar c = true) :
    advance? (.number read) cs = some (.number (cs.reverse ++ read)) := by
  induction cs generalizing read with
  | nil => rfl
  | cons c cs ih =>
      obtain ⟨hc, hcs⟩ := List.forall_mem_cons.mp hcs
      have hstep : lexStep? (.number read) c = some ([], .number (c :: read)) := by
        simp [lexStep?, hc]
      rw [advance?_cons hstep, ih _ hcs, List.reverse_cons, List.append_assoc]
      rfl

/-- The characters of a whole number are a number under way. -/
theorem advance?_toString (n : Int) :
    advance? .between (toString n).toList = some (.number (toString n).toList.reverse) := by
  obtain ⟨d, ds, hspells, -, -⟩ := Text.exists_spells_toDigits_head n.natAbs
  have hdigits : ∀ c ∈ Nat.toDigits 10 n.natAbs, isNumberChar c = true := by
    intro c hc
    have hmem : Text.digit? c ∈ (d :: ds).map some := hspells ▸ List.mem_map_of_mem hc
    obtain ⟨_, _, hdigit⟩ := List.mem_map.mp hmem
    exact isNumberChar_of_digit? hdigit.symm
  -- The first character, a minus or a digit, starts a number and the others go on with it.
  obtain ⟨c, cs, hchars, hstart, hcs⟩ : ∃ c cs, (toString n).toList = c :: cs ∧
      startToken? c = some (none, .number [c]) ∧ ∀ c ∈ cs, isNumberChar c = true := by
    rw [toList_toString_int]
    by_cases hnegative : n < 0
    · exact ⟨'-', Nat.toDigits 10 n.natAbs, by simp [hnegative], rfl, hdigits⟩
    · cases htext : Nat.toDigits 10 n.natAbs with
      | nil =>
          rw [htext] at hspells
          cases hspells
      | cons c cs =>
          rw [htext] at hspells hdigits
          obtain ⟨_, _, _, hdigit, _⟩ := hspells.exists_cons
          exact ⟨c, cs, by simp [hnegative], startToken?_of_digit? hdigit,
            (List.forall_mem_cons.mp hdigits).2⟩
  have hstep : lexStep? .between c = some ([], .number [c]) := by
    simp [lexStep?, innerStep?, hstart]
  rw [hchars, advance?_cons hstep, advance?_number [c] hcs, List.reverse_cons]

/-! ### Strings -/

/-- A character of a string is read back from its escaped form. -/
theorem advance?_escapedChar (read : List Char) (c : Char) :
    advance? (.string read) (escapedChar c) = some (.string (c :: read)) := by
  unfold escapedChar
  split
  case h_8 hquote hbackslash _ _ _ _ _ =>
    split
    · rename_i hcontrol
      have hhigh := Text.hexDigit?_hexChar (n := c.toNat / 16) (by omega)
      have hlow := Text.hexDigit?_hexChar (n := c.toNat % 16) (by omega)
      have hunit : Text.ofDigits 16 [0, 0, c.toNat / 16, c.toNat % 16] = c.toNat := by
        simp only [Text.ofDigits, List.foldl_cons, List.foldl_nil]
        omega
      have hfinish : finishUnit? read none c.toNat = some (.string (c :: read)) := by
        have hplain : ¬ 0xD800 ≤ c.toNat ∧ ¬ 0xDC00 ≤ c.toNat := by omega
        simp [finishUnit?, hplain]
      have hthird : lexStep? (.unit read none [0, 0]) (Text.hexChar (c.toNat / 16)) =
          some ([], .unit read none [0, 0, c.toNat / 16]) := by
        simp [lexStep?, innerStep?, hhigh]
      have hfourth : lexStep? (.unit read none [0, 0, c.toNat / 16])
          (Text.hexChar (c.toNat % 16)) = some ([], .string (c :: read)) := by
        simp [lexStep?, innerStep?, hlow, hunit, hfinish]
      have hstart : advance? (.string read) ['\\', 'u', '0', '0'] =
          some (.unit read none [0, 0]) := rfl
      have happend := advance?_append hstart
        [Text.hexChar (c.toNat / 16), Text.hexChar (c.toNat % 16)]
      rw [advance?_cons hthird, advance?_cons hfourth] at happend
      exact happend
    · rename_i hprintable
      have hstep : lexStep? (.string read) c = some ([], .string (c :: read)) := by
        simp [lexStep?, innerStep?, stringStep?, if_neg hquote, if_neg hbackslash, hprintable]
      rw [advance?_cons hstep]
      rfl
  all_goals rfl

theorem advance?_string (read cs : List Char) :
    advance? (.string read) (cs.flatMap escapedChar) = some (.string (cs.reverse ++ read)) := by
  induction cs generalizing read with
  | nil => rfl
  | cons c cs ih =>
      rw [List.flatMap_cons, advance?_append (advance?_escapedChar read c), ih, List.reverse_cons,
        List.append_assoc]
      rfl

/-- A quoted text is one token, whatever follows it. -/
theorem lex?_quotedChars (s : String) (rest : List Char) :
    lex? .between (quotedChars s ++ rest) = (lex? .between rest).map (.scalar (.str s) :: ·) := by
  have hstart : advance? .between ['"'] = some (.string []) := rfl
  have hinside := advance?_append hstart (s.toList.flatMap escapedChar)
  rw [advance?_string] at hinside
  rw [quotedChars, List.append_assoc]
  have hquoted := lex?_append hinside ('"' :: rest)
  rw [List.singleton_append] at hquoted
  rw [List.singleton_append, hquoted]
  simp [lex?, lexStep?, innerStep?, stringStep?]

/-! ### Values -/

section Rest

variable (item next : Json) (items : List Json) (member member' : String × Json)
variable (members : List (String × Json))

theorem compactItems_cons_cons : compactItems (item :: next :: items) =
    compactChars item ++ ',' :: compactItems (next :: items) := rfl

theorem itemTokens_cons_cons : itemTokens (item :: next :: items) =
    tokens item ++ .comma :: itemTokens (next :: items) := rfl

theorem compactMembers_cons_cons : compactMembers (member :: member' :: members) =
    quotedChars member.1 ++ ':' :: compactChars member.2 ++
      ',' :: compactMembers (member' :: members) := rfl

theorem memberTokens_cons_cons : memberTokens (member :: member' :: members) =
    .scalar (.str member.1) :: .colon :: tokens member.2 ++
      .comma :: memberTokens (member' :: members) := rfl

end Rest

/-- Items are taken apart one after the other. -/
theorem lexes_items {items : List Json}
    (h : ∀ item ∈ items, Lexes (compactChars item) (tokens item)) :
    Lexes (compactItems items) (itemTokens items) := by
  induction items with
  | nil =>
      intro rest _
      simp [compactItems, itemTokens]
  | cons item others ih =>
      obtain ⟨hitem, hothers⟩ := List.forall_mem_cons.mp h
      cases others with
      | nil => exact hitem
      | cons next others =>
          intro rest hrest
          have hcomma (cs : List Char) : EndsToken (',' :: cs) := endsToken_cons (by decide) cs
          rw [compactItems_cons_cons, itemTokens_cons_cons, List.append_assoc, List.cons_append,
            hitem _ (hcomma _), lex?_cons_of_mark rfl, ih hothers rest hrest]
          simp [Function.comp_def]

/-- Members are taken apart one after the other. -/
theorem lexes_members {members : List (String × Json)}
    (h : ∀ member ∈ members, Lexes (compactChars member.2) (tokens member.2)) :
    Lexes (compactMembers members) (memberTokens members) := by
  induction members with
  | nil =>
      intro rest _
      simp [compactMembers, memberTokens]
  | cons member others ih =>
      obtain ⟨key, value⟩ := member
      obtain ⟨hvalue, hothers⟩ := List.forall_mem_cons.mp h
      intro rest hrest
      cases others with
      | nil =>
          rw [compactMembers, memberTokens, List.append_assoc, List.cons_append, lex?_quotedChars,
            lex?_cons_of_mark rfl, hvalue rest hrest]
          simp [Function.comp_def]
      | cons next others =>
          have hcomma (cs : List Char) : EndsToken (',' :: cs) := endsToken_cons (by decide) cs
          rw [compactMembers_cons_cons, memberTokens_cons_cons, List.append_assoc,
            List.append_assoc, List.cons_append, List.cons_append, lex?_quotedChars,
            lex?_cons_of_mark rfl, hvalue _ (hcomma _), lex?_cons_of_mark rfl,
            ih hothers rest hrest]
          simp [Function.comp_def]

/-- A word is one token. -/
theorem lexes_word (hword : advance? .between cs = some (.word read))
    (hvalue : wordValue? read = some value) : Lexes cs [.scalar value] := by
  intro rest hrest
  rw [lex?_append hword]
  exact lex?_word hvalue hrest

/-- A whole number of 64 bits is one token. -/
theorem lexes_int {n : Int} (hlow : -2 ^ 63 ≤ n) (hhigh : n < 2 ^ 64) :
    Lexes (toString n).toList [.scalar (.int n)] := by
  intro rest hrest
  rw [lex?_append (advance?_toString n)]
  apply lex?_number _ hrest
  rw [List.reverse_reverse]
  exact readNumber?_toString hlow hhigh

/-- The text of a value is taken apart into the tokens of the value. -/
theorem lexes_compactChars (h : Exact depth value) : Lexes (compactChars value) (tokens value) := by
  induction h with
  | null => exact lexes_word rfl rfl
  | bool b => cases b <;> exact lexes_word rfl rfl
  | int low high => exact lexes_int low high
  | str s =>
      intro rest _
      exact lex?_quotedChars s rest
  | arr inside ih =>
      intro rest _
      have hclose : EndsToken (']' :: rest) := endsToken_cons (by decide) rest
      rw [compactChars, tokens, List.append_assoc, List.cons_append, List.singleton_append,
        lex?_cons_of_mark rfl, lexes_items ih _ hclose, lex?_cons_of_mark rfl]
      simp [Function.comp_def]
  | obj distinct inside ih =>
      intro rest _
      have hclose : EndsToken ('\x7d' :: rest) := endsToken_cons (by decide) rest
      rw [compactChars, tokens, List.append_assoc, List.cons_append, List.singleton_append,
        lex?_cons_of_mark rfl, lexes_members ih _ hclose, lex?_cons_of_mark rfl]
      simp [Function.comp_def]

end Taxonomy.Json
