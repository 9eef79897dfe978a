import Taxonomy.Json.Number

/-!
# Tokens of a JSON text

The text is read one character at a time. Between tokens only blanks, tabs and line ends
may stand; a word or a number ends where a character no longer belongs to it. Strings hold no raw
control characters, and escaped surrogates must come in pairs.
-/

namespace Taxonomy.Json

/-- A bracket, a mark, or a value without parts. -/
inductive Token
  | arrayOpen
  | arrayClose
  | objectOpen
  | objectClose
  | colon
  | comma
  | scalar (value : Json)

/-- What has been read of the token under way. Characters are held in reverse. -/
inductive Lexeme
  | between
  | word (read : List Char)
  | number (read : List Char)
  | string (read : List Char)
  /-- After a backslash. -/
  | escape (read : List Char)
  /-- Inside the four digits of an escaped code unit; the first unit of a pair is kept. -/
  | unit (read : List Char) (first : Option Nat) (digits : List Nat)
  /-- Before the backslash of the second unit of a pair. -/
  | pairBackslash (read : List Char) (first : Nat)
  /-- Before the letter of the second unit of a pair. -/
  | pairLetter (read : List Char) (first : Nat)

def isWordChar (c : Char) : Bool :=
  'a' ≤ c && c ≤ 'z'

def isNumberChar (c : Char) : Bool :=
  Text.isDigit c || c == '-' || c == '+' || c == '.' || c == 'e' || c == 'E'

/-- The value of a bare word. -/
def wordValue? (read : List Char) : Option Json :=
  match String.ofList read.reverse with
  | "null" => some .null
  | "true" => some (.bool true)
  | "false" => some (.bool false)
  | _ => none

/-- A character that starts a token. -/
def startToken? (c : Char) : Option (Option Token × Lexeme) :=
  match c with
  | ' ' | '\n' | '\t' | '\r' => some (none, .between)
  | '[' => some (some .arrayOpen, .between)
  | ']' => some (some .arrayClose, .between)
  | '\x7b' => some (some .objectOpen, .between)
  | '\x7d' => some (some .objectClose, .between)
  | ':' => some (some .colon, .between)
  | ',' => some (some .comma, .between)
  | '"' => some (none, .string [])
  | c =>
    if Text.isDigit c || c == '-' then some (none, .number [c])
    else if isWordChar c then some (none, .word [c])
    else none

/-- The character that a one-letter escape stands for. -/
def escapeChar? (c : Char) : Option Char :=
  match c with
  | '"' => some '"'
  | '\\' => some '\\'
  | '/' => some '/'
  | 'b' => some '\x08'
  | 'f' => some '\x0c'
  | 'n' => some '\n'
  | 'r' => some '\r'
  | 't' => some '\t'
  | _ => none

/-- After the last digit of an escaped unit: a character, or the wait for the rest of a pair. -/
def finishUnit? (read : List Char) (first : Option Nat) (unit : Nat) : Option Lexeme :=
  let isHigh := 0xD800 ≤ unit && unit < 0xDC00
  let isLow := 0xDC00 ≤ unit && unit < 0xE000
  match first with
  | none =>
    if isHigh then some (.pairBackslash read unit)
    else if isLow then none
    else some (.string (Char.ofNat unit :: read))
  | some high =>
    if isLow then
      some (.string (Char.ofNat (0x10000 + (high - 0xD800) * 0x400 + (unit - 0xDC00)) :: read))
    else none

/-- One character inside a string. The token is complete at the closing quote. -/
def stringStep? (read : List Char) (c : Char) : Option (Option Token × Lexeme) :=
  if c = '"' then some (some (.scalar (.str (String.ofList read.reverse))), .between)
  else if c = '\\' then some (none, .escape read)
  else if c.toNat < 0x20 then none
  else some (none, .string (c :: read))

/-- One character inside any other lexeme that a following character cannot end. -/
def innerStep? : Lexeme → Char → Option (Option Token × Lexeme)
  | .string read, c => stringStep? read c
  | .escape read, c =>
    if c = 'u' then some (none, .unit read none [])
    else (escapeChar? c).map (fun e => (none, .string (e :: read)))
  | .unit read first digits, c => do
    let d ← Text.hexDigit? c
    let digits := digits ++ [d]
    if digits.length = 4 then
      (finishUnit? read first (Text.ofDigits 16 digits)).map (fun l => (none, l))
    else some (none, .unit read first digits)
  | .pairBackslash read first, c => if c = '\\' then some (none, .pairLetter read first) else none
  | .pairLetter read first, c => if c = 'u' then some (none, .unit read (some first) []) else none
  | _, c => startToken? c

/-- One character: the tokens it completes, and the lexeme after it. -/
def lexStep? : Lexeme → Char → Option (List Token × Lexeme)
  | .word read, c =>
    if isWordChar c then some ([], .word (c :: read))
    else do
      let value ← wordValue? read
      let (token, next) ← startToken? c
      some (.scalar value :: token.toList, next)
  | .number read, c =>
    if isNumberChar c then some ([], .number (c :: read))
    else do
      let value ← readNumber? read.reverse
      let (token, next) ← startToken? c
      some (.scalar value :: token.toList, next)
  | lexeme, c => (innerStep? lexeme c).map (fun r => (r.1.toList, r.2))

/-- The tokens that the end of the text completes. -/
def lexEnd? : Lexeme → Option (List Token)
  | .between => some []
  | .word read => (wordValue? read).map (fun v => [.scalar v])
  | .number read => (readNumber? read.reverse).map (fun v => [.scalar v])
  | _ => none

end Taxonomy.Json
