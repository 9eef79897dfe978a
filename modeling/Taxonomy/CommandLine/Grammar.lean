import Taxonomy.Schema.Encoding

/-!
# The command line

Options of the whole program stand before or after the command. An option that takes a
value takes it after an equals sign or from the next argument, which does not look like an option; a
switch takes none. Letters can be joined behind one hyphen. Everything after a bare `--` is an operand.
A command has exactly the operands that it declares. Arguments are checked in turn, so that what is
wrong ahead of a question for help or for the version comes first; a value that stands on its own is
checked when the next option or operand comes.
-/

namespace Taxonomy.CommandLine

/-- What an option takes and how often it may be given. -/
inductive OptionRule
  /-- No value, any number of times. -/
  | counter
  /-- No value, once. -/
  | switch
  /-- A value that satisfies a test, once. -/
  | once (accepts : String → Bool)
  /-- A value, any number of times. -/
  | repeatable

def OptionRule.takesValue : OptionRule → Bool
  | once _ => true
  | repeatable => true
  | _ => false

/-- An option that was given, with its value. -/
structure Given where
  name : String
  value : String

/-- Why there is nothing to run. -/
inductive Refusal
  | version
  | help
  | usage
deriving DecidableEq

/-- The options of the whole program. -/
def globalRules : List (String × OptionRule) :=
  [("verbose", .counter), ("log-json", .switch), ("taxonomy", .once (fun path => path != ""))]

/-- The form of one argument. -/
inductive Argument
  | endOfOptions
  | long (name : String) (value : Option String)
  | letters (letters : List Char)
  | word (text : String)

/-- The form of an argument. A single hyphen is a word. -/
def Argument.ofString (s : String) : Argument :=
  match s.toList with
  | ['-', '-'] => .endOfOptions
  | '-' :: '-' :: cs =>
    match Text.cutAt? (· == '=') cs with
    | some (name, value) => .long (String.ofList name) (some (String.ofList value))
    | none => .long (String.ofList cs) none
  | ['-'] => .word s
  | '-' :: cs => .letters cs
  | _ => .word s

/-- An option whose value comes next, or has come and is not yet checked. -/
structure Pending where
  name : String
  rule : OptionRule
  value : Option String

/-- What has been given so far. -/
structure Scanned where
  options : List Given := []
  pending : Option Pending := none
  operands : List String := []
  /-- The arguments from the command on. -/
  rest : List String := []

namespace Scanned

def has (s : Scanned) (name : String) : Bool :=
  s.options.any (fun g => g.name == name)

def give (name value : String) (s : Scanned) : Scanned :=
  { s with options := s.options ++ [⟨name, value⟩] }

/-- Take an option with a value. -/
def takeValue (rule : OptionRule) (name value : String) (s : Scanned) : Except Refusal Scanned :=
  match rule with
  | .once accepts =>
    if s.has name || !accepts value then .error .usage else .ok (s.give name value)
  | .repeatable => .ok (s.give name value)
  | _ => .error .usage

/-- Check the option under way. It must have its value. -/
def settle (s : Scanned) : Except Refusal Scanned :=
  match s.pending with
  | none => .ok s
  | some ⟨_, _, none⟩ => .error .usage
  | some ⟨name, rule, some value⟩ => takeValue rule name value { s with pending := none }

/-- Take an option without a value. -/
def takeSwitch (rule : OptionRule) (name : String) (s : Scanned) : Except Refusal Scanned := do
  let s ← s.settle
  match rule with
  | .counter => .ok (s.give name "")
  | .switch => if s.has name then .error .usage else .ok (s.give name "")
  | _ => .error .usage

/-- Leave the command line for a text, unless the option under way is wrong. -/
def leaveFor (reason : Refusal) (s : Scanned) : Except Refusal Scanned := do
  let _ ← s.settle
  .error reason

/-- Take letters in turn. Only the program itself tells its version. -/
def takeLetters (top : Bool) : List Char → Scanned → Except Refusal Scanned
  | [], s => .ok s
  | 'v' :: cs, s => do takeLetters top cs (← s.takeSwitch .counter "verbose")
  | 'h' :: _, s => s.leaveFor .help
  | 'V' :: _, s => s.leaveFor (if top then .version else .usage)
  | _ :: _, _ => .error .usage

/-- Take an option by its name, with a value if one is attached. -/
def takeLong (top : Bool) (rules : List (String × OptionRule)) (name : String)
    (value : Option String) (s : Scanned) : Except Refusal Scanned := do
  match Entries.lookup name rules, value with
  | none, none =>
    if name = "help" then s.leaveFor .help
    else if name = "version" ∧ top = true then s.leaveFor .version
    else .error .usage
  | none, some _ => .error .usage
  | some rule, none =>
    if rule.takesValue then return { (← s.settle) with pending := some ⟨name, rule, none⟩ }
    else s.takeSwitch rule name
  | some rule, some value => (← s.settle).takeValue rule name value

/-- Take operands, of which there are at most a given number. -/
def takeOperands (most : Nat) (operands : List String) (s : Scanned) : Except Refusal Scanned := do
  let s ← s.settle
  if most < s.operands.length + operands.length then .error .usage
  else .ok { s with operands := s.operands ++ operands }

/-- The options and operands of a list of arguments. At the top the first word is the command, and the
arguments from there on are left over. -/
def scan (top : Bool) (most : Nat) (rules : List (String × OptionRule)) (s : Scanned) :
    List String → Except Refusal Scanned
  | [] => s.settle
  | argument :: arguments =>
    match Argument.ofString argument, s.pending with
    | .word text, some ⟨name, rule, none⟩ =>
      scan top most rules { s with pending := some ⟨name, rule, some text⟩ } arguments
    | .word text, _ =>
      if top then .ok { s with rest := text :: arguments }
      else do scan top most rules (← s.takeOperands most [text]) arguments
    | .endOfOptions, _ => s.takeOperands most arguments
    | .letters cs, _ => do scan top most rules (← s.takeLetters top cs) arguments
    | .long name value, _ => do scan top most rules (← s.takeLong top rules name value) arguments

/-- The values of an option in the order given. -/
def values (s : Scanned) (name : String) : List String :=
  (s.options.filter (fun g => g.name == name)).map (·.value)

end Scanned

/-- What to compile, and how its properties differ. -/
structure CompileRequest where
  name : String
  /-- Greatest lengths, each as property, equals sign and number. -/
  maxLength : List String := []
  /-- Properties that may not be edited. -/
  readOnly : List String := []
  compact : Bool := false

/-- What the program is asked to print. -/
inductive Request
  | compile (request : CompileRequest)
  | usages (target : String) (candidates : List String)
  | list (kind : Option SchemaKind)
  | columns (object : String) (json : Bool)

/-- A request with the path that the command line names. -/
structure Invocation where
  path : Option String
  request : Request

/-- What a command takes. -/
structure CommandRule where
  operands : Nat
  options : List (String × OptionRule)

/-- What each command takes. -/
def commandRules : List (String × CommandRule) :=
  [("compile", ⟨1, [("max-length", .repeatable), ("read-only", .repeatable), ("compact", .switch)]⟩),
    ("usages", ⟨1, [("candidate", .repeatable)]⟩),
    ("list", ⟨0, [("kind", .once (fun kind => (SchemaKind.ofName? kind).isSome))]⟩),
    ("columns", ⟨1, [("json", .switch)]⟩)]

/-- The request of a command with its options and operands. -/
def requestOf (command : String) (s : Scanned) : Except Refusal Request :=
  match command, s.operands with
  | "compile", [name] =>
    .ok (.compile ⟨name, s.values "max-length", s.values "read-only", s.has "compact"⟩)
  | "usages", [target] => .ok (.usages target (s.values "candidate"))
  | "list", [] => .ok (.list ((s.values "kind").head?.bind SchemaKind.ofName?))
  | "columns", [object] => .ok (.columns object (s.has "json"))
  | _, _ => .error .usage

/-- Help can be had on the program, on help, and on each command, and on nothing below these. -/
def helpOn : List String → Refusal
  | [] => .help
  | [topic] => if topic = "help" ∨ (Entries.lookup topic commandRules).isSome then .help else .usage
  | _ => .usage

/-- Parse a command line. A path given after the command comes before one given ahead of it. -/
def parse (arguments : List String) : Except Refusal Invocation := do
  let top ← Scanned.scan true 0 globalRules {} arguments
  match top.rest with
  | [] => .error .usage
  | command :: arguments =>
    match Entries.lookup command commandRules with
    | none => .error (if command = "help" then helpOn arguments else .usage)
    | some rule => do
      let s ← Scanned.scan false rule.operands (globalRules ++ rule.options) {} arguments
      let request ← requestOf command s
      let top ← top.settle
      return ⟨(s.values "taxonomy").head?.or (top.values "taxonomy").head?, request⟩

end Taxonomy.CommandLine
