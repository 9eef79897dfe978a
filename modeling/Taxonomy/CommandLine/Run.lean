import Taxonomy.CommandLine.Report
import Taxonomy.Schema.Load

/-!
# Runs of the program

A run settles at once, or it loads one document and then prints what was asked for. The
path of the document comes from the command line, else from the environment, else it is the standard
one.
-/

namespace Taxonomy.CommandLine

/-- Where a path came from. -/
inductive PathSource
  | flag
  | environment
  | standard
deriving DecidableEq

/-- The document that a run uses. -/
structure Configuration where
  path : String
  source : PathSource
deriving DecidableEq

/-- The document that is used when nothing else is said. -/
def standardPath : String := "references/Master-OB-OpenAPI.json"

/-- The variable of the environment that names the document. -/
def environmentVariable : String := "OBTAX_TAXONOMY"

/-- Choose the document. An empty variable counts as unset. -/
def Configuration.resolve (flag environment : Option String) : Configuration :=
  match flag, environment.filter (fun path => path != "") with
  | some path, _ => ⟨path, .flag⟩
  | none, some path => ⟨path, .environment⟩
  | none, none => ⟨standardPath, .standard⟩

/-- What a run leaves behind. -/
structure Outcome where
  code : Nat
  output : String := ""
  error : Option Failure := none

/-- The line that reports a failure. -/
def Failure.line (f : Failure) : String :=
  "error: " ++ f.message

def versionText : String := "obtax 0.1.0\n"

def helpText : String :=
  "Usage: obtax [OPTIONS] <compile|usages|list|columns>\n"

/-- The outcome of a command line that asks for nothing to be run. -/
def Refusal.outcome : Refusal → Outcome
  | version => { code := 0, output := versionText }
  | help => { code := 0, output := helpText }
  | usage => { code := 2 }

/-- The course of a run. -/
inductive Course
  | settled (outcome : Outcome)
  | reading (path : String) (respond : FileState → Outcome)

/-- The outcome of a request on the file at a path. -/
def respond (path : String) (request : Request) (file : FileState) : Outcome :=
  match (Store.load path file).mapError (Failure.loading path) >>= (printed · request) with
  | .ok output => { code := 0, output := output }
  | .error failure => { code := 1, error := some failure }

/-- The course of a run with these arguments and this variable of the environment. -/
def course (arguments : List String) (environment : Option String) : Course :=
  match parse arguments with
  | .error refusal => .settled refusal.outcome
  | .ok invocation =>
    let path := (Configuration.resolve invocation.path environment).path
    .reading path (respond path invocation.request)

end Taxonomy.CommandLine
