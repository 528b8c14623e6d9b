/-
Running a command: from arguments to what is printed.
-/
import SymbolTable.ClassPath.Platform
import SymbolTable.CommandLine.Arguments
import SymbolTable.CommandLine.Check
import SymbolTable.CommandLine.Files
import SymbolTable.CommandLine.Listing
import SymbolTable.Options.Toml
import SymbolTable.Resolution
import SymbolTable.Table.Build
import SymbolTable.Text.Quoted

namespace SymbolTable.CommandLine

/-- What a run prints, and its exit code. -/
structure Outcome where
  exit : Nat
  stdout : String
  stderr : String
  deriving DecidableEq, Repr

/-- Why a command failed. -/
inductive Failure where
  | unreadableConfig (path : String) (cause : ReadFailure)
  | invalidConfig (path : String)
  | notBuilt (cause : TableError)
  | noOperator (name : String)
  | noPredefScope
  | checkFailed (count : Nat)
  deriving DecidableEq, Repr

/-- The message of a failure; a cause follows on lines of its own. -/
def Failure.message : Failure → String
  | unreadableConfig path cause =>
    s!"Failed to read config file {path}\n\nCaused by:\n    {cause.message}"
  | invalidConfig path =>
    s!"Invalid config file {path}\n\nCaused by:\n    0: Failed to parse symbol table options"
  | notBuilt cause =>
    s!"Failed to build the predefined symbol table\n\nCaused by:\n    {cause.message}"
  | noOperator name => s!"No operator named {Text.quoted name}"
  | noPredefScope => "Predef class has no member scope"
  | checkFailed count => s!"Check failed with {count} errors"

/-- Lines as they are printed. -/
def printed (lines : List String) : String := String.join (lines.map (· ++ "\n"))

def succeed (lines : List String) : Outcome := ⟨0, printed lines, ""⟩

def Failure.outcome (f : Failure) : Outcome := ⟨1, "", "Error: " ++ f.message ++ "\n"⟩

/-! ## Help -/

def optionHelp : List String :=
  ["      --bootstrap        Compile the core library from source instead of loading it",
   "      --target <TARGET>  Target platform release (1.4, 1.5, 1.6 or 1.7)",
   "      --config <CONFIG>  TOML file with symbol table options",
   "  -v, --verbose...       Log more (-v for debug, -vv for trace)",
   "  -h, --help             Print help"]

def helpLines : Option Topic → List String
  | none =>
    ["Inspect the predefined symbol table",
     "",
     "Usage: raven-symtab [OPTIONS] <COMMAND>",
     "",
     "Commands:",
     "  operators  List built-in operator overloads",
     "  predef     List the predefined scope",
     "  check      Complete every resolved platform class and report failures",
     "  help       Print this message or the help of the given subcommand(s)",
     "",
     "Options:"] ++ optionHelp ++ ["  -V, --version          Print version"]
  | some .operators =>
    ["List built-in operator overloads",
     "",
     "Usage: raven-symtab operators [OPTIONS] [NAME]",
     "",
     "Arguments:",
     "  [NAME]  Only list overloads of this operator",
     "",
     "Options:"] ++ optionHelp
  | some .predef =>
    ["List the predefined scope",
     "",
     "Usage: raven-symtab predef [OPTIONS]",
     "",
     "Options:"] ++ optionHelp
  | some .check =>
    ["Complete every resolved platform class and report failures",
     "",
     "Usage: raven-symtab check [OPTIONS]",
     "",
     "Options:"] ++ optionHelp

def Halt.outcome : Halt → Outcome
  | usage => ⟨2, "", printed ["Usage: raven-symtab [OPTIONS] <COMMAND>", "",
      "For more information, try '--help'."]⟩
  | version => succeed ["raven-symtab 0.1.0"]
  | help topic => succeed (helpLines topic)

/-! ## Commands -/

/-- Options from the config file, if one is named, with those of the command line on top. -/
def Invocation.options (i : Invocation) (config : Option (String × Except ReadFailure String)) :
    Except Failure Options := do
  let o ← match config with
    | none => pure Options.default
    | some (path, .error cause) => throw (.unreadableConfig path cause)
    | some (path, .ok text) =>
      match Options.ofToml? text with
      | some o => pure o
      | none => throw (.invalidConfig path)
  return { selfHosting := o.selfHosting || i.selfHosting, release := i.release.getD o.release }

/-- Builds the table as a compilation does. When the core library is compiled from source, it joins
the class path only once the table is there. -/
def buildTable (o : Options) : Except TableError Table × World :=
  let r := ClassPath.resolver
  let w := World.empty.definePlatform
  if o.selfHosting then
    match Table.build o Messages.english r w with
    | (.error e, w) => (.error e, w)
    | (.ok t, w) =>
      let (t, w) := t.loadCore r w.defineCore
      (.ok t, w)
  else Table.build o Messages.english r w.defineCore

def runOperators (t : Table) (w : World) (name : Option String) : Outcome :=
  match listed t w.store name with
  | [] => (Failure.noOperator (name.getD "")).outcome
  | os => succeed (operatorListing w.store os)

def runPredef (t : Table) (w : World) : Outcome :=
  match w.store.members? t.predefClass with
  | none => Failure.noPredefScope.outcome
  | some scope => succeed (predefListing w.store scope)

def runCheck (w : World) : Outcome :=
  let (report, _) := w.check ClassPath.resolver
  if report.succeeded then ⟨0, printed report.lines, printed report.errorLines⟩
  else
    let failed := (Failure.checkFailed report.failures.length).outcome
    ⟨failed.exit, printed report.lines, printed report.errorLines ++ failed.stderr⟩

/-- Runs a command, given what reading the config file gave. -/
def Invocation.execute (i : Invocation) (config : Option (Except ReadFailure String)) : Outcome :=
  match i.options (config.map fun c => (i.config.getD "", c)) with
  | .error f => f.outcome
  | .ok o =>
    match buildTable o with
    | (.error e, _) => (Failure.notBuilt e).outcome
    | (.ok t, w) =>
      match i.command with
      | .operators name => runOperators t w name
      | .predef => runPredef t w
      | .check => runCheck w

/-- A whole run over the files it can read. -/
def run (fs : Files) (args : List String) : Outcome :=
  match parse args with
  | .error halt => halt.outcome
  | .ok i => i.execute (i.config.map fs.read)

end SymbolTable.CommandLine
