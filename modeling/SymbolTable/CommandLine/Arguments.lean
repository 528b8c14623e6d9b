/-
Command-line arguments.

Options may stand before the command and after it, and each of the two
places may name an option once; the later place wins. A flag takes no value.
The value of an option is attached with `=` or is the next argument, which
then must not look like an option itself.
-/
import SymbolTable.Options

namespace SymbolTable.CommandLine

inductive Command where
  /-- List the overloads of one operator, or of all. -/
  | operators (name : Option String)
  /-- List the predefined scope. -/
  | predef
  /-- Complete every class. -/
  | check
  deriving DecidableEq, Repr

/-- What the arguments ask for. -/
structure Invocation where
  command : Command
  selfHosting : Bool
  release : Option Release
  /-- The file to read options from. -/
  config : Option String
  verbosity : Nat
  deriving DecidableEq, Repr

/-- The commands a user can name. -/
inductive Topic where
  | operators
  | predef
  | check
  deriving DecidableEq, Repr

def Topic.ofWord? : String → Option Topic
  | "operators" => some operators
  | "predef" => some predef
  | "check" => some check
  | _ => none

/-- Why no command is run. -/
inductive Halt where
  /-- The arguments make no sense. -/
  | usage
  | version
  | help (topic : Option Topic)
  deriving DecidableEq, Repr

/-- The options given in one place. -/
structure Settings where
  selfHosting : Bool
  release : Option Release
  config : Option String
  verbosity : Nat
  deriving DecidableEq, Repr

namespace Settings

def none : Settings := ⟨false, .none, .none, 0⟩

/-- An option is given at most once in a place. -/
def setSelfHosting (s : Settings) : Except Halt Settings :=
  if s.selfHosting then .error .usage else .ok { s with selfHosting := true }

def setRelease (s : Settings) (value : String) : Except Halt Settings :=
  match s.release, Release.parse? value with
  | .none, some r => .ok { s with release := some r }
  | _, _ => .error .usage

def setConfig (s : Settings) (value : String) : Except Halt Settings :=
  if s.config.isSome ∨ value = "" then .error .usage else .ok { s with config := some value }

def raise (s : Settings) : Settings := { s with verbosity := s.verbosity + 1 }

/-- What the option leads to, given its value if one is attached: new settings, or the need for a
value. -/
inductive Effect where
  | settings (s : Settings)
  | needsValue (set : String → Except Halt Settings)

/-- A flag takes no value. -/
def flag (attached : Option String) (e : Except Halt Settings) : Except Halt Effect :=
  if attached.isSome then .error .usage else e.map .settings

def valued (attached : Option String) (set : String → Except Halt Settings) :
    Except Halt Effect :=
  match attached with
  | some value => (set value).map .settings
  | .none => .ok (.needsValue set)

/-- An option by its long name. Only the outer place, which has no topic, has a version. -/
def long (s : Settings) (topic : Option Topic) (name : String) (attached : Option String) :
    Except Halt Effect :=
  match name with
  | "bootstrap" => flag attached s.setSelfHosting
  | "verbose" => flag attached (.ok s.raise)
  | "target" => valued attached s.setRelease
  | "config" => valued attached s.setConfig
  | "help" => flag attached (.error (.help topic))
  | "version" => if topic.isSome then .error .usage else flag attached (.error .version)
  | _ => .error .usage

/-- Options by their letters, one after the other. -/
def short (s : Settings) (topic : Option Topic) : List Char → Except Halt Settings
  | [] => .ok s
  | 'v' :: rest => s.raise.short topic rest
  | 'h' :: _ => .error (.help topic)
  | 'V' :: _ => if topic.isSome then .error .usage else .error .version
  | _ => .error .usage

end Settings

/-- What an argument looks like. -/
inductive Shape where
  | word
  /-- Everything that follows is a word. -/
  | endOfOptions
  | long (name : String) (attached : Option String)
  | short (letters : List Char)

/-- The shape of an argument. A lone dash is a word. -/
def Shape.of (arg : String) : Shape :=
  match arg.toList with
  | ['-', '-'] => endOfOptions
  | '-' :: '-' :: cs =>
    let name := cs.takeWhile (· ≠ '=')
    long (String.ofList name)
      (if '=' ∈ cs then some (String.ofList (cs.drop (name.length + 1))) else none)
  | '-' :: c :: cs => short (c :: cs)
  | _ => word

def looksLikeOption (arg : String) : Bool :=
  match Shape.of arg with
  | .word => false
  | _ => true

/-- The name that an operator listing is for; other commands take no words. -/
def takeWord (topic : Topic) (name : Option String) (word : String) :
    Except Halt (Option String) :=
  if topic = .operators ∧ name = none then .ok (some word) else .error .usage

def takeWords (topic : Topic) (name : Option String) (words : List String) :
    Except Halt (Option String) :=
  words.foldlM (takeWord topic) name

/-- Reads what follows a command. -/
def readInner (topic : Topic) (s : Settings) (name : Option String) :
    List String → Except Halt (Settings × Option String)
  | [] => .ok (s, name)
  | arg :: rest =>
    match Shape.of arg with
    | .word => do readInner topic s (← takeWord topic name arg) rest
    | .endOfOptions => do return (s, ← takeWords topic name rest)
    | .short letters => do readInner topic (← s.short (some topic) letters) name rest
    | .long option attached => do
      match ← s.long (some topic) option attached with
      | .settings s => readInner topic s name rest
      | .needsValue set =>
        match rest with
        | [] => .error .usage
        | value :: rest =>
          if looksLikeOption value then .error .usage
          else do readInner topic (← set value) name rest

def commandOf (topic : Topic) (name : Option String) : Command :=
  match topic with
  | .operators => .operators name
  | .predef => .predef
  | .check => .check

/-- The help on what is named. -/
def helpOn : List String → Halt
  | [] => .help none
  | [word] =>
    match Topic.ofWord? word with
    | some topic => .help (some topic)
    | none => .usage
  | _ => .usage

/-- Reads what stands before the command, and the command. -/
def readOuter (s : Settings) : List String → Except Halt Invocation
  | [] => .error .usage
  | arg :: rest =>
    match Shape.of arg with
    | .word =>
      match Topic.ofWord? arg with
      | some topic => do
        let (inner, name) ← readInner topic .none none rest
        return {
          command := commandOf topic name
          selfHosting := s.selfHosting || inner.selfHosting
          release := inner.release <|> s.release
          config := inner.config <|> s.config
          verbosity := if inner.verbosity = 0 then s.verbosity else inner.verbosity }
      | none => .error (if arg = "help" then helpOn rest else .usage)
    | .endOfOptions => .error .usage
    | .short letters => do readOuter (← s.short none letters) rest
    | .long option attached => do
      match ← s.long none option attached with
      | .settings s => readOuter s rest
      | .needsValue set =>
        match rest with
        | [] => .error .usage
        | value :: rest =>
          if looksLikeOption value then .error .usage
          else do readOuter (← set value) rest

/-- What the arguments ask for. -/
def parse (args : List String) : Except Halt Invocation := readOuter .none args

end SymbolTable.CommandLine
