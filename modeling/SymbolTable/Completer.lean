/-
Deferred completion of classes.

A completer says how a class is to be filled in when somebody first needs
it. It is data: a definition to read from the class path, a stand-in to
synthesize, a completer with another one to fall back on, or a list of
steps.
-/
import SymbolTable.Ident
import SymbolTable.Modifiers
import SymbolTable.NameTable

namespace SymbolTable

/-- Why a class could not be completed. -/
inductive FailureKind where
  /-- The class path has no definition. -/
  | notFound
  /-- There is a definition that cannot be used. -/
  | badClassFile (reason : String)
  deriving DecidableEq, Repr

def FailureKind.message : FailureKind → String
  | notFound => "class file not found"
  | badClassFile reason => "bad class file: " ++ reason

/-- A class that could not be completed. -/
structure CompletionFailure where
  symbol : SymbolId
  /-- The flat name that failed. -/
  name : Name
  kind : FailureKind
  deriving DecidableEq, Repr

namespace CompletionFailure

def isNotFound (f : CompletionFailure) : Bool := decide (f.kind = .notFound)

/-- The failure as shown to users, naming the class by its key. -/
def message (names : NameTable) (f : CompletionFailure) : String :=
  let key := ((names.key? f.name).map Key.text).getD ""
  s!"cannot complete {key}: {f.kind.message}"

end CompletionFailure

/-- A wrapper class to synthesize for a primitive type. -/
structure BoxPlan where
  primitive : TypeId
  object : TypeId
  /-- Name of the static boxing method. -/
  factory : Name
  /-- Name of the unboxing method. -/
  unbox : Name
  /-- Owner of every method type. -/
  methodClass : SymbolId
  deriving DecidableEq, Repr

inductive Completer where
  /-- Nothing is left to do. -/
  | done
  /-- Fill the class in from its definition on the class path. -/
  | classFile (flat : Name)
  /-- Make the class an empty public interface below `object`. -/
  | emptyInterface (object : TypeId)
  /-- Make the class a wrapper of a primitive type. -/
  | box (plan : BoxPlan)
  /-- Run `base`; if there is no class file for it, run `fallback` with that failure at hand. -/
  | orElse (base fallback : Completer)
  /-- Add modifiers to the class. -/
  | modify (modifiers : Modifiers) (next : Completer)
  /-- Give the class a fresh member scope. -/
  | openMembers (next : Completer)
  /-- Ask the resolver for a class. -/
  | request (flat : Name) (next : Completer)
  /-- Complete the class registered under a name, if there is one. -/
  | complete (flat : Name) (next : Completer)
  /-- Leave a new completer on the class. -/
  | install (completer next : Completer)
  /-- Fail because a class does not exist. -/
  | notFound (name : Name)
  /-- Fail because a definition cannot be used. -/
  | badClassFile (name : Name) (reason : String)
  /-- Fail with the failure at hand, if there is one. -/
  | rethrow (next : Completer)
  deriving DecidableEq, Repr, Inhabited

/-- How many completions of other classes a completer asks for, counting those of the completers
it installs. -/
def Completer.demands : Completer → Nat
  | orElse base fallback => base.demands + fallback.demands
  | modify _ next | openMembers next | request _ next | rethrow next => next.demands
  | complete _ next => next.demands + 1
  | install completer next => completer.demands + next.demands
  | _ => 0

end SymbolTable
