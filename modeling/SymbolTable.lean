import SymbolTable.Catalog
import SymbolTable.ClassPath
import SymbolTable.ClassPath.Platform
import SymbolTable.CommandLine.Arguments
import SymbolTable.CommandLine.Check
import SymbolTable.CommandLine.Execute
import SymbolTable.CommandLine.Files
import SymbolTable.CommandLine.Listing
import SymbolTable.Completer
import SymbolTable.Completion
import SymbolTable.Ident
import SymbolTable.Main
import SymbolTable.Messages
import SymbolTable.Modifiers
import SymbolTable.Name
import SymbolTable.NameTable
import SymbolTable.Opcode
import SymbolTable.Operator
import SymbolTable.Operator.Builtin
import SymbolTable.Options
import SymbolTable.Options.Toml
import SymbolTable.OrderedMap
import SymbolTable.Primitives
import SymbolTable.Proofs.Allocation
import SymbolTable.Proofs.Boxing
import SymbolTable.Proofs.Builtins
import SymbolTable.Proofs.Checking
import SymbolTable.Proofs.Commutation
import SymbolTable.Proofs.Comparisons
import SymbolTable.Proofs.Completing
import SymbolTable.Proofs.Construction
import SymbolTable.Proofs.Definitions
import SymbolTable.Proofs.Enclosing
import SymbolTable.Proofs.Entering
import SymbolTable.Proofs.FailedLookups
import SymbolTable.Proofs.Fallbacks
import SymbolTable.Proofs.Filing
import SymbolTable.Proofs.Filling
import SymbolTable.Proofs.Groundwork
import SymbolTable.Proofs.Growth
import SymbolTable.Proofs.Histories
import SymbolTable.Proofs.Independence
import SymbolTable.Proofs.InterfaceStandins
import SymbolTable.Proofs.Interning
import SymbolTable.Proofs.Lifecycle
import SymbolTable.Proofs.Links
import SymbolTable.Proofs.Listings
import SymbolTable.Proofs.NameFacts
import SymbolTable.Proofs.OperatorEntries
import SymbolTable.Proofs.OperatorTable
import SymbolTable.Proofs.Outcomes
import SymbolTable.Proofs.Overloads
import SymbolTable.Proofs.Permanence
import SymbolTable.Proofs.Registrations
import SymbolTable.Proofs.Registry
import SymbolTable.Proofs.Rendering
import SymbolTable.Proofs.Resolving
import SymbolTable.Proofs.Retention
import SymbolTable.Proofs.ScopeHistories
import SymbolTable.Proofs.Scopes
import SymbolTable.Proofs.SelfHosting
import SymbolTable.Proofs.Session
import SymbolTable.Proofs.Soundness
import SymbolTable.Proofs.StoreFacts
import SymbolTable.Proofs.Traversal
import SymbolTable.Proofs.TypeTrees
import SymbolTable.Resolution
import SymbolTable.Scope
import SymbolTable.Standin
import SymbolTable.Store
import SymbolTable.Symbol
import SymbolTable.Table
import SymbolTable.Table.Build
import SymbolTable.TableError
import SymbolTable.Tag
import SymbolTable.Text.Column
import SymbolTable.Text.Quoted
import SymbolTable.Text.Unprintable
import SymbolTable.Toml.Document
import SymbolTable.Toml.Node
import SymbolTable.Toml.Number
import SymbolTable.Toml.Reader
import SymbolTable.Toml.Text
import SymbolTable.Ty
import SymbolTable.TypeText
import SymbolTable.Visitor
import SymbolTable.WellKnown
import SymbolTable.World
