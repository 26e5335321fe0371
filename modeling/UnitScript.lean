import UnitScript.Bytes
import UnitScript.Cache.BuildId
import UnitScript.Cache.Cbor
import UnitScript.Cache.Key
import UnitScript.Cache.Meta
import UnitScript.Cache.Store
import UnitScript.Cache.Target
import UnitScript.Code.CodeUnit
import UnitScript.Code.Decoding
import UnitScript.Code.Encoding
import UnitScript.Code.Instruction
import UnitScript.Code.Listing
import UnitScript.Code.Scratch
import UnitScript.Command
import UnitScript.Command.Flags
import UnitScript.Command.Session
import UnitScript.Command.World
import UnitScript.Decimal
import UnitScript.Digest.Blake2b
import UnitScript.File.Path
import UnitScript.File.Tree
import UnitScript.Hazard
import UnitScript.Hazard.Capture
import UnitScript.Hazard.Escape
import UnitScript.Hazard.Report
import UnitScript.Kind
import UnitScript.Kind.Inference
import UnitScript.Kind.Symbols
import UnitScript.Lowering.Compile
import UnitScript.Lowering.Context
import UnitScript.Lowering.Error
import UnitScript.Lowering.Expr
import UnitScript.Machine.Builtin
import UnitScript.Machine.Console
import UnitScript.Machine.Run
import UnitScript.Machine.State
import UnitScript.Machine.Step
import UnitScript.Machine.Value
import UnitScript.Main
import UnitScript.Module.Fault
import UnitScript.Module.Imports
import UnitScript.Module.Loader
import UnitScript.Module.Log
import UnitScript.NameMap
import UnitScript.Position
import UnitScript.Project.Config
import UnitScript.Project.Manifest
import UnitScript.Syntax.Node
import UnitScript.Syntax.Outline
import UnitScript.Syntax.Parser
import UnitScript.Text.Blank
import UnitScript.Text.CombiningClass
import UnitScript.Text.Composition
import UnitScript.Text.Decomposition
import UnitScript.Text.Letter
import UnitScript.Text.Mark
import UnitScript.Text.Normal
import UnitScript.Text.Printable
import UnitScript.Text.Quoted
import UnitScript.Text.Range
import UnitScript.Text.Scan
import UnitScript.Text.Utf8
import UnitScript.Token
import UnitScript.Token.Lexer
import UnitScript.Toml.Document
import UnitScript.Toml.Parser
import UnitScript.Toml.Schema
import UnitScript.Toml.Written
import UnitScript.Yaml.Node
import UnitScript.Yaml.Parser
import UnitScript.Proofs.Code.Reading
import UnitScript.Proofs.Code.Representable
import UnitScript.Proofs.Code.Exact
import UnitScript.Proofs.Code.UnitForm
import UnitScript.Proofs.Machine.Course
import UnitScript.Proofs.Meaning.Direct
import UnitScript.Proofs.Lowering.Statements
import UnitScript.Proofs.Lowering.Strings
import UnitScript.Proofs.Syntax.Names
import UnitScript.Proofs.Lowering.Preservation
import UnitScript.Proofs.Machine.Cells
import UnitScript.Proofs.Machine.Progress
import UnitScript.Proofs.Machine.Discipline
import UnitScript.Proofs.Code.Bodies
import UnitScript.Proofs.Lowering.Tidiness
import UnitScript.Proofs.Lowering.Order
import UnitScript.Proofs.Bytes
import UnitScript.Proofs.Kind.Texts
import UnitScript.Proofs.Code.NormalForm
import UnitScript.Proofs.Code.Limits
import UnitScript.Proofs.Cache.Separation
import UnitScript.Proofs.Lowering.Exports
import UnitScript.Proofs.Lowering.ReadBack
import UnitScript.Proofs.Code.Unique
import UnitScript.Proofs.Lowering.Imports
import UnitScript.Proofs.Module.Imports
import UnitScript.Proofs.Cache.Determination
import UnitScript.Proofs.Module.Finding
import UnitScript.Proofs.Module.Growth
import UnitScript.Proofs.Module.Transparency
import UnitScript.Proofs.Module.Twins
import UnitScript.Proofs.Machine.Outcome
import UnitScript.Proofs.Machine.Isolation
import UnitScript.Proofs.Machine.Operations
import UnitScript.Proofs.Machine.Continuity
import UnitScript.Proofs.Machine.Runs
import UnitScript.Proofs.Machine.Relaxation
import UnitScript.Proofs.Machine.Guards
import UnitScript.Proofs.Machine.Relocation
import UnitScript.Proofs.Machine.Mirroring
import UnitScript.Proofs.Machine.Failure
import UnitScript.Proofs.Machine.Replay
import UnitScript.Proofs.Code.Data
import UnitScript.Proofs.Machine.Data
import UnitScript.Proofs.Machine.Termination
import UnitScript.Proofs.Code.Levels
import UnitScript.Proofs.Syntax.Lexing
import UnitScript.Proofs.Syntax.Layout
import UnitScript.Proofs.Syntax.Lexemes
import UnitScript.Proofs.Syntax.Words
import UnitScript.Proofs.Syntax.Spelling
import UnitScript.Proofs.Lowering.Standalone
import UnitScript.Proofs.Lowering.LoopFree
import UnitScript.Proofs.Lowering.Temporaries
import UnitScript.Proofs.Lowering.Literals
import UnitScript.Proofs.Lowering.Constants
import UnitScript.Proofs.Lowering.Arrangement
import UnitScript.Proofs.Lowering.Structure
import UnitScript.Proofs.Machine.Exchange
import UnitScript.Proofs.Machine.Balance
import UnitScript.Proofs.Lowering.Signatures
import UnitScript.Proofs.Lowering.Depths
import UnitScript.Proofs.Lowering.CallConvention
import UnitScript.Proofs.Syntax.Surface
import UnitScript.Proofs.Syntax.Reading
import UnitScript.Proofs.Syntax.Expressions
import UnitScript.Proofs.Syntax.RoundTrip
import UnitScript.Proofs.Syntax.Descent
import UnitScript.Proofs.Syntax.Scanning
import UnitScript.Proofs.Syntax.Silence
import UnitScript.Proofs.Lowering.Demand
import UnitScript.Proofs.Module.Settlement
import UnitScript.Proofs.Module.Unbounded
import UnitScript.Proofs.Module.History
import UnitScript.Proofs.Hazard.Knowledge
import UnitScript.Proofs.Hazard.Sites
import UnitScript.Proofs.Hazard.SelfCalls
import UnitScript.Proofs.Lowering.Results
import UnitScript.Proofs.Lowering.Scoping
import UnitScript.Proofs.Machine.Unconsulted
import UnitScript.Proofs.Lowering.Initializers
import UnitScript.Proofs.Code.Renaming
import UnitScript.Proofs.Lowering.CellNames
import UnitScript.Proofs.Lowering.Renaming
import UnitScript.Proofs.Lowering.Mentions
import UnitScript.Proofs.Lowering.Pool
import UnitScript.Proofs.Hazard.Captures
import UnitScript.Proofs.Syntax.Numerals
import UnitScript.Proofs.Project.StoreNames
import UnitScript.Proofs.Lowering.Liveness
import UnitScript.Proofs.Lowering.Spills
