import LocalNames.Json
import LocalNames.Session
import LocalNames.Proofs.TypeName
import LocalNames.Proofs.Family
import LocalNames.Proofs.Scope
import LocalNames.Proofs.Options
import LocalNames.Proofs.Call
import LocalNames.Proofs.Soundness
import LocalNames.Proofs.Numbering
import LocalNames.Proofs.Uniqueness
import LocalNames.Proofs.Stability
import LocalNames.Proofs.ScopeTree
import LocalNames.Proofs.Session
import LocalNames.Proofs.Accounting
import LocalNames.Proofs.Lookup
import LocalNames.Proofs.Batch
import LocalNames.Proofs.Blocks
import LocalNames.Proofs.Document
import LocalNames.Proofs.Extension
import LocalNames.Proofs.Toml.Quoted
import LocalNames.Proofs.Toml.Number
import LocalNames.Proofs.Toml.Value
import LocalNames.Proofs.Toml.Line
import LocalNames.Proofs.Toml.Draft
import LocalNames.Proofs.Toml.RoundTrip
import LocalNames.Proofs.Collapse
import LocalNames.Proofs.ArrayFamily
import LocalNames.Proofs.PlainName
import LocalNames.Proofs.Inheritance
import LocalNames.Proofs.Log
import LocalNames.Proofs.DerivedFamily
import LocalNames.Proofs.Commutation
import LocalNames.Proofs.Repetition
import LocalNames.Proofs.SimpleName
import LocalNames.Proofs.Defects
import LocalNames.Proofs.OneType
import LocalNames.Proofs.Rotation
import LocalNames.Proofs.MarkerRuns
import LocalNames.Proofs.CanonicalKey
import LocalNames.Proofs.Rendering
