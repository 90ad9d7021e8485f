import SlotFrame.Command.Arguments
import SlotFrame.Command.Render
import SlotFrame.Config.Basic
import SlotFrame.Config.Duration
import SlotFrame.Data.Binary64
import SlotFrame.Data.Letters
import SlotFrame.Data.Table
import SlotFrame.Data.Text
import SlotFrame.Data.Utf8
import SlotFrame.Data.Value
import SlotFrame.Document.Tree
import SlotFrame.Fault
import SlotFrame.Hierarchy.Closure
import SlotFrame.Import.Load
import SlotFrame.Import.Resolve
import SlotFrame.Json.Read
import SlotFrame.Json.Write
import SlotFrame.Location.Basic
import SlotFrame.Location.FilePath
import SlotFrame.Location.Host
import SlotFrame.Location.Percent
import SlotFrame.Location.Punycode
import SlotFrame.Location.Url
import SlotFrame.Main
import SlotFrame.Namespace.Basic
import SlotFrame.Namespace.Registry
import SlotFrame.Proofs.Data.Tables
import SlotFrame.Proofs.Schema.Filling
import SlotFrame.Registry.Ancestry
import SlotFrame.Registry.Basic
import SlotFrame.Registry.Flatten
import SlotFrame.Registry.Induction
import SlotFrame.Registry.Materialize
import SlotFrame.Registry.Order
import SlotFrame.Registry.Prefixes
import SlotFrame.Schema.Decode
import SlotFrame.Schema.Definition
import SlotFrame.Schema.Encode
import SlotFrame.Schema.Fill
import SlotFrame.Schema.Normalize
import SlotFrame.Schema.Read
import SlotFrame.Source.Basic
import SlotFrame.Source.FileTree
import SlotFrame.Source.Web
import SlotFrame.Toml.Read
import SlotFrame.Toml.Scalar
import SlotFrame.Toml.Table
import SlotFrame.View.Basic
import SlotFrame.View.Derive
import SlotFrame.View.Imports
import SlotFrame.Walk.Basic
import SlotFrame.Walk.Place
import SlotFrame.Yaml.Cursor
import SlotFrame.Yaml.Node
import SlotFrame.Yaml.Read
import SlotFrame.Yaml.ScalarText
import SlotFrame.Yaml.Token
import SlotFrame.Yaml.Write
import SlotFrame.Proofs.Hierarchy.Closure
import SlotFrame.Proofs.Registry.Precedence
import SlotFrame.Proofs.View.Reachable
import SlotFrame.Proofs.View.Remembering
import SlotFrame.Proofs.View.Induction
import SlotFrame.Proofs.Registry.Flattening
import SlotFrame.Proofs.View.Flattening
import SlotFrame.Proofs.Import.DepthFirst
import SlotFrame.Proofs.View.Recording
import SlotFrame.Proofs.View.ImportClosure
import SlotFrame.Proofs.Registry.Unambiguous
import SlotFrame.Proofs.Hierarchy.Reachability
import SlotFrame.Proofs.Hierarchy.WaysBack
import SlotFrame.Proofs.Hierarchy.Visits
import SlotFrame.Proofs.Hierarchy.MarkedPaths
import SlotFrame.Proofs.Hierarchy.Acyclicity
import SlotFrame.Proofs.Registry.AttributeSearch
import SlotFrame.Proofs.View.Neutrality
import SlotFrame.Proofs.Data.ValueTrees
import SlotFrame.Proofs.Schema.Fields
import SlotFrame.Proofs.Schema.Storable
import SlotFrame.Proofs.Schema.RoundTrip
import SlotFrame.Proofs.Schema.Absorption
import SlotFrame.Proofs.Registry.Writing
import SlotFrame.Proofs.Registry.ClassSlots
import SlotFrame.Proofs.Registry.Materialized
import SlotFrame.Proofs.Registry.Settling
import SlotFrame.Proofs.Registry.Layering
import SlotFrame.Proofs.View.Materialization
import SlotFrame.Proofs.Namespace.Tables
import SlotFrame.Proofs.Namespace.Contraction
import SlotFrame.Proofs.Registry.SlotTable
import SlotFrame.Proofs.View.ImportedDocuments
import SlotFrame.Proofs.View.Resumption
import SlotFrame.Proofs.Import.Course
import SlotFrame.Proofs.Import.Interruption
import SlotFrame.Proofs.View.Attempts
import SlotFrame.Proofs.Registry.PrefixTable
import SlotFrame.Proofs.View.PrefixTable
import SlotFrame.Proofs.View.PrefixHistory
import SlotFrame.Proofs.Registry.Faults
import SlotFrame.Proofs.Walk.Calls
import SlotFrame.Proofs.Walk.PostOrder
import SlotFrame.Proofs.Walk.Strictness
import SlotFrame.Proofs.Walk.Collections
import SlotFrame.Proofs.Registry.Declarations
import SlotFrame.Proofs.Registry.Descendants
import SlotFrame.Proofs.Schema.Coverage
import SlotFrame.Proofs.Registry.Inheritance
import SlotFrame.Proofs.Namespace.Operations
import SlotFrame.Proofs.Namespace.SharedMaps
import SlotFrame.Proofs.Schema.Provenance
import SlotFrame.Proofs.Registry.Shelf
import SlotFrame.Proofs.View.PrimaryDocument
import SlotFrame.Proofs.Registry.Writable
import SlotFrame.Proofs.View.WritableDocuments
import SlotFrame.Proofs.Registry.Printed
import SlotFrame.Proofs.Command.Rendering
import SlotFrame.Proofs.Hierarchy.Outcomes
import SlotFrame.Proofs.Hierarchy.Exploration
import SlotFrame.Proofs.Registry.InducedClasses
import SlotFrame.Proofs.View.InducedClasses
import SlotFrame.Proofs.Schema.FillLaws
import SlotFrame.Proofs.Hierarchy.ParentLines
import SlotFrame.Proofs.Registry.ParentLines
import SlotFrame.Proofs.View.ParentLines
import SlotFrame.Proofs.Registry.SlotOutcomes
import SlotFrame.Proofs.View.SlotOutcomes
import SlotFrame.Proofs.Registry.WrittenDocuments
import SlotFrame.Proofs.View.WrittenDocuments
import SlotFrame.Proofs.Namespace.LongestNamespace
import SlotFrame.Proofs.Walk.Pointers
import SlotFrame.Proofs.Walk.Places
import SlotFrame.Proofs.View.LoadedProvenance
import SlotFrame.Proofs.Registry.RootsAndLeaves
import SlotFrame.Proofs.Import.BareReferences
import SlotFrame.Proofs.Registry.Orders
import SlotFrame.Proofs.Schema.Naming
import SlotFrame.Proofs.Schema.Preparation
