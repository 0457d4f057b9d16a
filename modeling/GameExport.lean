import GameExport.Archive.Checksum
import GameExport.Archive.Creation
import GameExport.Archive.Format
import GameExport.Bytes
import GameExport.Cipher.Block
import GameExport.Cipher.Chaining
import GameExport.Cipher.Descriptor
import GameExport.Cipher.KeySchedule
import GameExport.Cipher.Substitution
import GameExport.CommandLine.Arguments
import GameExport.CommandLine.Command
import GameExport.CommandLine.Failure
import GameExport.CommandLine.Output
import GameExport.CommandLine.Places
import GameExport.CommandLine.Run
import GameExport.Compiler.Call
import GameExport.Compiler.Command
import GameExport.Container.Basic
import GameExport.Container.Opened
import GameExport.Container.Packing
import GameExport.Export.Basic
import GameExport.Export.Compiling
import GameExport.Export.Error
import GameExport.Export.Linking
import GameExport.Export.Packaging
import GameExport.Export.PlatformFiles
import GameExport.Export.Resources
import GameExport.Export.Run
import GameExport.Export.Stage
import GameExport.Extension
import GameExport.FileTree.Basic
import GameExport.FileTree.Error
import GameExport.FileTree.Listing
import GameExport.FileTree.Operations
import GameExport.FileTree.Resolve
import GameExport.Generation.Expansion
import GameExport.Generation.Layout
import GameExport.Generation.Source
import GameExport.Generation.Statement
import GameExport.Inclusion.Analysis
import GameExport.Inclusion.Exploration
import GameExport.Inclusion.Graph
import GameExport.Json.Decoder
import GameExport.Json.Encoded
import GameExport.Json.Printer
import GameExport.Json.Reader
import GameExport.Json.Sorted
import GameExport.Json.Value
import GameExport.Main
import GameExport.Notice.Basic
import GameExport.Notice.Console
import GameExport.Notice.Recording
import GameExport.Number.Binary
import GameExport.Number.Double
import GameExport.Number.Rounding
import GameExport.Number.Shortest
import GameExport.Number.Single
import GameExport.Package.Error
import GameExport.Package.Files
import GameExport.Path
import GameExport.Project.Basic
import GameExport.Project.Document
import GameExport.Project.Events
import GameExport.Project.Storage
import GameExport.Project.Stripping
import GameExport.Project.Units
import GameExport.Queue.Basic
import GameExport.Queue.Token
import GameExport.Queue.Waiting
import GameExport.Queue.Worker
import GameExport.Resource.Exposure
import GameExport.Resource.Naming
import GameExport.Settings.Basic
import GameExport.Settings.Environment
import GameExport.Settings.File
import GameExport.Target
import GameExport.Text.Duration
import GameExport.Text.DurationReader
import GameExport.Text.Lines
import GameExport.Text.NameSet
import GameExport.Text.Quoted
import GameExport.Text.Size
import GameExport.Text.Visible
import GameExport.Toml.Number
import GameExport.Toml.Reader
import GameExport.Toml.Scanner
import GameExport.Toml.Value
import GameExport.Unit
import GameExport.Proofs.Cipher.Inverse
import GameExport.Proofs.Container.RoundTrip
import GameExport.Proofs.Export.Descriptor
import GameExport.Proofs.FileTree.Walking
import GameExport.Proofs.FileTree.Writing
import GameExport.Proofs.Inclusion.Answer
import GameExport.Proofs.Inclusion.Reachability
import GameExport.Proofs.Inclusion.Relation
import GameExport.Proofs.Json.Decoding
import GameExport.Proofs.Json.Layout
import GameExport.Proofs.Json.Tokens
import GameExport.Proofs.Project.Document
import GameExport.Proofs.Export.Running
import GameExport.Proofs.Inclusion.Outline
import GameExport.Proofs.Queue.Waiting
import GameExport.Proofs.Export.Preparing
import GameExport.Proofs.Export.Compiling
import GameExport.Proofs.Export.LinkGate
import GameExport.Proofs.Container.Contents
import GameExport.Proofs.Container.Unpacking
import GameExport.Proofs.FileTree.Emptying
import GameExport.Proofs.Export.Clean
import GameExport.Proofs.Export.Copying
import GameExport.Proofs.Export.Sealing
import GameExport.Proofs.Export.Shipping
import GameExport.Proofs.Generation.Inlining
import GameExport.Proofs.Generation.Joining
import GameExport.Proofs.Generation.Recursion
import GameExport.Proofs.Unit.Stems
import GameExport.Proofs.Generation.Writing
import GameExport.Proofs.Generation.Linkage
import GameExport.Proofs.Generation.Links
import GameExport.Proofs.Generation.Declaring
import GameExport.Proofs.Export.Enduring
import GameExport.Proofs.Export.LinkClosure
import GameExport.Proofs.FileTree.Change
import GameExport.Proofs.Package.Outputs
import GameExport.Proofs.Export.Happening
import GameExport.Proofs.Export.Confinement
import GameExport.Proofs.Export.Placing
import GameExport.Proofs.Export.Delivery
import GameExport.Proofs.FileTree.Plain
import GameExport.Proofs.Queue.Interleaving
import GameExport.Proofs.Queue.WaitLoop
import GameExport.Proofs.Export.Awaiting
import GameExport.Proofs.Export.Proceeding
import GameExport.Proofs.Export.Reporting
import GameExport.Proofs.Export.TimingOut
import GameExport.Proofs.Queue.Settling
import GameExport.Proofs.Export.Exclusion
import GameExport.Proofs.Export.TakingTurns
import GameExport.Proofs.Queue.Order
import GameExport.Proofs.Cipher.Bijection
import GameExport.Proofs.Container.Parsing
import GameExport.Proofs.Container.Opening
import GameExport.Proofs.Resource.Exposing
import GameExport.Proofs.Json.Nesting
import GameExport.Proofs.Project.EventTrees
import GameExport.Proofs.Project.Saving
import GameExport.Proofs.Inclusion.SoleUser
import GameExport.Proofs.Project.FileReferences
import GameExport.Proofs.Resource.Remapping
import GameExport.Proofs.Export.CompiledOnce
import GameExport.Proofs.Export.SingleObjects
import GameExport.Proofs.FileTree.Clearing
import GameExport.Proofs.Queue.Outputs
import GameExport.Proofs.Export.Accepting
import GameExport.Proofs.Unit.Files
import GameExport.Proofs.Export.Advancing
import GameExport.Proofs.Native.Reading
import GameExport.Proofs.Native.Calls
import GameExport.Proofs.Native.Lines
import GameExport.Proofs.Generation.Remarks
import GameExport.Proofs.Generation.Documenting
import GameExport.Proofs.Text.Size
import GameExport.Proofs.FileTree.Below
import GameExport.Proofs.FileTree.Opening
import GameExport.Proofs.Package.Joining
import GameExport.Proofs.Archive.Reading
import GameExport.Proofs.Archive.Covering
import GameExport.Proofs.Export.SelfExtracting
