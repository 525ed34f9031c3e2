import RadioBroker.Cancellation
import RadioBroker.Declaration.Builder
import RadioBroker.Declaration.Writer
import RadioBroker.Files.Tree
import RadioBroker.Json.Printer
import RadioBroker.Location.Reader
import RadioBroker.Main
import RadioBroker.Proofs.Command.Summary
import RadioBroker.Proofs.Declaration.FullNames
import RadioBroker.Proofs.Declaration.RoundTrip
import RadioBroker.Proofs.Declaration.Survivors
import RadioBroker.Proofs.Diagnostic.History
import RadioBroker.Proofs.Diagnostic.Log
import RadioBroker.Proofs.Dispatch.Aggregation
import RadioBroker.Proofs.Dispatch.Body
import RadioBroker.Proofs.Dispatch.FanOut
import RadioBroker.Proofs.Dispatch.Loop
import RadioBroker.Proofs.Dispatch.Machine
import RadioBroker.Proofs.Dispatch.Run
import RadioBroker.Proofs.Generation.Fatality
import RadioBroker.Proofs.Generation.Interruption
import RadioBroker.Proofs.Generation.UnitNames
import RadioBroker.Proofs.Program.Brokers
import RadioBroker.Proofs.Program.Composition
import RadioBroker.Proofs.Program.Contract
import RadioBroker.Proofs.Program.Initializers
import RadioBroker.Proofs.Program.Level
import RadioBroker.Proofs.Program.LinkBounds
import RadioBroker.Proofs.Program.Reach
import RadioBroker.Proofs.Program.Registrations
import RadioBroker.Proofs.Program.Reordering
import RadioBroker.Proofs.Program.Routines
import RadioBroker.Proofs.Program.Startup
import RadioBroker.Proofs.Program.Totality
import RadioBroker.Proofs.Render.Indentation
import RadioBroker.Proofs.Render.Margins
import RadioBroker.Proofs.Render.ResultsBuffer
import RadioBroker.Proofs.Render.Rows
import RadioBroker.Proofs.ServiceModel.Candidates
import RadioBroker.Proofs.ServiceModel.Components
import RadioBroker.Proofs.ServiceModel.Composition
import RadioBroker.Proofs.ServiceModel.Counts
import RadioBroker.Proofs.ServiceModel.Instances
import RadioBroker.Proofs.ServiceModel.Linked
import RadioBroker.Proofs.ServiceModel.Linking
import RadioBroker.Proofs.ServiceModel.Markers
import RadioBroker.Proofs.ServiceModel.Ownership
import RadioBroker.Proofs.ServiceModel.Preparation
import RadioBroker.Proofs.ServiceModel.Renaming
import RadioBroker.Proofs.ServiceModel.Reordering
import RadioBroker.Proofs.ServiceModel.ReportedOnce
import RadioBroker.Proofs.ServiceModel.Reports
import RadioBroker.Proofs.ServiceModel.Steps
import RadioBroker.Proofs.Traversal
import RadioBroker.Proofs.TypeExpr.Errors
import RadioBroker.Proofs.TypeExpr.Names
import RadioBroker.Proofs.TypeExpr.Shape
import RadioBroker.Proofs.TypeExpr.SubstitutionLaws
import RadioBroker.Proofs.TypeGraph.Bounds
import RadioBroker.Proofs.TypeGraph.ByName
import RadioBroker.Proofs.TypeGraph.Collisions
import RadioBroker.Proofs.TypeGraph.Completion
import RadioBroker.Proofs.TypeGraph.Containment
import RadioBroker.Proofs.TypeGraph.DepthFirst
import RadioBroker.Proofs.TypeGraph.Embedding
import RadioBroker.Proofs.TypeGraph.Interfaces
import RadioBroker.Proofs.TypeGraph.Joining
import RadioBroker.Proofs.TypeGraph.Mentions
import RadioBroker.Proofs.TypeGraph.WellFormed
import RadioBroker.Settings.Reader
