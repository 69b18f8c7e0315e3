import QueryDepth.Document.Outline
import QueryDepth.Host.Sandbox
import QueryDepth.Introspection.Answer
import QueryDepth.Main
import QueryDepth.Schema.Summary
import QueryDepth.Proofs.Depth.Recording
import QueryDepth.Proofs.Depth.Shape
import QueryDepth.Proofs.Depth.Limit
import QueryDepth.Proofs.Depth.Measuring
import QueryDepth.Proofs.Index
import QueryDepth.Proofs.Validation.Alone
import QueryDepth.Proofs.Depth.Acyclic
import QueryDepth.Proofs.Validation.Coverage
import QueryDepth.Proofs.Depth.Inlining
import QueryDepth.Proofs.Depth.Clamping
import QueryDepth.Proofs.Depth.FragmentGraph
import QueryDepth.Proofs.Depth.CallChain
import QueryDepth.Proofs.Validation.Independence
import QueryDepth.Proofs.Validation.Conservative
import QueryDepth.Proofs.Validation.Widening
import QueryDepth.Proofs.CommandLine.ExitCode
import QueryDepth.Proofs.Validation.Agreement
import QueryDepth.Proofs.Validation.Sharing
import QueryDepth.Proofs.Depth.Sites
import QueryDepth.Proofs.CommandLine.SingleOption
import QueryDepth.Proofs.Config.IgnoreOption
import QueryDepth.Proofs.CommandLine.Configured
import QueryDepth.Proofs.Depth.Siblings
import QueryDepth.Proofs.Depth.Returning
import QueryDepth.Proofs.Depth.Rearranging
import QueryDepth.Proofs.Validation.Raising
import QueryDepth.Proofs.Depth.Failing
import QueryDepth.Proofs.Depth.Bounding
import QueryDepth.Proofs.Depth.Wrapping
import QueryDepth.Proofs.Depth.Asking
import QueryDepth.Proofs.Depth.Reaching
import QueryDepth.Proofs.Validation.Decorations
import QueryDepth.Proofs.Validation.Editing
import QueryDepth.Proofs.Ignore.Shapes
import QueryDepth.Proofs.Pattern.Matching
import QueryDepth.Proofs.Pattern.Reading
import QueryDepth.Proofs.Ignore.Words
import QueryDepth.Proofs.Text.Locating
import QueryDepth.Proofs.Document.Spelling
import QueryDepth.Proofs.Document.Selections
import QueryDepth.Proofs.Depth.Reporting
import QueryDepth.Proofs.Validation.Pointing
import QueryDepth.Proofs.Text.Clusters
import QueryDepth.Proofs.Console.Wrapping
import QueryDepth.Proofs.Console.Literal
import QueryDepth.Proofs.Json.Reporting
import QueryDepth.Proofs.Introspection.Replies
import QueryDepth.Proofs.Depth.Watching
