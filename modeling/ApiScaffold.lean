import ApiScaffold.Main
import ApiScaffold.Proofs.Attempt
import ApiScaffold.Proofs.Agreement
import ApiScaffold.Proofs.Output.Sink
import ApiScaffold.Proofs.Text.Whole
import ApiScaffold.Proofs.Text.Ascii
import ApiScaffold.Proofs.Text.Literal
import ApiScaffold.Proofs.Naming
import ApiScaffold.Proofs.Document.Value
import ApiScaffold.Proofs.Document.Key
import ApiScaffold.Proofs.Document.Proper
import ApiScaffold.Proofs.Document.Textual
import ApiScaffold.Proofs.Spec
import ApiScaffold.Proofs.Document.Pointer
import ApiScaffold.Proofs.Document.Rearranged
import ApiScaffold.Proofs.Document.Nested
import ApiScaffold.Proofs.Template.Library
import ApiScaffold.Proofs.Template.Sequence
import ApiScaffold.Proofs.Template.Python
import ApiScaffold.Proofs.Template.Outcome
import ApiScaffold.Proofs.Template.Enumeration
import ApiScaffold.Proofs.Target.Names
import ApiScaffold.Proofs.Target.FileNames
import ApiScaffold.Proofs.Target.Identifiers
import ApiScaffold.Proofs.Target.Literals
import ApiScaffold.Proofs.Target.Spelling
import ApiScaffold.Proofs.Naming.Words
import ApiScaffold.Proofs.Document.Way
import ApiScaffold.Proofs.Naming.Constants
import ApiScaffold.Proofs.Target.ClassNames
import ApiScaffold.Proofs.Target.Stability
import ApiScaffold.Proofs.Target.TakenNames
import ApiScaffold.Proofs.Schema.Resolve
import ApiScaffold.Proofs.Schema.Position
import ApiScaffold.Proofs.Schema.Mention
import ApiScaffold.Proofs.Model.Turn
import ApiScaffold.Proofs.Model.Flatten
import ApiScaffold.Proofs.Model.Gathered
import ApiScaffold.Proofs.Model.Depth
import ApiScaffold.Proofs.Model.Preorder
import ApiScaffold.Proofs.Model.Collected
import ApiScaffold.Proofs.Document.Citation
import ApiScaffold.Proofs.Document.Chain
import ApiScaffold.Proofs.Schema.Alike
import ApiScaffold.Proofs.Schema.Reading
import ApiScaffold.Proofs.Schema.Shape
import ApiScaffold.Proofs.Schema.Layers
import ApiScaffold.Proofs.Schema.Inline
import ApiScaffold.Proofs.Schema.Mirror
import ApiScaffold.Proofs.Model.Alike
import ApiScaffold.Proofs.Model.Locality
import ApiScaffold.Proofs.Model.Build
import ApiScaffold.Proofs.Model.Accessors
import ApiScaffold.Proofs.Model.Verbs
import ApiScaffold.Proofs.Model.Fault
import ApiScaffold.Proofs.Operation.Build
import ApiScaffold.Proofs.Operation.Parameters
import ApiScaffold.Proofs.Operation.Arguments
import ApiScaffold.Proofs.Operation.Group
import ApiScaffold.Proofs.Operation.Alike
import ApiScaffold.Proofs.Operation.Distinct
import ApiScaffold.Proofs.Operation.Fault
import ApiScaffold.Proofs.Generator.Settings
import ApiScaffold.Proofs.Generator.Preprocess
import ApiScaffold.Proofs.Generator.Order
import ApiScaffold.Proofs.Generator.Resolvable
import ApiScaffold.Proofs.Run.Stages
import ApiScaffold.Proofs.Generator.Options
import ApiScaffold.Proofs.Schema.Alias
import ApiScaffold.Proofs.Generator.Session
import ApiScaffold.Proofs.Run.Components
import ApiScaffold.Proofs.Model.Imports
import ApiScaffold.Proofs.Run.Endpoints
import ApiScaffold.Proofs.Run.Conservation
import ApiScaffold.Proofs.Run.Destinations
import ApiScaffold.Proofs.Run.Drafted
import ApiScaffold.Proofs.Run.FromDict
import ApiScaffold.Proofs.Run.Constants
import ApiScaffold.Proofs.Run.Atomicity
import ApiScaffold.Proofs.Run.Imports
import ApiScaffold.Proofs.Run.Dependence
import ApiScaffold.Proofs.Run.Coverage
import ApiScaffold.Proofs.Run.Identifiers
import ApiScaffold.Proofs.Run.GroupClasses
import ApiScaffold.Proofs.Run.TakenNames
import ApiScaffold.Proofs.Run.Fault
import ApiScaffold.Proofs.Command.Exit
import ApiScaffold.Proofs.Run.Alike
import ApiScaffold.Proofs.Run.Order
import ApiScaffold.Proofs.Run.Normal
import ApiScaffold.Proofs.Model.Composition
import ApiScaffold.Proofs.Run.Inline
import ApiScaffold.Proofs.Schema.Termination
import ApiScaffold.Proofs.Schema.Permissive
import ApiScaffold.Proofs.Model.Relay
import ApiScaffold.Proofs.Model.Circle
import ApiScaffold.Proofs.Model.Links
import ApiScaffold.Proofs.Target.PythonLiterals
import ApiScaffold.Proofs.Run.Comments
