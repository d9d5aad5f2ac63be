import ShaderGraph.Catalog
import ShaderGraph.CommandLine.Run
import ShaderGraph.Demo
import ShaderGraph.Evaluation.Scope
import ShaderGraph.Graph.Edit
import ShaderGraph.Main
import ShaderGraph.Proofs.Composition
import ShaderGraph.Proofs.Evaluation.Agreement
import ShaderGraph.Proofs.Evaluation.Uncut
import ShaderGraph.Proofs.Graph.Reload
import ShaderGraph.Proofs.Saved.Document
import ShaderGraph.Proofs.Shader
import ShaderGraph.Report
import ShaderGraph.Saved.Document
import ShaderGraph.Saved.Settings
import ShaderGraph.Shader
import ShaderGraph.Texture
import ShaderGraph.Proofs.Graph.Upstream
import ShaderGraph.Proofs.Graph.Outside
import ShaderGraph.Proofs.Locality
import ShaderGraph.Proofs.Evaluation.Runs
import ShaderGraph.Proofs.Evaluation.Tangled
import ShaderGraph.Proofs.Evaluation.Sharing
import ShaderGraph.Proofs.Snippet
import ShaderGraph.Proofs.Assignment
import ShaderGraph.Proofs.Graph.Conformity
import ShaderGraph.Proofs.Evaluation.Termination
import ShaderGraph.Proofs.Observation
import ShaderGraph.Proofs.Graph.CycleCheck
import ShaderGraph.Proofs.Graph.Normalisation
import ShaderGraph.Proofs.Renaming
import ShaderGraph.Proofs.Variables
import ShaderGraph.Proofs.Graph.Selection
import ShaderGraph.Proofs.Resolution
import ShaderGraph.Proofs.Evaluation.Pending
import ShaderGraph.Proofs.Evaluation.Rerouting
import ShaderGraph.Proofs.Caching
import ShaderGraph.Proofs.Categories
import ShaderGraph.Proofs.Substitution
import ShaderGraph.Proofs.Saved.Settings
import ShaderGraph.Proofs.Arguments
import ShaderGraph.Proofs.Compatibility
import ShaderGraph.Proofs.Arithmetic
import ShaderGraph.Proofs.Attributes
import ShaderGraph.Proofs.Traversal
import ShaderGraph.Proofs.FloatText
