import RenderCompiler.Main
import RenderCompiler.Proofs.Lowering.Capture
import RenderCompiler.Proofs.Lowering.Closure
import RenderCompiler.Proofs.Lowering.Preservation
import RenderCompiler.Proofs.Lowering.Projection
import RenderCompiler.Proofs.Lowering.Failure
import RenderCompiler.Proofs.Lowering.Direct
import RenderCompiler.Proofs.Lowering.Handlers
import RenderCompiler.Proofs.Lowering.HandOvers
import RenderCompiler.Proofs.Lowering.Dependencies
import RenderCompiler.Proofs.Lowering.Naming
import RenderCompiler.Proofs.Lowering.References
import RenderCompiler.Proofs.Reading.Compiled
import RenderCompiler.Proofs.Lowering.Essence
import RenderCompiler.Proofs.Emission
import RenderCompiler.Proofs.Lowering.Bags
import RenderCompiler.Proofs.Lowering.Verdict
import RenderCompiler.Proofs.Lowering.Flatness
import RenderCompiler.Proofs.Reading.Source
import RenderCompiler.Proofs.Reading.Signs
import RenderCompiler.Proofs.Reading.Quoting
import RenderCompiler.Proofs.Script.Numbers
import RenderCompiler.Proofs.Template.Walk
