import TinyCompiler.Program.Descent
import TinyCompiler.Node.Visit
import TinyCompiler.Main
import TinyCompiler.Proofs.Simulation
import TinyCompiler.Proofs.Completeness
import TinyCompiler.Proofs.Pipeline
import TinyCompiler.Proofs.Rereading
import TinyCompiler.Proofs.Viability
import TinyCompiler.Proofs.Extension
import TinyCompiler.Proofs.Unambiguity
import TinyCompiler.Proofs.Demand
import TinyCompiler.Proofs.Descent
import TinyCompiler.Proofs.Agreement
import TinyCompiler.Proofs.Lines
import TinyCompiler.Proofs.Closure
import TinyCompiler.Proofs.Modes
import TinyCompiler.Proofs.Branches
import TinyCompiler.Proofs.Forward
import TinyCompiler.Proofs.Freshness
import TinyCompiler.Proofs.Precedence
import TinyCompiler.Proofs.Visits
import TinyCompiler.Proofs.Beginnings
import TinyCompiler.Proofs.Placement
import TinyCompiler.Proofs.Edits
import TinyCompiler.Proofs.Keywords
