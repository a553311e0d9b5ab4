import IsolatedSolving.Channel.Desk
import IsolatedSolving.Main
import IsolatedSolving.Proofs.Channel.Stopping
import IsolatedSolving.Proofs.Solver.Dying
import IsolatedSolving.Proofs.Solver.Refinement
import IsolatedSolving.Solver.Registry
import IsolatedSolving.Solver.SelfTest
import IsolatedSolving.Worker.Deed
import IsolatedSolving.Proofs.Wire.RoundTrip
import IsolatedSolving.Proofs.Wire.InPlace
import IsolatedSolving.Proofs.Solver.Phases
import IsolatedSolving.Proofs.Wire.Locality
import IsolatedSolving.Proofs.Worker.Classification
import IsolatedSolving.Proofs.Channel.Claiming
import IsolatedSolving.Proofs.Solver.Histories
import IsolatedSolving.Proofs.Channel.Ownership
import IsolatedSolving.Proofs.Channel.Parties
import IsolatedSolving.Proofs.Problem.Building
import IsolatedSolving.Proofs.Linear.Modelling
import IsolatedSolving.Proofs.Wire.Passes
import IsolatedSolving.Proofs.Wire.Safety
import IsolatedSolving.Proofs.Solver.Transporting
import IsolatedSolving.Proofs.Channel.Failing
import IsolatedSolving.Proofs.Solution.Improvement
import IsolatedSolving.Proofs.Worker.Interim
import IsolatedSolving.Proofs.Worker.Suppression
import IsolatedSolving.Proofs.Number.Exactness
import IsolatedSolving.Proofs.Problem.Starting
import IsolatedSolving.Proofs.Linear.Infinities
import IsolatedSolving.Proofs.Linear.Meaning
import IsolatedSolving.Proofs.Problem.Ordering
import IsolatedSolving.Proofs.Problem.Extending
import IsolatedSolving.Proofs.Problem.Dense
import IsolatedSolving.Proofs.Supervision.Watching
import IsolatedSolving.Proofs.Solver.Registering
import IsolatedSolving.Proofs.Solver.Counting
import IsolatedSolving.Proofs.Number.Nearest
import IsolatedSolving.Proofs.Number.Nonnegative
import IsolatedSolving.Proofs.Number.Sameness
import IsolatedSolving.Proofs.Settings.Budget
import IsolatedSolving.Proofs.Solver.Overtime
import IsolatedSolving.Proofs.Settings.Files
