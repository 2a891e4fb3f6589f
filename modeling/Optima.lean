import Optima.Catalogue
import Optima.Document.Editing
import Optima.Expression.Algebra
import Optima.Main
import Optima.Report.Routing
import Optima.Report.Scheduling
import Optima.Report.Search
import Optima.Text.Marked
import Optima.Proofs.Scalar.Extended
import Optima.Proofs.Scalar.Comparison
import Optima.Proofs.Ranking.Fronts
import Optima.Proofs.Ranking.Sorting
import Optima.Proofs.Scalar.Exact
import Optima.Proofs.Search.Watch
import Optima.Proofs.Search.Candidates
import Optima.Proofs.Expression.Evaluation
import Optima.Proofs.Problem.Evaluation
import Optima.Proofs.Problem.Feasibility
import Optima.Proofs.Problem.WellPosed
import Optima.Proofs.Problem.Propagation
import Optima.Proofs.Routing.Conservation
import Optima.Proofs.Routing.Soundness
import Optima.Proofs.Routing.Driving
import Optima.Proofs.Routing.Account
import Optima.Proofs.Routing.Completeness
import Optima.Proofs.Routing.Drivability
import Optima.Proofs.Routing.Waiting
import Optima.Proofs.Routing.Earliest
import Optima.Proofs.Routing.Neighbourhood
import Optima.Proofs.Routing.Improvement
import Optima.Proofs.Routing.Circles
import Optima.Proofs.Scheduling.Reported
import Optima.Proofs.Scheduling.Order
import Optima.Proofs.Scheduling.Calendar
import Optima.Proofs.Scheduling.Bookings
import Optima.Proofs.Scheduling.Trail
import Optima.Proofs.Scheduling.Search
import Optima.Proofs.Scheduling.Solve
import Optima.Proofs.Scheduling.Rules
import Optima.Proofs.Scheduling.Exact
import Optima.Proofs.Scheduling.Recursion
import Optima.Proofs.Scheduling.OptionTree
import Optima.Proofs.Scheduling.Completeness
import Optima.Proofs.Backtracking.Levels
import Optima.Proofs.Backtracking.Tree
import Optima.Proofs.Backtracking.Pruning
import Optima.Proofs.Backtracking.Outcome
import Optima.Proofs.Backtracking.Exhaustive
import Optima.Proofs.Evolution.Generations
import Optima.Proofs.Evolution.Elitism
import Optima.Proofs.Evolution.Survival
import Optima.Proofs.Evolution.Succession
import Optima.Proofs.Evolution.Replacement
import Optima.Proofs.Evolution.LeastViolation
import Optima.Proofs.Ranking.Crowding
import Optima.Proofs.Evolution.Extremes
import Optima.Proofs.Scalar.Rounding
import Optima.Proofs.Problem.Domain
import Optima.Proofs.Search.Space
import Optima.Proofs.Evolution.Breeding
import Optima.Proofs.Evolution.Containment
import Optima.Proofs.Expression.Linearity
import Optima.Proofs.Linear.Meaning
import Optima.Proofs.Evolution.Budget
import Optima.Proofs.Routing.Verdict
import Optima.Proofs.Scheduling.Budget
import Optima.Proofs.Backtracking.Budget
import Optima.Proofs.Strategy.Verdict
import Optima.Proofs.Search.Verdict
import Optima.Proofs.Backtracking.Verdict
import Optima.Proofs.Evolution.Verdict
import Optima.Proofs.Scheduling.Verdict
import Optima.Proofs.Expression.Sameness
import Optima.Proofs.Search.Sameness
import Optima.Proofs.Evolution.Front
import Optima.Proofs.Allocation.Faithful
import Optima.Proofs.Problem.Retention
import Optima.Proofs.Engine.Naming
import Optima.Proofs.Expression.Operators
import Optima.Proofs.Engine.Lifecycle
import Optima.Proofs.Storage.Stores
import Optima.Proofs.Command.Seeding
import Optima.Proofs.Routing.Savings
import Optima.Proofs.Routing.Availability
import Optima.Proofs.Scheduling.Cycles
import Optima.Proofs.Scheduling.Earliest
import Optima.Proofs.Scheduling.Peaks
import Optima.Proofs.Scheduling.Listing
import Optima.Proofs.Scheduling.Relisted
import Optima.Proofs.Scheduling.Greedy
import Optima.Proofs.Expression.Form
import Optima.Proofs.Expression.Analysis
import Optima.Proofs.Search.Preparation
import Optima.Proofs.Strategy.Rejection
import Optima.Proofs.Expression.Reading
import Optima.Proofs.Scalar.Double
import Optima.Proofs.Problem.Agreement
import Optima.Proofs.Problem.Narrowing
import Optima.Proofs.Problem.Obstruction
import Optima.Proofs.Problem.Reordering
import Optima.Proofs.Problem.Emptiness
import Optima.Proofs.Scalar.Difference
import Optima.Proofs.Problem.Satisfaction
import Optima.Proofs.Problem.Ranges
import Optima.Proofs.Evolution.Alternatives
import Optima.Proofs.Backtracking.Thresholds
import Optima.Proofs.Ranking.Isolation
import Optima.Proofs.Problem.Prices
import Optima.Proofs.Evolution.Cloning
import Optima.Proofs.Command.Endings
import Optima.Proofs.Configuration.Sharing
