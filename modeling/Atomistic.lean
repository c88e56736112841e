import Atomistic.Scalar.Binary64
import Atomistic.Geometry.UnitCell
import Atomistic.Geometry.Closeness
import Atomistic.Labels
import Atomistic.Trace
import Atomistic.Neighbors.WrappedGrid
import Atomistic.Neighbors.NeighborsList
import Atomistic.Json.Value
import Atomistic.Text.Quoted
import Atomistic.Json.Schema
import Atomistic.AtomicSystem.Any
import Atomistic.Environments
import Atomistic.Descriptor.Densify
import Atomistic.Workers
import Atomistic.Calculator
import Atomistic.Profile
import Atomistic.Foreign.Forwarding
import Atomistic.Foreign.Calls
import Atomistic.Proofs.Traced
import Atomistic.Proofs.SortedSets
import Atomistic.Proofs.LabelTables
import Atomistic.Proofs.FirstSeen
import Atomistic.Proofs.Rearrangement
import Atomistic.Proofs.Variables
import Atomistic.Proofs.DensifySteps
import Atomistic.Proofs.DescriptorShape
import Atomistic.Proofs.ChosenVariables
import Atomistic.Proofs.DensifyTables
import Atomistic.Proofs.Meaning
import Atomistic.Proofs.RowsAndColumns
import Atomistic.Proofs.NamedVariables
import Atomistic.Proofs.ThereAndBack
import Atomistic.Proofs.MoveAnswers
import Atomistic.Proofs.SpecifiedTables
import Atomistic.Proofs.GradientRows
import Atomistic.Proofs.DescriptorStates
import Atomistic.Proofs.SharedRows
import Atomistic.Proofs.KernelAnswers
import Atomistic.Proofs.CalculationCourse
import Atomistic.Proofs.ReadableResults
import Atomistic.Proofs.CachedNeighbors
import Atomistic.Proofs.SystemHistories
import Atomistic.Proofs.PickedRows
import Atomistic.Proofs.SettledKernels
import Atomistic.Proofs.PartialKernels
import Atomistic.Proofs.SettledCalculation
import Atomistic.Proofs.NativeCopies
import Atomistic.Proofs.PartialCalculation
import Atomistic.Proofs.SeparateVariables
import Atomistic.Proofs.Reliance
import Atomistic.Proofs.SystemAccounts
import Atomistic.Proofs.AccountedEnvironments
import Atomistic.Proofs.AccountedGradients
import Atomistic.Proofs.AccountedKernels
import Atomistic.Proofs.CalculationFailures
import Atomistic.Proofs.Directions
import Atomistic.Proofs.BinCandidates
import Atomistic.Proofs.ExactScalar
import Atomistic.Proofs.ExactVector
import Atomistic.Proofs.Lattice
import Atomistic.Proofs.GridShape
import Atomistic.Proofs.GridReach
import Atomistic.Proofs.ImageGroups
import Atomistic.Proofs.CollectedImages
import Atomistic.Proofs.ListedPairs
import Atomistic.Proofs.NeighborWarnings
import Atomistic.Proofs.NeighborSearch
import Atomistic.Proofs.WrappedBins
import Atomistic.Proofs.RealScalar
import Atomistic.Proofs.PeriodicNeighbors
import Atomistic.Proofs.OpenNeighbors
import Atomistic.Proofs.Simulation
import Atomistic.Proofs.KeptRelations
import Atomistic.Proofs.MirroredCalculation
import Atomistic.Proofs.CallbackSystems
import Atomistic.Proofs.KeptTexts
import Atomistic.Proofs.Sessions
import Atomistic.Proofs.ForeignCalculation
import Atomistic.Proofs.CarefulCalls
import Atomistic.Proofs.LastErrors
import Atomistic.Proofs.FloatOrder
import Atomistic.Proofs.SpeciesEnvironments
import Atomistic.Proofs.AccountedCalculation
import Atomistic.Proofs.NeighborDistances
import Atomistic.Proofs.Tandem
import Atomistic.Proofs.ReorderedPairs
import Atomistic.Proofs.SlopesOfSums
import Atomistic.Proofs.OrderlyPairs
import Atomistic.Proofs.OfferedRows
import Atomistic.Proofs.ReducedVectors
import Atomistic.Proofs.WrappedVectors
import Atomistic.Proofs.MinimumImages
import Atomistic.Proofs.WrittenCells
import Atomistic.Proofs.CountedBins
import Atomistic.Proofs.BinTotals
import Atomistic.Proofs.ExactIntegers
import Atomistic.Proofs.KeptCalculators
import Atomistic.Proofs.ZeroFreeTexts
import Atomistic.Proofs.HandedTexts
import Atomistic.Proofs.StoredBins
import Atomistic.Proofs.InverseMatrices
import Atomistic.Proofs.RoundedNumbers
import Atomistic.Proofs.RoundedOperations
import Atomistic.Proofs.RoundedDeterminants
import Atomistic.Proofs.AnsweredMatrices
