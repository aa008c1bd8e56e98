import Zynum.Foundation.Loop
import Zynum.Foundation.CellUpdate
import Zynum.Foundation.Partition
import Zynum.Complex
import Zynum.Runtime
import Zynum.Vector.Operations
import Zynum.Vector.Exact
import Zynum.Abi.Arguments
import Zynum.MatrixVector.Band
import Zynum.MatrixVector.BandExact
import Zynum.MatrixVector.BandProduct
import Zynum.MatrixVector.General
import Zynum.MatrixVector.GeneralExact
import Zynum.MatrixMatrix.Task
import Zynum.MatrixMatrix.Planner
import Zynum.MatrixMatrix.PlannerExact
import Zynum.MatrixMatrix.RealGemm
import Zynum.MatrixMatrix.RealGemmExact
import Zynum.Foundation.Tiles
import Zynum.MatrixMatrix.Routine
import Zynum.MatrixMatrix.Packing
import Zynum.MatrixMatrix.Symmetric
import Zynum.MatrixMatrix.SymmetricExact
import Zynum.MatrixMatrix.RankUpdate
import Zynum.MatrixMatrix.RankUpdateTiles
import Zynum.MatrixMatrix.RankUpdateExact
import Zynum.MatrixMatrix.RankUpdateAgree
import Zynum.Foundation.InPlace
import Zynum.Foundation.Substitution
import Zynum.MatrixVector.Triangular
import Zynum.MatrixVector.TriangularExact
import Zynum.MatrixVector.CompactTriangular
import Zynum.MatrixVector.CompactTriangularExact
import Zynum.MatrixVector.TriangularInverse
import Zynum.Foundation.SharedMemory
import Zynum.Vector.Blocks
import Zynum.Vector.LevelOne
import Zynum.Vector.BlocksExact
import Zynum.Vector.BlockTasks
import Zynum.Vector.Walks
import Zynum.Vector.RouteTasks
import Zynum.Vector.Stride2Gaps
import Zynum.Vector.Searches
import Zynum.Vector.Stride2Dispatch
import Zynum.Vector.LevelOneExact
import Zynum.Vector.SecondRoutines
import Zynum.Vector.BothRoutines
import Zynum.Vector.StaleStores
import Zynum.Vector.Sums
import Zynum.Vector.StoredElements
import Zynum.Vector.Elementwise
import Zynum.Vector.Footprint
import Zynum.Vector.StorageBound
import Zynum.Vector.StorageCalls
import Zynum.Vector.SearchStorage
import Zynum.Vector.Stride2Storage
import Zynum.Api.Views
import Zynum.Api.VectorOperations
import Zynum.Api.ViewsExact
import Zynum.Api.VectorOperationsExact
import Zynum.Api.VectorResults
import Zynum.Abi.ArgumentRange
import Zynum.Vector.Givens
import Zynum.Vector.ModifiedGivens
import Zynum.MatrixMatrix.PackedRankOwnership
import Zynum.Foundation.WithNan
import Zynum.Kernels.VectorConfig
import Zynum.Vector.ElementWalk
import Zynum.Vector.Norm
import Zynum.Vector.NormExact
import Zynum.Vector.NormRoutes
import Zynum.Foundation.FirstLargest
import Zynum.Vector.LargestMagnitude
import Zynum.Vector.LargestMagnitudeExact
import Zynum.Vector.LargestMagnitudeLeaves
import Zynum.Vector.LargestMagnitudeRoutes
import Zynum.Vector.LargestMagnitudeParallel
import Zynum.Kernels.FixedVector
import Zynum.Kernels.FixedVectorLoops
import Zynum.Kernels.FixedVectorExact
import Zynum.Kernels.FixedVectorSums
import Zynum.Kernels.FixedMatrixVector
import Zynum.Kernels.FixedMatrixVectorLoops
import Zynum.Kernels.FixedMatrixVectorExact
import Zynum.Kernels.FixedRankOne
import Zynum.Kernels.FixedTransposed
import Zynum.Kernels.FixedSymmetric
import Zynum.Kernels.FixedMatrixKernels
import Zynum.MatrixMatrix.PackingExact
import Zynum.MatrixVector.IndexMaps
import Zynum.MatrixVector.SymmetricBand
import Zynum.MatrixVector.SymmetricBandExact
import Zynum.MatrixMatrix.PackedSimd
import Zynum.MatrixMatrix.PackedSimdLoops
import Zynum.MatrixMatrix.PackedSimdPanels
import Zynum.MatrixMatrix.PackedSimdTiles
import Zynum.MatrixMatrix.PackedSimdGeneric
import Zynum.MatrixMatrix.PackedSimdExact
import Zynum.MatrixVector.X86Leaves
import Zynum.MatrixMatrix.X86Kernels
import Zynum.MatrixMatrix.Triangular
import Zynum.MatrixMatrix.TriangularSides
import Zynum.MatrixMatrix.TriangularMultiplyExact
import Zynum.Foundation.Lanes
import Zynum.MatrixMatrix.TriangularRoutes
import Zynum.MatrixMatrix.TriangularSolveExact
import Zynum.MatrixMatrix.TriangularSolveRoutes
import Zynum.MatrixMatrix.TriangularAgree
import Zynum.Execution.ThreadPool
import Zynum.Foundation.JobBoard
import Zynum.Execution.ThreadPoolWorkers
import Zynum.Execution.ThreadPoolJobs
import Zynum.Abi.Cblas
import Zynum.Abi.CblasLayout
import Zynum.Abi.CblasMatrix
import Zynum.Abi.CblasTriangular
import Zynum.Abi.CblasTriangularMatrix
import Zynum.Execution.ThreadPoolExact
import Zynum.Execution.ThreadPoolProgress
import Zynum.Execution.ThreadPoolReturns
import Zynum.Execution.Futex
import Zynum.Execution.FutexInvariant
import Zynum.Execution.FutexSteps
import Zynum.Execution.FutexProgress
import Zynum.Execution.FutexReturns
import Zynum.Foundation.Declines
import Zynum.MatrixMatrix.StructuredDeclines
import Zynum.Api.MatrixViews
import Zynum.Api.MatrixViewsExact
import Zynum.Api.MatrixVector
import Zynum.Api.MatrixVectorExact
import Zynum.Api.MatrixVectorCalls
import Zynum.Api.MatrixVectorEquation
import Zynum.Api.MatrixProduct
import Zynum.Api.MatrixProductExact
import Zynum.Api.MatrixProductEquation
import Zynum.Foundation.Spans
import Zynum.MatrixVector.RankUpdate
import Zynum.MatrixVector.RankUpdateColumns
import Zynum.MatrixVector.RankUpdateTriangle
import Zynum.MatrixVector.RankUpdateExact
import Zynum.MatrixVector.Symmetric
import Zynum.MatrixVector.SymmetricColumns
import Zynum.MatrixVector.SymmetricWorkspaces
import Zynum.MatrixVector.SymmetricLeaves
import Zynum.MatrixVector.SymmetricProduct
import Zynum.MatrixVector.SymmetricParallel
import Zynum.Abi.CblasRowMajor
import Zynum.Abi.CblasHermitian
