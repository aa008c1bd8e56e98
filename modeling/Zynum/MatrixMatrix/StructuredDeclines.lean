import Zynum.Execution.ThreadPoolExact
import Zynum.Foundation.Declines
import Zynum.MatrixMatrix.RankUpdate
import Zynum.MatrixMatrix.TriangularAgree

set_option autoImplicit false

/- The structured Level 3 routines reject before they write: allocations and
   dispatches that are refused leave C or B as it was. -/
namespace Zynum

open ArrayProgram

variable {T : Type} [CommRing T] [Scalar T]

section Symmetric

variable (env : Level3Env T) (rt : Runtime) (site : Site) (options : Options) (side : OperandSide) (uplo : Triangle) (m n : Int)
  (alpha : T) (a : Mem T) (lda : Int) (b : Mem T) (ldb : Int) (beta : T) (ldc : Int) (herm : Bool)

theorem full_symm_declines (m n : Nat) :
    Declines (fun c => tryFullSymm env rt site options side uplo m n alpha a lda b ldb beta c ldc herm) := by
  refine declines_guard _ declines_at_once (declines_guard _ declines_at_once (declines_guard _ declines_at_once ?_))
  intro c answer
  cases outcome : rt.runTasks (4 :: site) (blockCount m 64 * blockCount n 64) (fullSymmProduct env rt (3 :: site) side m n
    (if side = .left then m else n) alpha (fullSymmWorkspace env rt (2 :: site) uplo (if side =
      .left then m else n) a lda herm) b ldb beta
    ldc) c <;> simp only [outcome] at answer <;> exact nomatch answer

theorem blocked_symm_declines :
    Declines (fun c => blockedTrySymm env rt site options side uplo m n alpha a lda b ldb beta c ldc herm) := by
  refine declines_guard _ (declines_never _) (declines_guard _ (declines_never _) ?_)
  refine (full_symm_declines env rt _ options side uplo alpha a lda b ldb beta ldc herm _ _).or_try ?_
  refine declines_guard _ declines_at_once ?_
  cases side with
  | left => exact declines_never _
  | right => exact declines_never _

theorem dense_symm_declines (applyAlpha : T → T) :
    Declines (fun c => denseSymmProduct env rt site applyAlpha side uplo m n alpha a lda b ldb beta c ldc herm) :=
  declines_guard _ declines_at_once (declines_guard _ declines_at_once (declines_guard _ (declines_never _) (declines_never _)))

theorem dense_gemm_symm_declines :
    Declines (fun c => denseGemmTrySymm env rt site side uplo m n alpha a lda b ldb beta c ldc herm) :=
  declines_guard _ (declines_never _) (declines_guard _ declines_at_once
    (dense_symm_declines env rt site side uplo m n alpha a lda b ldb beta ldc herm _))

theorem isolated_symm_declines :
    Declines (fun c => isolatedTrySymm env rt site side uplo m n alpha a lda b ldb beta c ldc herm) :=
  declines_guard _ declines_at_once (declines_guard _ declines_at_once (declines_guard _ (declines_never _)
    (dense_symm_declines env rt site side uplo m n alpha a lda b ldb beta ldc herm _)))

end Symmetric

section RankUpdates

variable (env : Level3Env T) (rt : Runtime) (site : Site) (rankTwo parallel : Bool) (options : Options) (uplo : Triangle)
  (mode : TransposeMode) (alpha : T) (a : Mem T) (lda : Int) (b : Mem T) (ldb : Int) (beta : T) (ldc : Int) (herm : Bool)

theorem parallel_packed_rank_declines (n k : Nat) :
    Declines (fun c => tryParallelPackedRank env rt site rankTwo options uplo mode n k alpha a lda b ldb beta c ldc herm) :=
  declines_guard _ declines_at_once (declines_guard _ declines_at_once (declines_guard _ declines_at_once
    (declines_guard _ declines_at_once (declines_guard _ declines_at_once (declines_answered _)))))

theorem packed_rank_declines (n k : Nat) :
    Declines (fun c => tryPackedRank env rt site rankTwo options uplo mode n k alpha a lda b ldb beta c ldc herm) :=
  declines_guard _ declines_at_once (declines_guard _ declines_at_once (declines_never _))

theorem packed_rank_serial_declines (n k : Int) :
    Declines (fun c => executePackedRankSerial env rt site rankTwo options uplo mode n k alpha a lda b ldb beta c ldc herm) :=
  declines_guard _ declines_at_once (declines_guard _ declines_at_once (declines_guard _ (declines_never _)
    (declines_guard _ (declines_never _) (packed_rank_declines env rt site rankTwo options uplo mode alpha a lda b ldb beta
      ldc herm _ _))))

theorem execute_packed_rank_declines (n k : Int) :
    Declines (fun c => executePackedRank env rt site rankTwo parallel options uplo mode n k alpha a lda b ldb beta c ldc herm) := by
  have serial := packed_rank_serial_declines env rt (0 :: site) rankTwo options uplo mode alpha a lda b ldb beta ldc herm n k
  refine declines_guard _ serial (declines_guard _ declines_at_once (declines_guard _ declines_at_once
    (declines_guard _ (declines_never _) (declines_guard _ (declines_never _) ?_))))
  exact (parallel_packed_rank_declines env rt _ rankTwo options uplo mode alpha a lda b ldb beta ldc herm _ _).or_try serial

theorem queued_rank_declines (n : Nat) (k : Int) :
    Declines (fun c => tryQueuedRank env rt site rankTwo options uplo mode n k alpha a lda b ldb beta c ldc herm) :=
  declines_guard _ declines_at_once (declines_guard _ declines_at_once (declines_guard _ declines_at_once
    (declines_guard _ declines_at_once (declines_answered _))))

theorem rank_blocks_declines (n : Nat) (k : Int) :
    Declines (fun c => tryRankBlocks env rt site rankTwo options uplo mode n k alpha a lda b ldb beta c ldc herm) :=
  (queued_rank_declines env rt _ rankTwo options uplo mode alpha a lda b ldb beta ldc herm n k).or_try
    (declines_guard _ declines_at_once (declines_guard _ (declines_never _) (declines_never _)))

theorem try_rank_declines (n k : Int) :
    Declines (fun c => tryRank env rt site rankTwo options uplo mode n k alpha a lda b ldb beta c ldc herm) := by
  refine declines_guard _ (declines_never _) (declines_guard _ (declines_never _) (declines_guard _ ?_ (declines_guard _
    (declines_guard _ declines_at_once ?_) ?_)))
  · exact execute_packed_rank_declines env rt _ rankTwo _ options uplo mode alpha a lda b ldb beta ldc herm n k
  · exact rank_blocks_declines env rt _ rankTwo options uplo _ alpha _ _ _ _ beta ldc herm _ k
  · exact rank_blocks_declines env rt _ rankTwo options uplo mode alpha a lda b ldb beta ldc herm _ k

end RankUpdates

section Triangular

variable (env : TriangularEnv T) (rt : Runtime) (site : Site) (options : Options) (call : TriangularCall T)

omit [CommRing T] [Scalar T] in
theorem queued_triangular_declines (perJob m n : Nat) (operation : Site → Nat → TriangularCall T → Nat → Nat → Mem T → Mem T) :
    Declines (tryQueuedTriangular rt site perJob options call m n operation) :=
  declines_guard _ declines_at_once (declines_guard _ declines_at_once (declines_guard _ declines_at_once
    (declines_guard _ declines_at_once (declines_answered _))))

theorem blocked_trmm_declines (m n : Int) : Declines (blockedTryTrmm env rt site options call m n) := by
  refine declines_guard _ (declines_never _) (declines_guard _ (declines_never _) ?_)
  exact (queued_triangular_declines rt _ options call _ _ _ _).or_try (declines_guard _ declines_at_once (declines_never _))

variable [Div T]

theorem blocked_trsm_declines (m n : Int) : Declines (blockedTryTrsm env rt site options call m n) := by
  refine declines_guard _ (declines_never _) (declines_guard _ (declines_never _) ?_)
  exact (queued_triangular_declines rt _ options call _ _ _ _).or_try (declines_guard _ declines_at_once (declines_never _))

theorem right_parallel_declines (operation : LeftOperation) (m n : Nat) :
    Declines (rightParallelTryDispatch env rt site operation call m n) :=
  declines_guard _ declines_at_once (declines_answered _)

theorem isolated_right_declines (operation : LeftOperation) (m n : Int) :
    Declines (isolatedTryRight env rt site operation call m n) :=
  declines_guard _ declines_at_once (declines_guard _ declines_at_once (declines_guard _ declines_at_once (declines_answered _)))

end Triangular

section Routines

variable [Div T]

theorem TriangularRoute.declines (route : TriangularRoute) (env : TriangularEnv T) (rt : Runtime) (site : Site)
    (operation : LeftOperation) (call : TriangularCall T) (m n : Int) : Declines (route.attempt env rt site operation call m n) := by
  cases operation with
  | multiply =>
    cases route with
    | routine => exact declines_never _
    | serial => exact declines_never _
    | workspace blockSize => exact declines_never _
    | blocked options => exact blocked_trmm_declines env rt site options call m n
    | queued perJob options => exact queued_triangular_declines rt site options call perJob _ _ _
    | rightParallel => exact right_parallel_declines env rt site call _ _ _
    | isolated => exact isolated_right_declines env rt site call _ m n
  | solve =>
    cases route with
    | routine => exact declines_never _
    | serial => exact declines_never _
    | workspace blockSize => exact declines_never _
    | blocked options => exact blocked_trsm_declines env rt site options call m n
    | queued perJob options => exact queued_triangular_declines rt site options call perJob _ _ _
    | rightParallel => exact right_parallel_declines env rt site call _ _ _
    | isolated => exact isolated_right_declines env rt site call _ m n

-- A route that answers false has written nothing, whatever it was refused, and its caller falls back on what it was given;
-- and where the pool refuses, no task has touched anything.
theorem declining_leaves_no_trace (env : Level3Env T) (tri : TriangularEnv T) (rt : Runtime) (site : Site) (options : Options)
    (side : OperandSide) (uplo : Triangle) (mode : TransposeMode) (m n k : Int) (alpha : T) (a : Mem T) (lda : Int) (b : Mem T)
    (ldb : Int) (beta : T) (ldc : Int) (herm : Bool) (route : TriangularRoute) (operation : LeftOperation) (call : TriangularCall T) :
    (NoTrace (fun c => blockedTrySymm env rt site options side uplo m n alpha a lda b ldb beta c ldc herm) ∧
      NoTrace (fun c => tryFullSymm env rt site options side uplo (toUsize m) (toUsize n) alpha a lda b ldb beta c ldc herm) ∧
      NoTrace (fun c => denseGemmTrySymm env rt site side uplo m n alpha a lda b ldb beta c ldc herm) ∧
      NoTrace (fun c => isolatedTrySymm env rt site side uplo m n alpha a lda b ldb beta c ldc herm)) ∧
    (NoTrace (fun c => trySyrk env rt site options uplo mode n k alpha a lda beta c ldc herm) ∧
      NoTrace (fun c => trySyr2k env rt site options uplo mode n k alpha a lda b ldb beta c ldc herm) ∧
      ∀ rankTwo parallel,
        NoTrace (fun c => tryQueuedRank env rt site rankTwo options uplo mode (toUsize n) k alpha a lda b ldb beta c ldc herm) ∧
        NoTrace (fun c => tryPackedRank env rt site rankTwo options uplo mode (toUsize n) (toUsize k) alpha a lda b ldb beta c ldc
          herm) ∧
        NoTrace (fun c => tryParallelPackedRank env rt site rankTwo options uplo mode (toUsize n) (toUsize k) alpha a lda b ldb beta c
          ldc herm) ∧
        NoTrace (fun c => executePackedRank env rt site rankTwo parallel options uplo mode n k alpha a lda b ldb beta c ldc herm)) ∧
    NoTrace (route.attempt tri rt site operation call m n) ∧
    ∀ (C : Type) [DecidableEq C] (dispatcher : ThreadPool.Dispatcher C) (arch : Arch) (maxThreads : Site → Nat)
      (tasks : Site → Nat → Nat) (workspace : Site → Nat → Bool) (site : Site) (count : Nat) (task : Nat → Mem T → Mem T) (c : Mem T),
      (dispatcher.state site count).calls (dispatcher.caller site count) = .returned false →
      (dispatcher.runtime arch maxThreads tasks workspace).runTasks site count task c = none ∧
        dispatcher.effect site count task c = c :=
  ⟨⟨(blocked_symm_declines env rt site options side uplo m n alpha a lda b ldb beta ldc herm).no_trace,
      (full_symm_declines env rt site options side uplo alpha a lda b ldb beta ldc herm _ _).no_trace,
      (dense_gemm_symm_declines env rt site side uplo m n alpha a lda b ldb beta ldc herm).no_trace,
      (isolated_symm_declines env rt site side uplo m n alpha a lda b ldb beta ldc herm).no_trace⟩,
    ⟨(try_rank_declines env rt site false options uplo mode alpha a lda a lda beta ldc herm n k).no_trace,
      (try_rank_declines env rt site true options uplo mode alpha a lda b ldb beta ldc herm n k).no_trace,
      fun rankTwo parallel => ⟨
        (queued_rank_declines env rt site rankTwo options uplo mode alpha a lda b ldb beta ldc herm _ k).no_trace,
        (packed_rank_declines env rt site rankTwo options uplo mode alpha a lda b ldb beta ldc herm _ _).no_trace,
        (parallel_packed_rank_declines env rt site rankTwo options uplo mode alpha a lda b ldb beta ldc herm _ _).no_trace,
        (execute_packed_rank_declines env rt site rankTwo parallel options uplo mode alpha a lda b ldb beta ldc herm n k).no_trace⟩⟩,
    (route.declines tri rt site operation call m n).no_trace,
    fun _ _ dispatcher arch maxThreads tasks workspace site count task c refused =>
      dispatcher.refused arch maxThreads tasks workspace site count refused task c⟩

-- Everything is granted but the dispatch itself.
theorem declining_leaves_no_trace_refused :
    let _ := realKind Rat .double
    let _ := real_kind_lawful Rat .double
    let call := triangularCall 'L' 'U' 'N' 'N' (5 : Rat) (fun p => (p : Rat)) 256 256
    ∀ b, (TriangularRoute.queued (64 * 64 * 2) {}).attempt (TriangularEnv.portable Rat)
      { Runtime.sequential with maxThreads := fun _ => 4 } [] .multiply call 256 256 b = (false, b) := by
  intro kind lawful call b
  have refused : ((TriangularRoute.queued (64 * 64 * 2) {}).attempt (TriangularEnv.portable Rat)
      { Runtime.sequential with maxThreads := fun _ => 4 } [] .multiply call 256 256 b).1 = false := by
    rw [TriangularRoute.attempt, tryQueuedTriangular]
    dsimp only
    split_ifs <;> rfl
  exact Prod.ext refused ((declining_leaves_no_trace (Level3Env.portable Rat) (TriangularEnv.portable Rat)
    { Runtime.sequential with maxThreads := fun _ => 4 } [] {} .left .upper .noTrans 256 256 0 (5 : Rat) (fun p => (p : Rat)) 256
    (fun p => (p : Rat)) 256 0 256 false (.queued (64 * 64 * 2) {}) .multiply call).2.2.1 b refused).1

end Routines

end Zynum
