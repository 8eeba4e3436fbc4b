import SpendabilityPir.Foundation.Outcome
import SpendabilityPir.Shared.Ingest

/-!
# Syncing a range

A sync requests the batches of a range one after the other and stops at the first that
fails; a server applies what was fetched, block by block.  The sync reports a gap when a
result without an error means that the range is complete.
-/

namespace SpendabilityPir
namespace Shared

open Foundation

/-!
## What is fetched
-/

/-- The blocks of the batches before the first failing request. -/
def Connection.blocksBeforeFailure (connection : Connection) (fromHeight toHeight : Nat) :
    List CompactBlock :=
  ((batchRequests fromHeight toHeight).takeWhile
    (fun request => ! connection.fails request.1 request.2)).flatMap
      (fun request => connection.view.getBlockRange request.1 request.2)

theorem fetchBatches_eq_blocksBeforeFailure (connection : Connection)
    (fromHeight toHeight : Nat) :
    fetchBatches connection fromHeight toHeight =
      connection.blocksBeforeFailure fromHeight toHeight := by
  unfold Connection.blocksBeforeFailure
  induction fromHeight using fetchBatches.induct connection toHeight with
  | case1 current hle hfail =>
      have hfails : connection.fails current (batchEnd current toHeight) = true := by
        by_contra hserves
        simp [Connection.getBlockRange, hserves] at hfail
      rw [fetchBatches_of_fails hfail, batchRequests_of_le hle]
      simp [hfails]
  | case2 current hle blocks hblocks ih =>
      have hserves : connection.fails current (batchEnd current toHeight) = false := by
        by_contra hfails
        simp [Connection.getBlockRange, hfails] at hblocks
      have hrange : blocks =
          connection.view.getBlockRange current (batchEnd current toHeight) := by
        simpa [Connection.getBlockRange, hserves] using hblocks.symm
      rw [fetchBatches_of_some hle hblocks, ih, batchRequests_of_le hle, hrange]
      simp [hserves]
  | case3 current hgt =>
      rw [fetchBatches_of_gt connection hgt, batchRequests_of_gt hgt]
      rfl

/-- The blocks of a chain from one height to another, each once and in height order. -/
structure CoversRange (view : ChainView) (fromHeight toHeight : Nat)
    (blocks : List CompactBlock) : Prop where
  heights : blocks.map ChainView.heightOf =
    List.range' fromHeight (toHeight + 1 - fromHeight)
  served : forall block, block ∈ blocks -> block ∈ view

theorem coversRange_fetchBatches {connection : Connection} {fromHeight toHeight : Nat}
    (hnumbered : Numbered ChainView.heightOf 0 connection.view)
    (hle : fromHeight ≤ toHeight) (hlength : toHeight < connection.view.length)
    (hserves : connection.ServesRange fromHeight toHeight) :
    CoversRange connection.view fromHeight toHeight
      (fetchBatches connection fromHeight toHeight) := by
  rw [fetchBatches_complete hnumbered hserves (by lia)]
  have hfront := hnumbered.of_prefix (List.take_prefix (toHeight + 1) connection.view)
  constructor
  · rw [(hfront.drop fromHeight).map_eq_range', List.length_drop, List.length_take,
      Nat.min_eq_left hlength, Nat.zero_add]
  · intro block hblock
    exact List.mem_of_mem_take (List.mem_of_mem_drop hblock)

/-!
## What is applied
-/

section Applies

variable {σ ε : Type _} (applies : σ -> Option UInt32 -> CompactBlock -> σ -> Prop)

/-- Blocks applied one after the other, each with the tree size that the one before it
reported. -/
inductive AppliesInOrder : σ -> Option UInt32 -> List CompactBlock -> σ -> Prop where
  | nil (s : σ) (priorTreeSize : Option UInt32) : AppliesInOrder s priorTreeSize [] s
  | cons {s mid s' : σ} {priorTreeSize : Option UInt32} {block : CompactBlock}
      {rest : List CompactBlock} :
      applies s priorTreeSize block mid ->
      AppliesInOrder mid block.orchardTreeSize rest s' ->
      AppliesInOrder s priorTreeSize (block :: rest) s'

/-- A result without an error means that every block of the range was applied once and in
height order, and a failing request is returned as an error. -/
structure ReportsRange (connection : Connection) (fromHeight toHeight : Nat) (s : σ)
    (priorTreeSize : Option UInt32) (result : Outcome ε σ) : Prop where
  complete : forall s', result = .ok s' -> exists blocks,
    CoversRange connection.view fromHeight toHeight blocks ∧
      AppliesInOrder applies s priorTreeSize blocks s'
  reported : forall request, request ∈ batchRequests fromHeight toHeight ->
    connection.fails request.1 request.2 = true -> exists e, result = .error (.error e)

variable {applies}

theorem reportsRange_iff {connection : Connection} {fromHeight toHeight : Nat} {s : σ}
    {priorTreeSize : Option UInt32} {result : Outcome ε σ}
    (hnumbered : Numbered ChainView.heightOf 0 connection.view)
    (hle : fromHeight ≤ toHeight) (hlength : toHeight < connection.view.length)
    (hreturns : Outcome.NoPanic result)
    (happlied : forall s', result = .ok s' ↔ AppliesInOrder applies s priorTreeSize
      (fetchBatches connection fromHeight toHeight) s') :
    ReportsRange applies connection fromHeight toHeight s priorTreeSize result ↔
      connection.ServesRange fromHeight toHeight ∨
      ¬ exists s', AppliesInOrder applies s priorTreeSize
        (connection.blocksBeforeFailure fromHeight toHeight) s' := by
  rw [← fetchBatches_eq_blocksBeforeFailure]
  constructor
  · intro hreports
    by_cases hserves : connection.ServesRange fromHeight toHeight
    · exact Or.inl hserves
    · right
      rintro ⟨s', happlies⟩
      apply hserves
      intro request hrequest
      by_contra hfails
      rcases hreports.reported request hrequest (Bool.not_eq_false _ ▸ hfails) with ⟨e, he⟩
      rw [(happlied s').mpr happlies] at he
      cases he
  · rintro (hserves | hrefused)
    · constructor
      · intro s' hok
        exact ⟨_, coversRange_fetchBatches hnumbered hle hlength hserves,
          (happlied s').mp hok⟩
      · intro request hrequest hfails
        rw [hserves request hrequest] at hfails
        cases hfails
    · constructor
      · intro s' hok
        exact absurd ⟨s', (happlied s').mp hok⟩ hrefused
      · intro _ _ _
        cases hresult : result with
        | ok s' => exact absurd ⟨s', (happlied s').mp hresult⟩ hrefused
        | error failure =>
            cases failure with
            | error e => exact ⟨e, rfl⟩
            | panic => exact absurd hresult hreturns

end Applies
end Shared
end SpendabilityPir
