import SpendabilityPir.Combined.CombinedServer
import SpendabilityPir.Nullifier.SpendSync
import SpendabilityPir.Witness.WitnessSync

/-!
# Gaps a sync does not report

Both servers run the fetching in a task of its own and drop what the task returns, so a
failing request looks like the end of the range.  The result is an error only if one of
the blocks that arrived before it is refused.  Every caller goes on with whatever table or
tree it gets.
-/

namespace SpendabilityPir
namespace Combined

open Foundation Shared
open Nullifier (HashTableDb InsertsBlock)
open Witness (CommitmentTreeDb AppendsBlock)

/-- Either sync reports its gaps exactly when no request fails, or when a block fetched
before the failing one is refused. -/
theorem syncRange_reports_iff {connection : Connection}
    (hnumbered : Numbered ChainView.heightOf 0 connection.view)
    {fromHeight toHeight : Nat} (hle : fromHeight ≤ toHeight)
    (hlength : toHeight < connection.view.length) (hashtable : HashTableDb)
    (tree : CommitmentTreeDb) (initialTreeSize : Option UInt32) :
    (ReportsRange InsertsBlock connection fromHeight toHeight hashtable initialTreeSize
        (Nullifier.syncRange (some connection) fromHeight toHeight hashtable
          initialTreeSize) ↔
      connection.ServesRange fromHeight toHeight ∨
      ¬ exists hashtable', AppliesInOrder InsertsBlock hashtable initialTreeSize
        (connection.blocksBeforeFailure fromHeight toHeight) hashtable') ∧
    (ReportsRange AppendsBlock connection fromHeight toHeight tree initialTreeSize
        (Witness.syncRange (some connection) fromHeight toHeight tree initialTreeSize) ↔
      connection.ServesRange fromHeight toHeight ∨
      ¬ exists tree', AppliesInOrder AppendsBlock tree initialTreeSize
        (connection.blocksBeforeFailure fromHeight toHeight) tree') := by
  constructor
  · apply reportsRange_iff hnumbered hle hlength
    · exact Nullifier.noPanic_syncRange connection fromHeight toHeight hashtable _
    · intro hashtable'
      exact Nullifier.syncRange_eq_ok
  · apply reportsRange_iff hnumbered hle hlength
    · exact Witness.noPanic_syncRange connection fromHeight toHeight tree _
    · intro tree'
      exact Witness.syncRange_eq_ok_iff

def servingConnection : Connection := { view := chainBefore, fails := fun _ _ => false }
def failingConnection : Connection := { view := chainBefore, fails := fun _ _ => true }

theorem batchRequests_one : batchRequests 1 1 = [(1, 1)] := by
  rw [batchRequests_of_le (by decide), batchRequests_of_gt (by decide)]
  rfl

/-- Where the block is served, both syncs report what there is. -/
theorem syncRange_reports_iff_served :
    ReportsRange InsertsBlock servingConnection 1 1 HashTableDb.new none
      (Nullifier.syncRange (some servingConnection) 1 1 HashTableDb.new none) ∧
    ReportsRange AppendsBlock servingConnection 1 1 CommitmentTreeDb.new none
      (Witness.syncRange (some servingConnection) 1 1 CommitmentTreeDb.new none) := by
  have hnumbered : Numbered ChainView.heightOf 0 servingConnection.view :=
    honest_chainBefore.heights
  have hlength : 1 < servingConnection.view.length := by decide
  have hiff := syncRange_reports_iff hnumbered (Nat.le_refl 1) hlength HashTableDb.new
    CommitmentTreeDb.new none
  have hserves : servingConnection.ServesRange 1 1 := fun _ _ => rfl
  exact ⟨hiff.left.mpr (Or.inl hserves), hiff.right.mpr (Or.inl hserves)⟩

/-- Where the block's only request fails, both syncs return what they were given. -/
theorem syncRange_hides_failure :
    ¬ ReportsRange InsertsBlock failingConnection 1 1 HashTableDb.new none
      (Nullifier.syncRange (some failingConnection) 1 1 HashTableDb.new none) ∧
    ¬ ReportsRange AppendsBlock failingConnection 1 1 CommitmentTreeDb.new none
      (Witness.syncRange (some failingConnection) 1 1 CommitmentTreeDb.new none) := by
  have hrequest : (1, 1) ∈ batchRequests 1 1 := by
    rw [batchRequests_one]
    exact List.mem_singleton.mpr rfl
  have hfetched : fetchBatches failingConnection 1 1 = [] :=
    fetchBatches_of_fails rfl
  constructor
  · intro hreports
    rcases hreports.reported _ hrequest rfl with ⟨e, he⟩
    have hok : Nullifier.syncRange (some failingConnection) 1 1 HashTableDb.new none =
        .ok HashTableDb.new := by
      rw [Nullifier.syncRange_eq_ok, hfetched]
      exact AppliesInOrder.nil _ _
    rw [hok] at he
    cases he
  · intro hreports
    rcases hreports.reported _ hrequest rfl with ⟨e, he⟩
    have hok : Witness.syncRange (some failingConnection) 1 1 CommitmentTreeDb.new none =
        .ok CommitmentTreeDb.new := by
      rw [Witness.syncRange_eq_ok_iff, hfetched]
      exact AppliesInOrder.nil _ _
    rw [hok] at he
    cases he

/-!
## The callers
-/

/-- A forward sync or a backfill goes on exactly when the range was applied. -/
theorem syncStage_of_reports {σ : Type} {connection : Connection}
    {fromHeight toHeight : Nat} {s : Nullifier.SpendServer σ}
    (h : ReportsRange InsertsBlock connection fromHeight toHeight s.hashtable none
      (Nullifier.syncRange (some connection) fromHeight toHeight s.hashtable none))
    (next : HashTableDb -> Nullifier.Stage) :
    s.syncStage (some connection) fromHeight toHeight next = { s with stage := .stopped } ∨
    exists blocks hashtable, CoversRange connection.view fromHeight toHeight blocks ∧
      AppliesInOrder InsertsBlock s.hashtable none blocks hashtable ∧
      s.syncStage (some connection) fromHeight toHeight next =
        { s with hashtable := hashtable, stage := next hashtable } := by
  unfold Nullifier.SpendServer.syncStage
  cases hsync : Nullifier.syncRange (some connection) fromHeight toHeight s.hashtable none with
  | error failure => exact Or.inl rfl
  | ok hashtable =>
      rcases h.complete hashtable hsync with ⟨blocks, hcovers, happlies⟩
      exact Or.inr ⟨blocks, hashtable, hcovers, happlies, rfl⟩

theorem catchUpNullifier_of_reports {connection : Connection} {fromHeight toHeight : Nat}
    {hashtable caught : HashTableDb}
    (h : ReportsRange InsertsBlock connection fromHeight toHeight hashtable none
      (Nullifier.syncRange (some connection) fromHeight toHeight hashtable none))
    (hcaught : catchUpNullifier (some connection) fromHeight toHeight hashtable =
      .ok caught) :
    exists blocks synced, CoversRange connection.view fromHeight toHeight blocks ∧
      AppliesInOrder InsertsBlock hashtable none blocks synced ∧
      synced.evictToTarget = some caught := by
  rcases bind_eq_ok.mp hcaught with ⟨synced, hsync, hevict⟩
  rcases h.complete synced (Outcome.mapErr_eq_ok.mp hsync) with ⟨blocks, hcovers, happlies⟩
  exact ⟨blocks, synced, hcovers, happlies, Outcome.ofPanics_eq_ok.mp hevict⟩

theorem catchUpWitness_of_reports {connection : Connection} {fromHeight toHeight : Nat}
    {tree caught : CommitmentTreeDb} {initialTreeSize : Option UInt32}
    (h : ReportsRange AppendsBlock connection fromHeight toHeight tree initialTreeSize
      (Witness.syncRange (some connection) fromHeight toHeight tree initialTreeSize))
    (hcaught : catchUpWitness (some connection) fromHeight toHeight tree initialTreeSize =
      .ok caught) :
    exists blocks, CoversRange connection.view fromHeight toHeight blocks ∧
      AppliesInOrder AppendsBlock tree initialTreeSize blocks caught :=
  h.complete caught (Outcome.mapErr_eq_ok.mp hcaught)

end Combined
end SpendabilityPir
