import SpendabilityPir.Nullifier.SpendServer

/-!
# Starting the nullifier server

A run without the event loop: sync forward from the snapshot or from near the tip,
backfill earlier blocks unless a snapshot was loaded, evict, and publish.
-/

namespace SpendabilityPir
namespace Nullifier

open Foundation Shared

theorem backfillStart_le {floor backfillEnd : Nat} (h : floor ≤ backfillEnd) :
    SpendServer.backfillStart floor backfillEnd ≤ backfillEnd := by
  rw [SpendServer.backfillStart, Nat.max_le]
  exact ⟨Nat.sub_le _ _, h⟩

theorem floor_le_backfillStart (floor backfillEnd : Nat) :
    floor ≤ SpendServer.backfillStart floor backfillEnd := by
  rw [SpendServer.backfillStart]
  exact Nat.le_max_right _ _

theorem pred_backfillStart_lt {floor backfillEnd : Nat} (h : floor ≤ backfillEnd)
    (hstart : SpendServer.backfillStart floor backfillEnd ≠ floor) :
    SpendServer.backfillStart floor backfillEnd - 1 < backfillEnd := by
  have hle := backfillStart_le h
  have hge := floor_le_backfillStart floor backfillEnd
  generalize SpendServer.backfillStart floor backfillEnd = start at hstart hle hge ⊢
  lia

/-- Backfill earlier blocks, one batch at a time, until the target size or the floor is
reached. -/
def backfill (config : ServerConfig)
    (syncBatch : Nat -> Nat -> HashTableDb -> Outcome ServerError HashTableDb)
    (floor backfillEnd : Nat) (hashtable : HashTableDb) :
    Outcome ServerError HashTableDb :=
  if _h : hashtable.len < config.targetSize ∧ backfillEnd ≥ floor then
    match syncBatch (SpendServer.backfillStart floor backfillEnd) backfillEnd hashtable with
    | .error e => .error e
    | .ok synced =>
        if hstart : SpendServer.backfillStart floor backfillEnd = floor then .ok synced
        else
          backfill config syncBatch floor
            (SpendServer.backfillStart floor backfillEnd - 1) synced
  else .ok hashtable
termination_by backfillEnd
decreasing_by exact pred_backfillStart_lt _h.2 hstart

def syncBatch (connect : Nat -> Nat -> Option Connection) (fromHeight toHeight : Nat)
    (hashtable : HashTableDb) : Outcome ServerError HashTableDb :=
  syncRange (connect fromHeight toHeight) fromHeight toHeight hashtable none

/-- Sync forward to the tip, if there is something to sync. -/
def syncToTip (connect : Nat -> Nat -> Option Connection) (tipHeight forwardStart : Nat)
    (hashtable : HashTableDb) : Outcome ServerError HashTableDb :=
  if forwardStart ≤ tipHeight then syncBatch connect forwardStart tipHeight hashtable
  else .ok hashtable

/-- Backfill below the forward sync, unless the table is from a snapshot. -/
def fillTable (config : ServerConfig) (connect : Nat -> Nat -> Option Connection)
    (floor forwardStart : Nat) (fromSnapshot : Bool) (hashtable : HashTableDb) :
    Outcome ServerError HashTableDb :=
  if fromSnapshot then .ok hashtable
  else backfill config (syncBatch connect) floor (forwardStart - 1) hashtable

/-- Sync to the tip and publish; the snapshot is `none` where it does not load. -/
def runSyncOnly {σ : Type} (config : ServerConfig) (engine : PirEngine σ)
    (tipHeight : Nat) (connect : Nat -> Nat -> Option Connection)
    (snapshot : Option HashTableDb) :
    Outcome ServerError (HashTableDb × PirState σ) := do
  let hashtable := snapshot.getD HashTableDb.new
  let floor := minSyncHeight tipHeight
  let forwardStart := SpendServer.forwardStart hashtable snapshot.isSome tipHeight floor
  let synced <- syncToTip connect tipHeight forwardStart hashtable
  let filled <- fillTable config connect floor forwardStart snapshot.isSome synced
  let evicted <- Outcome.ofPanics filled.evictToTarget
  let pir <- rebuildPir engine evicted scenario
  return (evicted, pir)

end Nullifier
end SpendabilityPir
