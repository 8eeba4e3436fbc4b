import Mathlib.Data.List.DropRight
import SpendabilityPir.Shared.CompactBlock

/-!
# The chain tracker

A bounded window of recent heights and hashes, newest last.  A block that does not
link to the tip is a reorganization; the tracker says down to which height the
consumer has to roll back.
-/

namespace SpendabilityPir
namespace Shared

open Foundation

inductive ChainAction where
  | extend
  | reorg (rollbackTo : Nat)
deriving DecidableEq

structure ChainTracker where
  chain : List (Nat × ByteVec 32)
  maxDepth : Nat

namespace ChainTracker

def new (maxDepth : Nat) : ChainTracker :=
  { chain := [], maxDepth := maxDepth }

def withTip (height : Nat) (hash : ByteVec 32) (maxDepth : Nat) : ChainTracker :=
  { chain := [(height, hash)], maxDepth := maxDepth }

def tip (tracker : ChainTracker) : Option (Nat × ByteVec 32) :=
  tracker.chain.getLast?

def truncateTo (tracker : ChainTracker) (forkHeight : Nat) : ChainTracker :=
  { tracker with
    chain := tracker.chain.rdropWhile (fun e => decide (e.1 > forkHeight)) }

/-- The height of the newest entry with a hash, or the height before the window. -/
def findForkPoint (tracker : ChainTracker) (targetHash : ByteVec 32) : Nat :=
  match tracker.chain.reverse.find? (fun e => decide (e.2 = targetHash)) with
  | some e => e.1
  | none =>
      match tracker.chain.head? with
      | some e => e.1 - 1
      | none => 0

/-- Push a new block and say whether it extends the chain or triggers a reorg. -/
def pushBlock (tracker : ChainTracker) (height : Nat) (hash prevHash : ByteVec 32) :
    ChainTracker × ChainAction :=
  match tracker.tip with
  | some (tipHeight, tipHash) =>
      if prevHash = tipHash ∧ height = tipHeight + 1 then
        let chain := tracker.chain ++ [(height, hash)]
        ({ tracker with
           chain := if chain.length > tracker.maxDepth then chain.tail else chain },
         .extend)
      else
        let forkHeight := tracker.findForkPoint prevHash
        let truncated := tracker.truncateTo forkHeight
        ({ truncated with chain := truncated.chain ++ [(height, hash)] },
         .reorg forkHeight)
  | none =>
      ({ tracker with chain := tracker.chain ++ [(height, hash)] }, .extend)

@[simp] theorem tip_withTip (height : Nat) (hash : ByteVec 32) (maxDepth : Nat) :
    (withTip height hash maxDepth).tip = some (height, hash) := rfl

@[simp] theorem maxDepth_withTip (height : Nat) (hash : ByteVec 32) (maxDepth : Nat) :
    (withTip height hash maxDepth).maxDepth = maxDepth := rfl

theorem pushBlock_of_link {tracker : ChainTracker} {tipHeight height : Nat}
    {tipHash prevHash : ByteVec 32} (htip : tracker.tip = some (tipHeight, tipHash))
    (hlink : prevHash = tipHash ∧ height = tipHeight + 1) (hash : ByteVec 32) :
    tracker.pushBlock height hash prevHash =
      ({ tracker with
         chain := if (tracker.chain ++ [(height, hash)]).length > tracker.maxDepth
           then (tracker.chain ++ [(height, hash)]).tail
           else tracker.chain ++ [(height, hash)] },
       .extend) := by
  rw [pushBlock, htip]
  exact if_pos hlink

/-- A block that does not link to the tip goes on the window cut at the fork height. -/
theorem pushBlock_of_fork {tracker : ChainTracker} {tipHeight height : Nat}
    {tipHash prevHash : ByteVec 32} (htip : tracker.tip = some (tipHeight, tipHash))
    (hfork : ¬ (prevHash = tipHash ∧ height = tipHeight + 1)) (hash : ByteVec 32) :
    tracker.pushBlock height hash prevHash =
      ({ tracker.truncateTo (tracker.findForkPoint prevHash) with
         chain := (tracker.truncateTo (tracker.findForkPoint prevHash)).chain ++
           [(height, hash)] },
       .reorg (tracker.findForkPoint prevHash)) := by
  rw [pushBlock, htip]
  exact if_neg hfork

theorem pushBlock_extend {tracker : ChainTracker} {tipHeight : Nat}
    {tipHash : ByteVec 32} (htip : tracker.tip = some (tipHeight, tipHash))
    (hash : ByteVec 32) :
    (tracker.pushBlock (tipHeight + 1) hash tipHash).2 = .extend := by
  rw [pushBlock_of_link htip ⟨rfl, rfl⟩]

theorem pushBlock_withTip_zero (tipHash : ByteVec 32) (maxDepth height : Nat)
    (hash prevHash : ByteVec 32) :
    ((withTip 0 tipHash maxDepth).pushBlock height hash prevHash).2 = .extend ∨
    ((withTip 0 tipHash maxDepth).pushBlock height hash prevHash).2 = .reorg 0 := by
  have hfork : (withTip 0 tipHash maxDepth).findForkPoint prevHash = 0 := by
    rw [findForkPoint]
    by_cases hfound : tipHash = prevHash <;> simp [withTip, hfound]
  rw [pushBlock, tip_withTip]
  dsimp only
  split
  · exact Or.inl rfl
  · right
    rw [hfork]

theorem pushBlock_maxDepth (tracker : ChainTracker) (height : Nat)
    (hash prevHash : ByteVec 32) :
    (tracker.pushBlock height hash prevHash).1.maxDepth = tracker.maxDepth := by
  unfold pushBlock
  split
  · split <;> rfl
  · rfl

theorem pushBlock_tip {tracker : ChainTracker} (hdepth : 0 < tracker.maxDepth)
    (height : Nat) (hash prevHash : ByteVec 32) :
    (tracker.pushBlock height hash prevHash).1.tip = some (height, hash) := by
  unfold pushBlock
  split
  · split
    · show (if (tracker.chain ++ [(height, hash)]).length > tracker.maxDepth
        then (tracker.chain ++ [(height, hash)]).tail
        else tracker.chain ++ [(height, hash)]).getLast? = _
      split
      · next hlong =>
          cases hchain : tracker.chain with
          | nil =>
              rw [hchain] at hlong
              simp at hlong
              lia
          | cons first rest => simp
      · simp
    · simp [tip]
  · simp [tip]

end ChainTracker
end Shared
end SpendabilityPir
