import SpendabilityPir.Combined.CombinedServer
import SpendabilityPir.Nullifier.TableEviction

/-!
# Rolling the table back above a height

The reorg branch of the follow loop picks the newest block by height and rolls it back
by hash.  As the two indices agree, every round succeeds and removes the block it
picked, and the loop ends with exactly the blocks at or below the height.
-/

namespace SpendabilityPir
namespace Combined

open Foundation
open Nullifier (HashTableDb NullifierEntry)
open Nullifier.HashTableDb (RepInvariant Keeps entryAt totalSlots)

/-- The rounds of the rollback loop, none of which fails. -/
inductive RollbackRounds (rollbackTo : Nat) : HashTableDb -> HashTableDb -> Prop where
  | done {hashtable : HashTableDb} :
      (forall height, hashtable.latestHeight = some height -> height ≤ rollbackTo) ->
      RollbackRounds rollbackTo hashtable hashtable
  | round {hashtable mid rolledBack : HashTableDb} {height : Nat} {blockHash : ByteVec 32} :
      hashtable.latestHeight = some height -> rollbackTo < height ->
      hashtable.latestBlockHash = some blockHash ->
      hashtable.rollbackBlock blockHash = some (mid, .ok ()) ->
      RollbackRounds rollbackTo mid rolledBack ->
      RollbackRounds rollbackTo hashtable rolledBack

theorem rollbackAbove_of_le {hashtable : HashTableDb} {rollbackTo : Nat}
    (h : forall height, hashtable.latestHeight = some height -> height ≤ rollbackTo) :
    rollbackAbove hashtable rollbackTo = some hashtable := by
  rw [rollbackAbove]
  cases hlatest : hashtable.latestHeight with
  | none => rfl
  | some height =>
      have hle := h height hlatest
      rw [if_neg]
      simp [hle]

theorem rollbackAbove_of_ok {hashtable mid : HashTableDb} {rollbackTo height : Nat}
    {blockHash : ByteVec 32} (hlatest : hashtable.latestHeight = some height)
    (hgt : rollbackTo < height) (hhash : hashtable.latestBlockHash = some blockHash)
    (hround : hashtable.rollbackBlock blockHash = some (mid, .ok ())) :
    rollbackAbove hashtable rollbackTo = rollbackAbove mid rollbackTo := by
  have hguard :
      (hashtable.latestHeight.map (fun h => decide (h > rollbackTo))).getD false = true := by
    rw [hlatest]
    exact decide_eq_true hgt
  rw [rollbackAbove, if_pos hguard, hhash]
  dsimp only
  split
  · next hfail =>
      rw [hround] at hfail
      cases hfail
  · next hfail =>
      rw [hround] at hfail
      cases hfail
  · next hok =>
      rw [hround] at hok
      cases hok
      rfl

theorem RollbackRounds.rollbackAbove_eq {rollbackTo : Nat}
    {hashtable rolledBack : HashTableDb} (h : RollbackRounds rollbackTo hashtable rolledBack) :
    rollbackAbove hashtable rollbackTo = some rolledBack := by
  induction h with
  | done hle => exact rollbackAbove_of_le hle
  | round hlatest hgt hhash hround _ ih =>
      rw [rollbackAbove_of_ok hlatest hgt hhash hround]
      exact ih

theorem rounds_of_repInvariant {hashtable : HashTableDb} (hinv : RepInvariant hashtable)
    (rollbackTo : Nat) :
    exists rolledBack, RollbackRounds rollbackTo hashtable rolledBack ∧
      Keeps hashtable (fun height => decide (height ≤ rollbackTo)) rolledBack := by
  induction hsize : hashtable.blockIndex.size using Nat.strong_induction_on
    generalizing hashtable with
  | _ size ih =>
      cases hlast : hashtable.blockIndex.last? with
      | none =>
          have hempty := OrderedMap.last?_eq_none_iff.mp hlast
          refine ⟨hashtable, RollbackRounds.done ?_, hinv.keeps_self ?_⟩
          · intro height hlatest
            rw [HashTableDb.latestHeight, hlast] at hlatest
            cases hlatest
          · intro height record hrecord
            rw [hempty height] at hrecord
            cases hrecord
      | some last =>
          have hlatest : hashtable.latestHeight = some last.1 := by
            rw [HashTableDb.latestHeight, hlast]
            rfl
          have hfind := OrderedMap.find?_of_last? hlast
          by_cases hgt : rollbackTo < last.1
          · have hhash : hashtable.latestBlockHash = some last.2.blockHash := by
              rw [HashTableDb.latestBlockHash, hlast]
              rfl
            have hlive := (hinv.inverse last.2.blockHash last.1).mpr ⟨last.2, hfind, rfl⟩
            rcases hinv.rollbackBlock hlive with ⟨mid, hround, hkeeps⟩
            have hlt := rollbackBlock_size_lt hround
            rw [hsize] at hlt
            rcases ih _ hlt hkeeps.invariant rfl with ⟨rolledBack, hrounds, hrest⟩
            refine ⟨rolledBack, RollbackRounds.round hlatest hgt hhash hround hrounds, ?_⟩
            apply (hkeeps.trans hrest).congr
            intro height record _
            rw [Bool.eq_iff_iff]
            simp only [Bool.and_eq_true, decide_eq_true_eq]
            lia
          · refine ⟨hashtable, RollbackRounds.done ?_, hinv.keeps_self ?_⟩
            · intro height hheight
              rw [hlatest] at hheight
              cases hheight
              exact Nat.le_of_not_lt hgt
            · intro height record hrecord
              have hle := OrderedMap.le_of_last? hlast hrecord
              simp only [decide_eq_true_eq]
              lia

/-- The loop ends without an error, having removed exactly the blocks above the height:
their slots are empty, every other entry is in its slot, the counter counts the blocks
that are left, and no height above is occupied for the insertion that follows. -/
theorem rollbackAbove_exact {hashtable : HashTableDb} (hinv : RepInvariant hashtable)
    (rollbackTo : Nat) :
    exists rolledBack,
      rollbackAbove hashtable rollbackTo = some rolledBack ∧
      RollbackRounds rollbackTo hashtable rolledBack ∧ RepInvariant rolledBack ∧
      (forall height record, rolledBack.blockIndex.find? height = some record ↔
        hashtable.blockIndex.find? height = some record ∧ height ≤ rollbackTo) ∧
      (forall blockHash height, rolledBack.blockHashToHeight blockHash = some height ↔
        hashtable.blockHashToHeight blockHash = some height ∧ height ≤ rollbackTo) ∧
      (forall height record, hashtable.blockIndex.find? height = some record ->
        height ≤ rollbackTo -> forall slot, slot ∈ record.slots ->
          entryAt rolledBack.buckets slot = entryAt hashtable.buckets slot) ∧
      (forall height record, hashtable.blockIndex.find? height = some record ->
        rollbackTo < height -> forall slot, slot ∈ record.slots ->
          (entryAt rolledBack.buckets slot).isEmpty = true) ∧
      rolledBack.len = totalSlots rolledBack.blockIndex.entries ∧
      (forall height, rollbackTo < height -> rolledBack.blockIndex.find? height = none) := by
  rcases rounds_of_repInvariant hinv rollbackTo with ⟨rolledBack, hrounds, hkeeps⟩
  refine ⟨rolledBack, hrounds.rollbackAbove_eq, hrounds, hkeeps.invariant, ?_, ?_, ?_, ?_,
    hkeeps.invariant.len_eq, ?_⟩
  · intro height record
    simpa using hkeeps.find?_iff height record
  · intro blockHash height
    simpa using hkeeps.blockHashToHeight_iff hinv blockHash height
  · intro height record hfind hle slot hslot
    exact hkeeps.entryAt_kept hfind (decide_eq_true hle) hslot
  · intro height record hfind hgt slot hslot
    rw [hkeeps.entryAt_removed hinv hfind (decide_eq_false (Nat.not_le_of_lt hgt)) hslot]
    exact NullifierEntry.isEmpty_zero
  · intro height hgt
    cases hfind : rolledBack.blockIndex.find? height with
    | none => rfl
    | some record =>
        have hkept := ((hkeeps.find?_iff height record).mp hfind).right
        simp only [decide_eq_true_eq] at hkept
        lia

/-- Rolling the table of one block back below it leaves its height free. -/
theorem rollbackAbove_exact_oneBlock :
    exists rolledBack,
      rollbackAbove (HashTableDb.new.insertBlock 7 (ByteVec.zeros 32)
        [HashTableDb.oneNullifier]).1 6 = some rolledBack ∧
      rolledBack.blockIndex.find? 7 = none := by
  rcases rollbackAbove_exact HashTableDb.repInvariant_oneBlock 6 with
    ⟨rolledBack, hloop, _, _, _, _, _, _, _, hfree⟩
  exact ⟨rolledBack, hloop, hfree 7 (by decide)⟩

end Combined
end SpendabilityPir
