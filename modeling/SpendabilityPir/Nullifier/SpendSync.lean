import SpendabilityPir.Nullifier.SpendFollow
import SpendabilityPir.Nullifier.TableSafety
import SpendabilityPir.Shared.RangeSync

/-!
# Syncing a range into the nullifier table

A sync inserts the fetched blocks in chain order and stops at the first failing
insertion.
-/

namespace SpendabilityPir
namespace Nullifier

open Foundation Shared

def InsertsBlock (hashtable : HashTableDb) (priorTreeSize : Option UInt32)
    (block : CompactBlock) (inserted : HashTableDb) : Prop :=
  hashtable.insertBlock block.height.toNat (toHashArray block.hash)
    (extractNullifiersWithMeta block priorTreeSize).1 = (inserted, .ok ())

theorem insertEvents_eq_ok {blocks : List CompactBlock}
    {hashtable hashtable' : HashTableDb} {priorTreeSize : Option UInt32} :
    insertEvents hashtable (emitBlocks newBlockEvent priorTreeSize blocks) =
        .ok hashtable' ↔
      AppliesInOrder InsertsBlock hashtable priorTreeSize blocks hashtable' := by
  induction blocks generalizing hashtable priorTreeSize with
  | nil =>
      constructor
      · intro h
        cases h
        exact AppliesInOrder.nil _ _
      · intro h
        cases h
        rfl
  | cons block rest ih =>
      constructor
      · intro h
        rcases bind_eq_ok.mp h with ⟨inserted, hinsert, hrest⟩
        exact AppliesInOrder.cons (insertOrFail_eq_ok.mp hinsert) (ih.mp hrest)
      · intro h
        cases h with
        | cons hinsert hrest =>
            exact bind_eq_ok.mpr ⟨_, insertOrFail_eq_ok.mpr hinsert, ih.mpr hrest⟩

theorem noPanic_insertEvents (hashtable : HashTableDb) (events : List ChainEvent) :
    Outcome.NoPanic (insertEvents hashtable events) := by
  induction events generalizing hashtable with
  | nil => exact Outcome.noPanic_ok _
  | cons event rest ih =>
      cases event with
      | newBlock height hash prevHash nullifiers =>
          apply Outcome.noPanic_bind.mpr
          constructor
          · unfold insertOrFail
            split
            · exact Outcome.noPanic_error _
            · exact Outcome.noPanic_ok _
          · intro inserted _
            exact ih inserted
      | reorg orphaned newBlocks => exact ih hashtable

theorem syncRange_eq_ok {connection : Connection} {fromHeight toHeight : Nat}
    {hashtable hashtable' : HashTableDb} {initialTreeSize : Option UInt32} :
    syncRange (some connection) fromHeight toHeight hashtable initialTreeSize =
        .ok hashtable' ↔
      AppliesInOrder InsertsBlock hashtable initialTreeSize
        (fetchBatches connection fromHeight toHeight) hashtable' := by
  rw [syncRange, ← insertEvents_eq_ok]
  split
  · next hgt =>
      rw [fetchBatches_of_gt connection (Nat.not_le_of_gt hgt)]
      rfl
  · rfl

theorem syncRange_of_serves {connection : Connection} {fromHeight toHeight : Nat}
    (hnumbered : Numbered ChainView.heightOf 0 connection.view)
    (hserves : connection.ServesRange fromHeight toHeight) (hle : fromHeight ≤ toHeight)
    (hashtable : HashTableDb) (initialTreeSize : Option UInt32) :
    syncRange (some connection) fromHeight toHeight hashtable initialTreeSize =
      insertEvents hashtable (emitBlocks newBlockEvent initialTreeSize
        ((connection.view.take (toHeight + 1)).drop fromHeight)) := by
  rw [syncRange, if_neg (Nat.not_lt_of_le hle),
    ← fetchBatches_complete hnumbered hserves (Nat.le_succ_of_le hle)]
  rfl

theorem noPanic_syncRange (connection : Connection) (fromHeight toHeight : Nat)
    (hashtable : HashTableDb) (initialTreeSize : Option UInt32) :
    Outcome.NoPanic
      (syncRange (some connection) fromHeight toHeight hashtable initialTreeSize) := by
  unfold syncRange
  split
  · exact Outcome.noPanic_ok _
  · exact noPanic_insertEvents _ _

theorem insertEvents_induction {P : List CompactBlock -> HashTableDb -> Prop}
    {blocks : List CompactBlock}
    (hstep : forall front block hashtable inserted nullifiers,
      (front ++ [block]).IsPrefix blocks -> P front hashtable ->
      nullifiers.map NullifierWithMeta.nullifier = extractNullifiers block ->
      hashtable.insertBlock block.height.toNat (toHashArray block.hash) nullifiers =
        (inserted, .ok ()) ->
      P (front ++ [block]) inserted)
    {hashtable hashtable' : HashTableDb} {priorTreeSize : Option UInt32}
    {front rest : List CompactBlock} (hsplit : front ++ rest = blocks)
    (h : insertEvents hashtable (emitBlocks newBlockEvent priorTreeSize rest) =
      .ok hashtable')
    (hstart : P front hashtable) : P blocks hashtable' := by
  induction rest generalizing front hashtable priorTreeSize with
  | nil =>
      rw [List.append_nil] at hsplit
      cases h
      rw [← hsplit]
      exact hstart
  | cons block rest ih =>
      rcases bind_eq_ok.mp h with ⟨inserted, hinsert, hrest⟩
      have hsplit' : (front ++ [block]) ++ rest = blocks := by
        rw [List.append_assoc]
        exact hsplit
      exact ih hsplit' hrest (hstep front block hashtable inserted _ ⟨rest, hsplit'⟩ hstart
        (map_nullifier_extractNullifiersWithMeta block priorTreeSize)
        (insertOrFail_eq_ok.mp hinsert))

/-- The table's counter is exact, and its newest record is that of a block. -/
structure EndsWith (hashtable : HashTableDb) (block : CompactBlock) : Prop where
  counted : hashtable.Counted
  newest : exists record, hashtable.blockIndex.last? = some (block.height.toNat, record) ∧
    record.blockHash = toHashArray block.hash

theorem EndsWith.latestHeight_eq {hashtable : HashTableDb} {block : CompactBlock}
    (h : EndsWith hashtable block) : hashtable.latestHeight = some block.height.toNat := by
  rcases h.newest with ⟨record, hlast, _⟩
  rw [HashTableDb.latestHeight, hlast]
  rfl

theorem EndsWith.latestBlockHash_eq {hashtable : HashTableDb} {block : CompactBlock}
    (h : EndsWith hashtable block) :
    hashtable.latestBlockHash = some (toHashArray block.hash) := by
  rcases h.newest with ⟨record, hlast, hhash⟩
  rw [HashTableDb.latestBlockHash, hlast, ← hhash]
  rfl

/-- Inserting a block above the newest one makes it the newest. -/
theorem EndsWith.insertBlock {hashtable inserted : HashTableDb} {last block : CompactBlock}
    {nullifiers : List NullifierWithMeta} (h : EndsWith hashtable last)
    (habove : last.height.toNat < block.height.toNat)
    (hinsert : hashtable.insertBlock block.height.toNat (toHashArray block.hash) nullifiers =
      (inserted, .ok ())) :
    EndsWith inserted block ∧ exists record,
      inserted.blockIndex.last? = some (block.height.toNat, record) ∧
      record.slots.length = nullifiers.length := by
  rcases h.newest with ⟨record, hlast, _⟩
  have hbelow : forall e, e ∈ hashtable.blockIndex.entries -> e.1 < block.height.toNat := by
    intro e he
    have hle := OrderedMap.le_of_last? hlast (OrderedMap.mem_entries_iff.mp he)
    exact Nat.lt_of_le_of_lt hle habove
  have hfresh : hashtable.blockIndex.find? block.height.toNat = none := by
    apply OrderedMap.find?_eq_none_iff.mpr
    intro v hmem
    exact Nat.lt_irrefl _ (hbelow _ hmem)
  rcases HashTableDb.insertBlock_counts hinsert with ⟨slots, hindex, hlength, _, _⟩
  have hnewest : inserted.blockIndex.last? = some (block.height.toNat,
      { blockHash := toHashArray block.hash, slots := slots }) := by
    rw [hindex]
    change (OrderedMap.insert _ _ _).entries.getLast? = _
    rw [OrderedMap.insert_entries_of_lt _ hbelow]
    exact List.getLast?_concat
  exact ⟨⟨h.counted.insertBlock hfresh hinsert, _, hnewest, rfl⟩, _, hnewest, hlength⟩

theorem endsWith_insertEvents {hashtable hashtable' : HashTableDb}
    {priorTreeSize : Option UInt32} {last block final : CompactBlock}
    {rest : List CompactBlock} (h : EndsWith hashtable last)
    (hgrowing : (last :: block :: rest).Pairwise
      (fun a b => a.height.toNat < b.height.toNat))
    (hinsert : insertEvents hashtable
      (emitBlocks newBlockEvent priorTreeSize (block :: rest)) = .ok hashtable')
    (hfinal : (block :: rest).getLast? = some final) :
    EndsWith hashtable' final ∧ exists record,
      hashtable'.blockIndex.last? = some (final.height.toNat, record) ∧
      record.slots.length = (extractNullifiers final).length := by
  induction rest generalizing hashtable priorTreeSize last block with
  | nil =>
      rcases bind_eq_ok.mp hinsert with ⟨inserted, hblock, hnone⟩
      cases hnone
      have heq : block = final := Option.some.inj hfinal
      rw [← heq]
      have hcount := congrArg List.length
        (map_nullifier_extractNullifiersWithMeta block priorTreeSize)
      rw [List.length_map] at hcount
      rw [← hcount]
      exact h.insertBlock ((List.pairwise_cons.mp hgrowing).1 block List.mem_cons_self)
        (insertOrFail_eq_ok.mp hblock)
  | cons next rest ih =>
      rcases bind_eq_ok.mp hinsert with ⟨inserted, hblock, hrest⟩
      rcases List.pairwise_cons.mp hgrowing with ⟨hlast, htail⟩
      have hnext := (h.insertBlock (hlast block List.mem_cons_self)
        (insertOrFail_eq_ok.mp hblock)).1
      rw [List.getLast?_cons_cons] at hfinal
      exact ih hnext htail hrest hfinal

end Nullifier
end SpendabilityPir
