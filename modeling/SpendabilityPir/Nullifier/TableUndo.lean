import SpendabilityPir.Nullifier.TableRemoval
import SpendabilityPir.Nullifier.TableSafety

/-!
# Rollback undoes insertion

Free slots hold the zero entry, so removing a block that was inserted gives back the
bytes from before, whatever holes the block filled.  The table before some insertions is
what is left of the table after them when the blocks are taken out, and what is left does
not depend on the order; so rolling the blocks back in any order restores the bytes.
-/

namespace SpendabilityPir
namespace Nullifier

open Foundation

namespace HashTableDb

/-- The representation invariant down to the bytes: an empty slot is the zero entry. -/
structure ByteInvariant (db : HashTableDb) : Prop extends RepInvariant db where
  freeZero : forall slot, slot ∉ slotRefs db.blockIndex ->
    entryAt db.buckets slot = NullifierEntry.zero

theorem byteInvariant_new : ByteInvariant new := by
  refine ⟨repInvariant_of_represents represents_new, ?_⟩
  intro slot _
  unfold entryAt
  split <;> rfl

theorem ByteInvariant.keeps {db db' : HashTableDb} {keep : Nat -> Bool}
    (hinv : ByteInvariant db) (h : Keeps db keep db') : ByteInvariant db' := by
  refine ⟨h.invariant, ?_⟩
  intro slot hnot
  by_cases hslot : slot ∈ slotRefs db.blockIndex
  · exact h.cleared slot hslot hnot
  · rw [h.untouched slot hslot]
    exact hinv.freeZero slot hslot

/-!
## Inserting a block
-/

theorem insertNullifiers_untouched {spendHeight : UInt32}
    {nullifiers : List NullifierWithMeta} {db db' : HashTableDb}
    {slots slots' : List (Nat × Nat)}
    (h : insertNullifiers spendHeight db slots nullifiers = (db', .ok slots')) :
    exists new, slots' = slots ++ new ∧
      forall slot, slot ∉ new -> entryAt db'.buckets slot = entryAt db.buckets slot := by
  induction nullifiers generalizing db slots with
  | nil =>
      cases h
      exact ⟨[], by simp⟩
  | cons nwm rest ih =>
      unfold insertNullifiers at h
      cases hfree : (db.buckets (hashToBucket nwm.nullifier)).findFreeSlot with
      | none =>
          simp only [hfree] at h
          cases h
      | some i =>
          simp only [hfree] at h
          rcases ih h with ⟨new, hslots, hframe⟩
          refine ⟨((hashToBucket nwm.nullifier).val, i.val) :: new, ?_, ?_⟩
          · rw [hslots, List.append_assoc]
            rfl
          · intro slot hnot
            have hne := List.ne_of_not_mem_cons hnot
            have hrest := List.not_mem_of_not_mem_cons hnot
            rw [hframe slot hrest, entryAt_putEntry, if_neg hne]

/-- What a successful insertion leaves, over a table whose listed slots are owned. -/
theorem insertBlock_spec {db db' : HashTableDb} {height : Nat} {blockHash : ByteVec 32}
    {nullifiers : List NullifierWithMeta}
    (howned : Owned db.buckets (slotRefs db.blockIndex))
    (hnonzero : forall nwm, nwm ∈ nullifiers -> nwm.nullifier ≠ ByteVec.zeros 32)
    (h : db.insertBlock height blockHash nullifiers = (db', .ok ())) :
    exists slots,
      db'.blockIndex = db.blockIndex.insert height
        { blockHash := blockHash, slots := slots } ∧
      db'.blockHashToHeight = Function.update db.blockHashToHeight blockHash (some height) ∧
      db'.numEntries = db.numEntries + slots.length ∧
      List.Forall₂ (HoldsEntry db'.buckets (UInt32.ofNat height)) slots nullifiers ∧
      Owned db'.buckets (slotRefs db.blockIndex ++ slots) ∧
      (forall slot, slot ∉ slots -> entryAt db'.buckets slot = entryAt db.buckets slot) := by
  unfold insertBlock at h
  cases hloop : insertNullifiers (UInt32.ofNat height) db [] nullifiers with
  | mk mid result =>
      rw [hloop] at h
      cases result with
      | error failure => cases h
      | ok slots =>
          cases h
          rcases insertNullifiers_ok howned hnonzero hloop with
            ⟨new, hslots, hholds, hnew, _, hcount, hindex, hhash⟩
          rcases insertNullifiers_untouched hloop with ⟨new', hslots', hframe⟩
          rw [List.nil_append] at hslots hslots'
          subst hslots hslots'
          refine ⟨slots, ?_, ?_, ?_, hholds, hnew, hframe⟩
          · rw [← hindex]
          · rw [← hhash]
          · rw [hcount, hholds.length_eq]

/-- A block whose height and hash are new and whose nullifiers are not zero goes in. -/
structure FreshInsert (db : HashTableDb) (e : Nat × LiveBlock) (db' : HashTableDb) :
    Prop where
  height : db.blockIndex.find? e.1 = none
  hash : db.blockHashToHeight e.2.hash = none
  nonzero : forall nwm, nwm ∈ e.2.nullifiers -> nwm.nullifier ≠ ByteVec.zeros 32
  inserted : db.insertBlock e.1 e.2.hash e.2.nullifiers = (db', .ok ())

theorem freshInsert_of_insertBlock {db db' : HashTableDb} {height : Nat}
    {blockHash : ByteVec 32} {nullifiers : List NullifierWithMeta}
    (hheight : db.blockIndex.find? height = none)
    (hhash : db.blockHashToHeight blockHash = none)
    (hnonzero : forall nwm, nwm ∈ nullifiers -> nwm.nullifier ≠ ByteVec.zeros 32)
    (hinsert : db.insertBlock height blockHash nullifiers = (db', .ok ())) :
    FreshInsert db (height, { hash := blockHash, nullifiers := nullifiers }) db' :=
  ⟨hheight, hhash, hnonzero, hinsert⟩

theorem FreshInsert.repInvariant {db db' : HashTableDb} {e : Nat × LiveBlock}
    (hinv : RepInvariant db) (h : FreshInsert db e db') : RepInvariant db' := by
  rcases insertBlock_spec hinv.owned h.nonzero h.inserted with
    ⟨slots, hindex, hhashes, hcount, hholds, howned, hframe⟩
  have hperm := slotRefs_insert_perm { blockHash := e.2.hash, slots := slots } h.height
  rw [← hindex] at hperm
  apply repInvariant_of_owned
  · exact howned.perm hperm.symm
  · intro k record hrecord slot hslot
    rw [hindex, OrderedMap.find?_insert] at hrecord
    split at hrecord
    · next hk =>
        cases hrecord
        rcases exists_right_of_forall₂ hholds hslot with ⟨nwm, _, hbucket, hentry⟩
        rw [hentry, hk]
        exact ⟨hbucket.symm, UInt32.toNat_ofNat⟩
    · have hlisted := mem_slotRefs.mpr ⟨k, record, hrecord, hslot⟩
      have hfresh := (howned.perm List.perm_append_comm).disjoint hlisted
      rw [hframe slot hfresh]
      exact hinv.owner k record hrecord slot hslot
  · rw [hcount, hperm.length_eq, List.length_append, hinv.count]
  · rw [hhashes, hindex]
    exact hinv.hashIndexed.insert { blockHash := e.2.hash, slots := slots } h.height h.hash

theorem FreshInsert.keeps {db db' : HashTableDb} {e : Nat × LiveBlock}
    (hinv : ByteInvariant db) (h : FreshInsert db e db') :
    Keeps db' (fun height => decide (height ≠ e.1)) db := by
  rcases insertBlock_spec hinv.toRepInvariant.owned h.nonzero h.inserted with
    ⟨slots, hindex, _, _, _, howned, hframe⟩
  have hperm := slotRefs_insert_perm { blockHash := e.2.hash, slots := slots } h.height
  rw [← hindex] at hperm
  constructor
  · rw [← OrderedMap.erase_eq_filterKeys, hindex, OrderedMap.erase_insert _ h.height]
  · exact hinv.toRepInvariant
  · intro slot hslot
    have hfresh := (howned.perm List.perm_append_comm).disjoint hslot
    exact (hframe slot hfresh).symm
  · intro slot _ hfree
    exact hinv.freeZero slot hfree
  · intro slot hnot
    have hother : slot ∉ slots :=
      fun hnew => hnot (hperm.mem_iff.mpr (List.mem_append_right _ hnew))
    exact (hframe slot hother).symm

theorem FreshInsert.byteInvariant {db db' : HashTableDb} {e : Nat × LiveBlock}
    (hinv : ByteInvariant db) (h : FreshInsert db e db') : ByteInvariant db' := by
  refine ⟨h.repInvariant hinv.toRepInvariant, ?_⟩
  intro slot hnot
  have hkeeps := h.keeps hinv
  rw [← hkeeps.untouched slot hnot]
  exact hinv.freeZero slot (fun hslot => hnot (hkeeps.mem_slotRefs hslot))

theorem FreshInsert.blockHashToHeight {db db' : HashTableDb} {e : Nat × LiveBlock}
    (hinv : RepInvariant db) (h : FreshInsert db e db') :
    db'.blockHashToHeight e.2.hash = some e.1 := by
  rcases insertBlock_spec hinv.owned h.nonzero h.inserted with ⟨_, _, hhashes, _⟩
  rw [hhashes, Function.update_self]

/-!
## Inserting blocks and rolling them back
-/

/-- What a table looks like after fresh blocks went in, one after the other. -/
structure Extended (db : HashTableDb) (blocks : List (Nat × LiveBlock))
    (db' : HashTableDb) : Prop where
  invariant : ByteInvariant db'
  keeps : Keeps db' (fun height => decide (height ∉ blocks.map Prod.fst)) db
  hashes : forall e, e ∈ blocks -> db'.blockHashToHeight e.2.hash = some e.1
  distinct : (blocks.map (fun e => e.2.hash)).Nodup

theorem extended_of_run {db db' : HashTableDb} {blocks : List (Nat × LiveBlock)}
    (hinv : ByteInvariant db) (h : Run FreshInsert db blocks db') :
    Extended db blocks db' := by
  induction h with
  | nil =>
      refine ⟨hinv, hinv.toRepInvariant.keeps_self ?_, ?_, List.nodup_nil⟩
      · simp
      · simp
  | snoc _ hlast hfront =>
      have hmid := hfront.invariant
      have hkeeps := hlast.keeps hmid
      have hinv' := hlast.byteInvariant hmid
      constructor
      · exact hinv'
      · apply (hkeeps.trans hfront.keeps).congr
        intro height record _
        rw [Bool.eq_iff_iff]
        simp [and_comm]
      · intro other hother
        rcases List.mem_append.mp hother with hin | hnew
        · have hat := hfront.hashes other hin
          exact ((hkeeps.blockHashToHeight_iff hinv'.toRepInvariant _ _).mp hat).left
        · rw [List.mem_singleton.mp hnew]
          exact hlast.blockHashToHeight hmid.toRepInvariant
      · rw [List.map_append, List.nodup_append]
        refine ⟨hfront.distinct, List.nodup_singleton _, ?_⟩
        intro blockHash hin other hother heq
        rcases List.mem_map.mp hin with ⟨old, hold, hsame⟩
        have hat := hfront.hashes old hold
        rw [hsame, heq, List.mem_singleton.mp hother, hlast.hash] at hat
        cases hat

def RolledBack (db : HashTableDb) (blockHash : ByteVec 32) (db' : HashTableDb) : Prop :=
  db.rollbackBlock blockHash = some (db', .ok ())

theorem rolledBack_run {db : HashTableDb} {order : List (ByteVec 32)}
    (hinv : RepInvariant db) (hdistinct : order.Nodup)
    (hlive : forall blockHash, blockHash ∈ order ->
      exists height, db.blockHashToHeight blockHash = some height) :
    exists db', Run RolledBack db order db' ∧
      Keeps db (fun height =>
        decide (height ∉ order.filterMap db.blockHashToHeight)) db' := by
  induction order generalizing db with
  | nil =>
      refine ⟨db, Run.nil db, hinv.keeps_self ?_⟩
      simp
  | cons blockHash rest ih =>
      rcases List.nodup_cons.mp hdistinct with ⟨hnew, hrest⟩
      rcases hlive blockHash List.mem_cons_self with ⟨height, hheight⟩
      rcases hinv.rollbackBlock hheight with ⟨mid, hfirst, hkeeps⟩
      -- the other hashes stand at other heights, so they stay live
      have hsame : forall other, other ∈ rest ->
          mid.blockHashToHeight other = db.blockHashToHeight other := by
        intro other hother
        rcases hlive other (List.mem_cons_of_mem _ hother) with ⟨k, hk⟩
        rw [hk, hkeeps.blockHashToHeight_iff hinv]
        refine ⟨hk, decide_eq_true ?_⟩
        intro heq
        rcases (hinv.inverse other k).mp hk with ⟨record, hfind, hhash⟩
        rcases (hinv.inverse blockHash height).mp hheight with ⟨record', hfind', hhash'⟩
        rw [heq, hfind'] at hfind
        cases hfind
        exact hnew (hhash'.symm.trans hhash ▸ hother)
      have hlive' : forall other, other ∈ rest ->
          exists k, mid.blockHashToHeight other = some k := by
        intro other hother
        rw [hsame other hother]
        exact hlive other (List.mem_cons_of_mem _ hother)
      rcases ih hkeeps.invariant hrest hlive' with ⟨db', hrun, hkept⟩
      refine ⟨db', hrun.cons hfirst, ?_⟩
      apply (hkeeps.trans hkept).congr
      intro k record _
      rw [Bool.eq_iff_iff, List.filterMap_cons, hheight,
        List.filterMap_congr hsame]
      simp

theorem SameContents.unchanged {db db' : HashTableDb} (h : SameContents db db')
    (xxh64 : List UInt8 -> Nat -> UInt64) : Unchanged xxh64 db db' := by
  have hheader : db'.headerBytes = db.headerBytes := by
    rw [headerBytes, latestHeight, latestBlockHash, h.blockIndex, h.numEntries]
    rfl
  have hpayload : db'.payloadBytes = db.payloadBytes := by
    rw [payloadBytes, hheader, h.blockIndex, h.toPirBytes]
    rfl
  constructor
  · exact h.entries
  · exact h.toPirBytes
  · rw [toSnapshot, snapshotBytes, hpayload]
    rfl
  · exact h.numEntries
  · exact h.blockIndex
  · exact h.blockHashToHeight

theorem Extended.rollback {db db' : HashTableDb} {blocks : List (Nat × LiveBlock)}
    {order : List (ByteVec 32)} (h : Extended db blocks db')
    (horder : order.Perm (blocks.map (fun e => e.2.hash))) :
    exists final, Run RolledBack db' order final ∧ SameContents db final := by
  have hlisted : forall blockHash, blockHash ∈ order ->
      exists e, e ∈ blocks ∧ e.2.hash = blockHash := by
    intro blockHash hmem
    exact List.mem_map.mp (horder.mem_iff.mp hmem)
  have hlive : forall blockHash, blockHash ∈ order ->
      exists height, db'.blockHashToHeight blockHash = some height := by
    intro blockHash hmem
    rcases hlisted blockHash hmem with ⟨e, he, hhash⟩
    exact ⟨e.1, hhash ▸ h.hashes e he⟩
  have hinv := h.invariant.toRepInvariant
  rcases rolledBack_run hinv (horder.nodup_iff.mpr h.distinct) hlive with
    ⟨final, hrun, hkeeps⟩
  refine ⟨final, hrun, h.keeps.unique (hkeeps.congr ?_)⟩
  -- the heights of the hashes rolled back are those of the blocks inserted
  intro height record _
  rw [Bool.eq_iff_iff, decide_eq_true_eq, decide_eq_true_eq, not_iff_not,
    List.mem_filterMap, List.mem_map]
  constructor
  · rintro ⟨e, he, hheight⟩
    refine ⟨e.2.hash, horder.mem_iff.mpr (List.mem_map.mpr ⟨e, he, rfl⟩), ?_⟩
    rw [h.hashes e he, hheight]
  · rintro ⟨blockHash, hmem, hat⟩
    rcases hlisted blockHash hmem with ⟨e, he, hhash⟩
    rw [← hhash, h.hashes e he] at hat
    exact ⟨e, he, Option.some.inj hat⟩

/-- Rolling a block back undoes its insertion, and rolling several blocks back in any
order undoes all of theirs: the PIR bytes, the snapshot, the counter and both indices are
as before. -/
theorem rollback_undoes_insertion {xxh64 : List UInt8 -> Nat -> UInt64} {db : HashTableDb}
    (hinv : ByteInvariant db) :
    (forall height blockHash nullifiers db', db.blockIndex.find? height = none ->
      db.blockHashToHeight blockHash = none ->
      (forall nwm, nwm ∈ nullifiers -> nwm.nullifier ≠ ByteVec.zeros 32) ->
      db.insertBlock height blockHash nullifiers = (db', .ok ()) ->
      exists final, db'.rollbackBlock blockHash = some (final, .ok ()) ∧
        Unchanged xxh64 db final) ∧
    (forall blocks order db', Run FreshInsert db blocks db' ->
      order.Perm (blocks.map (fun e => e.2.hash)) ->
      exists final, Run RolledBack db' order final ∧ Unchanged xxh64 db final) := by
  constructor
  · intro height blockHash nullifiers db' hheight hhash hnonzero hinsert
    have hfresh := freshInsert_of_insertBlock hheight hhash hnonzero hinsert
    have hinv' := hfresh.repInvariant hinv.toRepInvariant
    have hlive := hfresh.blockHashToHeight hinv.toRepInvariant
    rcases hinv'.rollbackBlock hlive with ⟨final, hrollback, hkeeps⟩
    exact ⟨final, hrollback, ((hfresh.keeps hinv).unique hkeeps).unchanged xxh64⟩
  · intro blocks order db' hrun horder
    rcases (extended_of_run hinv hrun).rollback horder with ⟨final, hrollback, hsame⟩
    exact ⟨final, hrollback, hsame.unchanged xxh64⟩

def twoBlocks : List (Nat × LiveBlock) :=
  [(7, { hash := ByteVec.zeros 32, nullifiers := [oneNullifier] }),
    (8, { hash := ByteVec.ofBytes 32 [1], nullifiers := [oneNullifier] })]

/-- The older of two blocks rolled back first. -/
theorem rollback_undoes_insertion_twoBlocks :
    exists db' final, Run FreshInsert new twoBlocks db' ∧
      Run RolledBack db' [ByteVec.zeros 32, ByteVec.ofBytes 32 [1]] final ∧
      Unchanged (fun _ _ => 0) new final := by
  have hnonzero : forall nwm, nwm ∈ [oneNullifier] ->
      nwm.nullifier ≠ ByteVec.zeros 32 := by decide
  let mid := (new.insertBlock 7 (ByteVec.zeros 32) [oneNullifier]).1
  have hfirst : FreshInsert new
      (7, { hash := ByteVec.zeros 32, nullifiers := [oneNullifier] }) mid :=
    freshInsert_of_insertBlock rfl rfl hnonzero rfl
  have hsecond : FreshInsert mid
      (8, { hash := ByteVec.ofBytes 32 [1], nullifiers := [oneNullifier] })
      (mid.insertBlock 8 (ByteVec.ofBytes 32 [1]) [oneNullifier]).1 :=
    freshInsert_of_insertBlock rfl rfl hnonzero rfl
  have hrun : Run FreshInsert new twoBlocks _ := ((Run.nil new).snoc hfirst).snoc hsecond
  have horder : [ByteVec.zeros 32, ByteVec.ofBytes 32 [1]].Perm
      (twoBlocks.map (fun e => e.2.hash)) := List.Perm.refl _
  rcases (rollback_undoes_insertion byteInvariant_new).right twoBlocks _ _ hrun horder with
    ⟨final, hrollback, hsame⟩
  exact ⟨_, final, hrun, hrollback, hsame⟩

/-!
## Bytes left in an empty slot
-/

theorem entries_of_toPirBytes {db db' : HashTableDb} (h : db.toPirBytes = db'.toPirBytes)
    (b : Fin numBuckets) : (db.buckets b).entries = (db'.buckets b).entries := by
  have hleft := readBucket_of_drop_eq (List.drop_zero (l := db.toPirBytes)) b
  have hright := readBucket_of_drop_eq (List.drop_zero (l := db'.toPirBytes)) b
  rw [h, hright] at hleft
  exact (congrArg Bucket.entries hleft).symm

theorem entryAt_of_toPirBytes {db db' : HashTableDb} (h : db.toPirBytes = db'.toPirBytes)
    (slot : Nat × Nat) : entryAt db.buckets slot = entryAt db'.buckets slot := by
  unfold entryAt
  split
  · rw [entries_of_toPirBytes h]
  · rfl

/-- An entry without a nullifier that still has a height. -/
def residueEntry : NullifierEntry := { NullifierEntry.zero with spendHeight := 1 }

/-- A table without blocks whose slots all hold that entry. -/
def residueTable : HashTableDb :=
  { new with buckets := fun _ => { entries := fun _ => residueEntry, count := 0 } }

theorem fitsFields_residueTable : residueTable.FitsFields :=
  { heights := fun _ he => nomatch he
    lengths := fun _ he => nomatch he
    slots := fun _ he => nomatch he
    count := by decide
    blocks := by decide }

theorem fromSnapshot_residueTable (xxh64 : List UInt8 -> Nat -> UInt64) :
    fromSnapshot xxh64 (residueTable.snapshotBytes xxh64) = .ok residueTable.recounted := by
  rw [fromSnapshot_snapshotBytes, fromPayload_payloadBytes fitsFields_residueTable]
  rfl

theorem repInvariant_residueTable : RepInvariant residueTable.recounted := by
  apply repInvariant_of_owned
  · refine ⟨List.nodup_nil, ?_⟩
    intro slot
    have hempty : (entryAt residueTable.recounted.buckets slot).isEmpty = true := by
      unfold entryAt
      split
      · rfl
      · exact NullifierEntry.isEmpty_zero
    rw [hempty]
    constructor
    · intro hmem
      cases hmem
    · intro hfalse
      cases hfalse
  · intro height record hrecord
    cases hrecord
  · rfl
  · exact hashIndexed_empty

/-- The snapshot of that table is accepted, whatever the checksum function, and what it
restores meets the invariant; but rolling back the first block that goes in does not give
the bytes back. -/
theorem rollback_undoes_insertion_residue :
    ¬ exists xxh64 : List UInt8 -> Nat -> UInt64, forall data db,
      fromSnapshot xxh64 data = .ok db -> RepInvariant db ->
      forall height blockHash nullifiers db', db.blockIndex.find? height = none ->
        db.blockHashToHeight blockHash = none ->
        (forall nwm, nwm ∈ nullifiers -> nwm.nullifier ≠ ByteVec.zeros 32) ->
        db.insertBlock height blockHash nullifiers = (db', .ok ()) ->
        exists final, db'.rollbackBlock blockHash = some (final, .ok ()) ∧
          final.toPirBytes = db.toPirBytes := by
  rintro ⟨xxh64, hall⟩
  have hnonzero : forall nwm, nwm ∈ [oneNullifier] ->
      nwm.nullifier ≠ ByteVec.zeros 32 := by decide
  let db' := (residueTable.recounted.insertBlock 7 (ByteVec.zeros 32) [oneNullifier]).1
  have hinsert : residueTable.recounted.insertBlock 7 (ByteVec.zeros 32) [oneNullifier] =
      (db', .ok ()) := rfl
  have hinv := repInvariant_residueTable
  rcases hall _ _ (fromSnapshot_residueTable xxh64) hinv 7 (ByteVec.zeros 32)
    [oneNullifier] db' rfl rfl hnonzero hinsert with ⟨final, hrollback, hbytes⟩
  have hfresh := freshInsert_of_insertBlock rfl rfl hnonzero hinsert
  have hinv' := hfresh.repInvariant hinv
  rcases hinv'.rollbackBlock (hfresh.blockHashToHeight hinv) with ⟨removed, heq, hkeeps⟩
  rw [hrollback] at heq
  cases heq
  rcases insertBlock_spec hinv.owned hnonzero hinsert with
    ⟨slots, hindex, _, _, hholds, howned, _⟩
  rcases List.forall₂_cons_right_iff.mp hholds with ⟨slot, rest, _, _, hslots⟩
  have hfind : db'.blockIndex.find? 7 =
      some { blockHash := ByteVec.zeros 32, slots := slots } := by
    rw [hindex, OrderedMap.find?_insert, if_pos rfl]
  have hlisted : slot ∈ slots := by
    rw [hslots]
    exact List.mem_cons_self
  -- the slot the block took is zero after the rollback, and held the residue before
  have hzero := hkeeps.entryAt_removed hinv' hfind (by simp) hlisted
  have hrange := howned.inRange (List.mem_append_right _ hlisted)
  have hbefore : entryAt residueTable.recounted.buckets slot = residueEntry := by
    rw [entryAt, dif_pos hrange]
    rfl
  rw [entryAt_of_toPirBytes hbytes slot, hbefore] at hzero
  revert hzero
  decide

/-!
## Histories
-/

theorem ByteInvariant.evictOldestBlock {db : HashTableDb} (hinv : ByteInvariant db) :
    exists db' height, db.evictOldestBlock = some (db', height) ∧ ByteInvariant db' := by
  cases hfirst : db.blockIndex.first? with
  | none =>
      refine ⟨db, none, ?_, hinv⟩
      rw [HashTableDb.evictOldestBlock, hfirst]
  | some first =>
      rcases hinv.toRepInvariant.evictOldestBlock hfirst with ⟨db', hevict, hkeeps⟩
      exact ⟨db', some first.1, hevict, hinv.keeps hkeeps⟩

theorem ByteInvariant.rollbackBlock {db db' : HashTableDb} {blockHash : ByteVec 32}
    {result : Except HashTableError Unit} (hinv : ByteInvariant db)
    (h : db.rollbackBlock blockHash = some (db', result)) : ByteInvariant db' := by
  cases hlookup : db.blockHashToHeight blockHash with
  | none =>
      rw [HashTableDb.rollbackBlock, hlookup] at h
      cases h
      exact hinv
  | some height =>
      rcases hinv.toRepInvariant.rollbackBlock hlookup with ⟨rolledBack, heq, hkeeps⟩
      rw [h] at heq
      cases heq
      exact hinv.keeps hkeeps

theorem ByteInvariant.recounted {db : HashTableDb} {live : LiveBlocks}
    (hinv : ByteInvariant db) (hrep : Represents db live) : ByteInvariant db.recounted := by
  refine ⟨repInvariant_of_represents (represents_recounted hrep), ?_⟩
  intro slot hnot
  exact hinv.freeZero slot hnot

theorem byteInvariant_step {xxh64 : List UInt8 -> Nat -> UInt64} {db db' : HashTableDb}
    {live : LiveBlocks} {op : TableOp} (hrep : Represents db live) (hinv : ByteInvariant db)
    (h : TableStep xxh64 db op db') : ByteInvariant db' := by
  cases h with
  | @insertBlock _ height blockHash nullifiers hheight hhash hnonzero hinsert =>
      have hfresh := freshInsert_of_insertBlock hheight hhash hnonzero hinsert
      exact hfresh.byteInvariant hinv
  | rollbackBlock hrollback => exact hinv.rollbackBlock hrollback
  | evictOldestBlock hevict =>
      rcases hinv.evictOldestBlock with ⟨evicted, _, heq, hevicted⟩
      rw [hevict] at heq
      cases heq
      exact hevicted
  | evictToTarget hevict =>
      have hstep : forall db, ByteInvariant db -> db.numEntries > targetSize ->
          exists db' height, db.evictOldestBlock = some (db', height) ∧ ByteInvariant db' :=
        fun _ h _ => h.evictOldestBlock
      rcases evictToTarget_invariant hstep hinv with ⟨evicted, heq, hevicted⟩
      rw [hevict] at heq
      cases heq
      exact hevicted
  | restore hsave hrestore =>
      rw [fromSnapshot_toSnapshot hrep.consistent hsave] at hrestore
      cases hrestore
      exact hinv.recounted hrep

/-- Every table a history leaves has zero entries in its empty slots. -/
theorem byteInvariant_history {xxh64 : List UInt8 -> Nat -> UInt64} {ops : List TableOp}
    {db : HashTableDb} (h : Run (TableStep xxh64) new ops db) : ByteInvariant db := by
  have hstep : forall s op t, ((exists live, Represents s live) ∧ ByteInvariant s) ->
      TableStep xxh64 s op t -> (exists live, Represents t live) ∧ ByteInvariant t := by
    rintro s op t ⟨⟨live, hrep⟩, hinv⟩ hop
    exact ⟨⟨_, represents_step hrep hop⟩, byteInvariant_step hrep hinv hop⟩
  exact (h.invariant hstep ⟨⟨_, represents_new⟩, byteInvariant_new⟩).right

end HashTableDb
end Nullifier
end SpendabilityPir
