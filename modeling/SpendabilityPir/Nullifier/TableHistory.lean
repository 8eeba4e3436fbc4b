import SpendabilityPir.Foundation.Transition
import SpendabilityPir.Nullifier.BucketCapacity
import SpendabilityPir.Nullifier.SpendClient

/-!
# Histories of the nullifier table

Any order of inserting, rolling back, evicting and restoring leaves a table that
represents the live blocks of the history.  From that follow the representation
invariant, panic freedom, and what a client reads from a row.
-/

namespace SpendabilityPir
namespace Nullifier

open Foundation

namespace HashTableDb

/-- A call in a history that adds fresh blocks with non-zero nullifiers and in which
no insertion fails. -/
inductive TableStep (xxh64 : List UInt8 -> Nat -> UInt64) :
    HashTableDb -> TableOp -> HashTableDb -> Prop where
  | insertBlock {db db' : HashTableDb} {height : UInt64} {blockHash : ByteVec 32}
      {nullifiers : List NullifierWithMeta} :
      db.blockIndex.find? height.toNat = none ->
      db.blockHashToHeight blockHash = none ->
      (forall nwm, nwm ∈ nullifiers -> nwm.nullifier ≠ ByteVec.zeros 32) ->
      db.insertBlock height.toNat blockHash nullifiers = (db', .ok ()) ->
      TableStep xxh64 db (.insertBlock height blockHash nullifiers) db'
  | rollbackBlock {db db' : HashTableDb} {blockHash : ByteVec 32}
      {result : Except HashTableError Unit} :
      db.rollbackBlock blockHash = some (db', result) ->
      TableStep xxh64 db (.rollbackBlock blockHash) db'
  | evictOldestBlock {db db' : HashTableDb} {height : Option Nat} :
      db.evictOldestBlock = some (db', height) ->
      TableStep xxh64 db .evictOldestBlock db'
  | evictToTarget {db db' : HashTableDb} :
      db.evictToTarget = some db' -> TableStep xxh64 db .evictToTarget db'
  | restore {db db' : HashTableDb} {data : List UInt8} :
      db.toSnapshot xxh64 = some data -> fromSnapshot xxh64 data = .ok db' ->
      TableStep xxh64 db .restore db'

variable {xxh64 : List UInt8 -> Nat -> UInt64}

theorem represents_step {db db' : HashTableDb} {live : LiveBlocks} {op : TableOp}
    (hrep : Represents db live) (h : TableStep xxh64 db op db') :
    Represents db' (live.apply op) := by
  cases h with
  | insertBlock hheight hhash hnonzero hinsert =>
      exact represents_insertBlock hrep (UInt64.toNat_lt _) hheight hhash hnonzero
        hinsert
  | @rollbackBlock _ blockHash _ hrollback =>
      rcases represents_rollbackBlock hrep blockHash with ⟨_, _, heq, hrep', _⟩
      rw [hrollback] at heq
      cases heq
      exact hrep'
  | evictOldestBlock hevict =>
      rcases represents_evictOldestBlock hrep with ⟨_, _, heq, hrep', _⟩
      rw [hevict] at heq
      cases heq
      exact hrep'
  | evictToTarget hevict =>
      rcases represents_evictToTarget hrep with ⟨_, heq, hrep'⟩
      rw [hevict] at heq
      cases heq
      exact hrep'
  | restore hsave hrestore =>
      rw [fromSnapshot_toSnapshot hrep.consistent hsave] at hrestore
      cases hrestore
      exact represents_recounted hrep

/-- The table after a history represents the blocks the history leaves live. -/
theorem represents_history {ops : List TableOp} {db : HashTableDb}
    (h : Run (TableStep xxh64) new ops db) :
    Represents db (LiveBlocks.ofHistory ops) := by
  have hstep : forall s live op t, Represents s live -> TableStep xxh64 s op t ->
      Represents t (LiveBlocks.apply live op) :=
    fun _ _ _ _ hs hop => represents_step hs hop
  exact h.simulates hstep represents_new

def oneNullifier : NullifierWithMeta :=
  { nullifier := ByteVec.ofBytes 32 [1]
    firstOutputPosition := 4
    actionCount := 2 }

/-- A history that inserts one block and evicts down to the target size. -/
def insertEvict : List TableOp :=
  [.insertBlock 7 (ByteVec.zeros 32) [oneNullifier], .evictToTarget]

theorem insertEvict_run (xxh64 : List UInt8 -> Nat -> UInt64) :
    exists db, Run (TableStep xxh64) new insertEvict db := by
  have hroom : RoomFor new [oneNullifier] := by
    apply roomFor_singleton
    rw [show (new.buckets _).freeSlots = bucketCapacity from Bucket.freeSlots_new]
    decide
  rcases insertBlock_ok_iff.mpr hroom with ⟨mid, hinsert⟩
  have hfirst : TableStep xxh64 new
      (.insertBlock 7 (ByteVec.zeros 32) [oneNullifier]) mid := by
    apply TableStep.insertBlock rfl rfl _ hinsert
    intro other hother
    rw [List.mem_singleton.mp hother]
    decide
  rcases represents_evictToTarget (represents_step represents_new hfirst) with
    ⟨db, hevict, _⟩
  exact ⟨db, ((Run.nil new).snoc hfirst).snoc (TableStep.evictToTarget hevict)⟩

theorem insertEvict_live :
    (LiveBlocks.ofHistory insertEvict).entries =
      [(7, { hash := ByteVec.zeros 32, nullifiers := [oneNullifier] })] := by
  show LiveBlocks.trimEntries targetSize
    [(7, { hash := ByteVec.zeros 32, nullifiers := [oneNullifier] })] = _
  rw [LiveBlocks.trimEntries, if_neg (by decide)]

/-!
## The representation invariant
-/

/-- The four structures of a table agree with each other. -/
structure RepInvariant (db : HashTableDb) : Prop where
  distinct : (slotRefs db.blockIndex).Nodup
  inRange : forall slot, slot ∈ slotRefs db.blockIndex ->
    slot.1 < numBuckets ∧ slot.2 < bucketCapacity
  occupied : forall (b : Fin numBuckets) (i : Fin bucketCapacity),
    (b.val, i.val) ∈ slotRefs db.blockIndex ↔
      ((db.buckets b).entries i).isEmpty = false
  owner : forall height record, db.blockIndex.find? height = some record ->
    forall slot, slot ∈ record.slots ->
      (hashToBucket (entryAt db.buckets slot).nullifier).val = slot.1 ∧
      (entryAt db.buckets slot).spendHeight.toNat = height % 2 ^ 32
  count : db.numEntries = (slotRefs db.blockIndex).length
  noUnderflow : forall height record, db.blockIndex.find? height = some record ->
    record.slots.length ≤ db.numEntries
  inverse : forall blockHash height,
    db.blockHashToHeight blockHash = some height ↔
      exists record, db.blockIndex.find? height = some record ∧
        record.blockHash = blockHash

theorem RepInvariant.owned {db : HashTableDb} (h : RepInvariant db) :
    Owned db.buckets (slotRefs db.blockIndex) := by
  refine ⟨h.distinct, ?_⟩
  intro slot
  constructor
  · intro hslot
    rcases h.inRange slot hslot with ⟨hbucket, hidx⟩
    have hoccupied := (h.occupied ⟨slot.1, hbucket⟩ ⟨slot.2, hidx⟩).mp hslot
    rwa [← entryAt_val] at hoccupied
  · intro hoccupied
    rcases inRange_of_entryAt_nonempty hoccupied with ⟨hbucket, hidx⟩
    rw [entryAt, dif_pos ⟨hbucket, hidx⟩] at hoccupied
    exact (h.occupied ⟨slot.1, hbucket⟩ ⟨slot.2, hidx⟩).mpr hoccupied

theorem repInvariant_of_represents {db : HashTableDb} {live : LiveBlocks}
    (hrep : Represents db live) : RepInvariant db := by
  constructor
  · exact hrep.owned.nodup
  · intro slot hslot
    exact hrep.owned.inRange hslot
  · intro b i
    rw [hrep.owned.occupied, entryAt_val]
  · intro height record hrecord slot hslot
    rcases hrep.holds hrecord with ⟨block, _, hholds⟩
    rcases exists_right_of_forall₂ hholds.right hslot with ⟨nwm, _, hbucket, hentry⟩
    rw [hentry]
    exact ⟨hbucket.symm, UInt32.toNat_ofNat⟩
  · exact hrep.count
  · intro height record hrecord
    exact hrep.consistent.slots_length_le (e := (height, record))
      (OrderedMap.mem_entries_iff.mpr hrecord)
  · exact hrep.hashes

/-- Every history keeps the representation invariant; no removal panics, and a
rollback fails exactly on a hash that is not live, changing nothing. -/
theorem representation_invariant {ops : List TableOp} {db : HashTableDb}
    (h : Run (TableStep xxh64) new ops db) :
    RepInvariant db ∧
    (forall blockHash, exists db' result,
      db.rollbackBlock blockHash = some (db', result) ∧
      ((exists e, result = .error e) ↔
        ¬ (LiveBlocks.ofHistory ops).ContainsHash blockHash) ∧
      ((exists e, result = .error e) -> db' = db)) ∧
    (exists db' height, db.evictOldestBlock = some (db', height)) ∧
    (exists db', db.evictToTarget = some db') := by
  have hrep := represents_history h
  refine ⟨repInvariant_of_represents hrep, ?_, ?_, ?_⟩
  · intro blockHash
    rcases represents_rollbackBlock hrep blockHash with
      ⟨db', result, hrollback, _, hok, hsame⟩
    have hfail : (exists e, result = .error e) ↔
        ¬ (LiveBlocks.ofHistory ops).ContainsHash blockHash := by
      rw [← hok]
      cases result with
      | error e => simp
      | ok u => simp
    exact ⟨db', result, hrollback, hfail, fun he => hsame (hfail.mp he)⟩
  · rcases represents_evictOldestBlock hrep with ⟨db', height, hevict, _⟩
    exact ⟨db', height, hevict⟩
  · rcases represents_evictToTarget hrep with ⟨db', hevict, _⟩
    exact ⟨db', hevict⟩

/-- After one insertion and an eviction, another hash cannot be rolled back. -/
theorem representation_invariant_insertEvict :
    exists db e, RepInvariant db ∧
      db.rollbackBlock (ByteVec.ofBytes 32 [1]) = some (db, .error e) := by
  rcases insertEvict_run (fun _ _ => 0) with ⟨db, hrun⟩
  rcases representation_invariant hrun with ⟨hinv, hrollback, _, _⟩
  rcases hrollback (ByteVec.ofBytes 32 [1]) with ⟨db', result, heq, hfail, hsame⟩
  have hdead : ¬ (LiveBlocks.ofHistory insertEvict).ContainsHash
      (ByteVec.ofBytes 32 [1]) := by
    rintro ⟨height, block, hfind, hhash⟩
    have hmem := OrderedMap.mem_entries_iff.mpr hfind
    rw [insertEvict_live, List.mem_singleton] at hmem
    cases hmem
    exact absurd hhash (by decide)
  rcases hfail.mpr hdead with ⟨e, he⟩
  rw [hsame ⟨e, he⟩, he] at heq
  exact ⟨db, e, hinv, heq⟩

/-!
## Lookup
-/

/-- What a client reads from the row of a nullifier's bucket is what the live blocks
of the history say about the nullifier. -/
theorem lookup_sound_and_complete {ops : List TableOp} {db : HashTableDb}
    (h : Run (TableStep xxh64) new ops db) (nf : ByteVec 32)
    (hnf : nf ≠ ByteVec.zeros 32) :
    let live := LiveBlocks.ofHistory ops
    let row := slice db.toPirBytes ((hashToBucket nf).val * bucketBytes) bucketBytes
    row.length = bucketBytes ∧
    ((scanBucketForNf row nf).isSome = true ↔ live.ContainsNullifier nf) ∧
    (db.contains nf = true ↔ live.ContainsNullifier nf) ∧
    (forall metadata, scanBucketForNf row nf = some metadata ->
      exists height nwm, live.Inserted height nwm ∧ nwm.nullifier = nf ∧
        metadata.spendHeight.toNat = height % 2 ^ 32 ∧
        metadata.firstOutputPosition = nwm.firstOutputPosition ∧
        metadata.actionCount = nwm.actionCount) := by
  have hrep := represents_history h
  intro live row
  have hrow : row = bucketPirBytes (db.buckets (hashToBucket nf)) :=
    slice_toPirBytes db (hashToBucket nf)
  rw [hrow]
  refine ⟨length_bucketPirBytes _, ?_, ?_, ?_⟩
  · rw [scanBucketForNf_isSome_iff]
    exact hrep.contains_iff hnf
  · rw [HashTableDb.contains_iff]
    exact hrep.contains_iff hnf
  · intro metadata hscan
    rcases hrep.inserted_of_scan hnf hscan with ⟨height, nwm, hlive, hi, hmeta⟩
    rw [hmeta]
    exact ⟨height, nwm, hlive, hi, UInt32.toNat_ofNat, rfl, rfl⟩

/-- The client finds the one nullifier of the history above, and no other. -/
theorem lookup_insertEvict :
    exists db : HashTableDb,
      (scanBucketForNf (slice db.toPirBytes
        ((hashToBucket oneNullifier.nullifier).val * bucketBytes) bucketBytes)
          oneNullifier.nullifier).isSome = true ∧
      db.contains (ByteVec.ofBytes 32 [2]) = false := by
  rcases insertEvict_run (fun _ _ => 0) with ⟨db, hrun⟩
  rcases lookup_sound_and_complete hrun oneNullifier.nullifier (by decide) with
    ⟨_, hscan, _, _⟩
  rcases lookup_sound_and_complete hrun (ByteVec.ofBytes 32 [2]) (by decide) with
    ⟨_, _, hcontains, _⟩
  refine ⟨db, hscan.mpr ?_, ?_⟩
  · have hlive : (LiveBlocks.ofHistory insertEvict).find? 7 =
        some { hash := ByteVec.zeros 32, nullifiers := [oneNullifier] } := by
      apply OrderedMap.mem_entries_iff.mp
      rw [insertEvict_live]
      exact List.mem_singleton.mpr rfl
    exact ⟨7, oneNullifier, ⟨_, hlive, List.mem_singleton.mpr rfl⟩, rfl⟩
  · rw [← Bool.not_eq_true, hcontains]
    rintro ⟨height, nwm, ⟨block, hfind, hmem⟩, hnf⟩
    have hentry := OrderedMap.mem_entries_iff.mpr hfind
    rw [insertEvict_live, List.mem_singleton] at hentry
    cases hentry
    rw [List.mem_singleton.mp hmem] at hnf
    exact absurd hnf (by decide)

end HashTableDb
end Nullifier
end SpendabilityPir
