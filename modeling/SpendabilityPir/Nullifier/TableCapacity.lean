import SpendabilityPir.Nullifier.TableUndo

/-!
# Capacity of the table

The occupied slots of a bucket are as many as the nullifiers of the live blocks that hash
to it, whatever was rolled back or evicted before.  So a block fits exactly when no bucket
would hold more than its slots.
-/

namespace SpendabilityPir
namespace Nullifier

open Foundation

def hashingTo (b : Fin numBuckets) (nullifiers : List NullifierWithMeta) : Nat :=
  nullifiers.countP (fun nwm => decide (hashToBucket nwm.nullifier = b))

def LiveBlocks.inBucket (live : LiveBlocks) (b : Fin numBuckets) : Nat :=
  (live.entries.map (fun e => hashingTo b e.2.nullifiers)).sum

namespace HashTableDb

/-!
## Occupied slots
-/

/-- The slots of a list that lie in bucket b. -/
def slotsIn (b : Fin numBuckets) (slots : List (Nat × Nat)) : Nat :=
  slots.countP (fun slot => decide (slot.1 = b.val))

theorem Owned.freeSlots_add {buckets : Fin numBuckets -> Bucket}
    {slots : List (Nat × Nat)} (h : Owned buckets slots) (b : Fin numBuckets) :
    (buckets b).freeSlots + slotsIn b slots = bucketCapacity := by
  let free := Finset.univ.filter (fun i => ((buckets b).entries i).isEmpty = true)
  let used := Finset.univ.filter (fun i => ¬ ((buckets b).entries i).isEmpty = true)
  have hall : free.card + used.card = bucketCapacity := by
    have hcard := Finset.card_filter_add_card_filter_not (s := Finset.univ)
      (fun i => ((buckets b).entries i).isEmpty = true)
    rwa [Finset.card_univ, Fintype.card_fin] at hcard
  have hinj : Function.Injective (fun i : Fin bucketCapacity => (b.val, i.val)) := by
    intro i j heq
    exact Fin.ext (congrArg Prod.snd heq)
  -- the used slots of the bucket are the listed ones
  have himage : used.image (fun i => (b.val, i.val)) =
      (slots.filter (fun slot => decide (slot.1 = b.val))).toFinset := by
    apply Finset.ext
    intro slot
    rw [Finset.mem_image, List.mem_toFinset, List.mem_filter, decide_eq_true_eq]
    constructor
    · rintro ⟨i, hi, rfl⟩
      refine ⟨(h.occupied _).mpr ?_, rfl⟩
      rw [entryAt_val]
      simpa [used] using hi
    · rintro ⟨hmem, hb⟩
      have hrange := h.inRange hmem
      refine ⟨⟨slot.2, hrange.right⟩, ?_, Prod.ext hb.symm rfl⟩
      have hoccupied := (h.occupied slot).mp hmem
      have hslot : slot = (b.val, (⟨slot.2, hrange.right⟩ : Fin bucketCapacity).val) :=
        Prod.ext hb rfl
      rw [hslot, entryAt_val] at hoccupied
      simpa [used] using hoccupied
  have hused : used.card = slotsIn b slots := by
    rw [← Finset.card_image_of_injective used hinj, himage,
      List.toFinset_card_of_nodup (h.nodup.filter _), slotsIn, List.countP_eq_length_filter]
  rw [← hused]
  exact hall

theorem slotsIn_of_forall₂ {buckets : Fin numBuckets -> Bucket} {spendHeight : UInt32}
    {slots : List (Nat × Nat)} {nullifiers : List NullifierWithMeta}
    (h : List.Forall₂ (HoldsEntry buckets spendHeight) slots nullifiers)
    (b : Fin numBuckets) : slotsIn b slots = hashingTo b nullifiers := by
  rw [slotsIn, hashingTo]
  induction h with
  | nil => rfl
  | cons hhead _ ih =>
      rw [List.countP_cons, List.countP_cons, ih, hhead.left]
      simp [Fin.ext_iff]

theorem Represents.slotsIn_eq {db : HashTableDb} {live : LiveBlocks}
    (hrep : Represents db live) (b : Fin numBuckets) :
    slotsIn b (slotRefs db.blockIndex) = live.inBucket b := by
  rw [slotsIn, slotRefs, List.countP_flatMap, LiveBlocks.inBucket]
  have hentries := OrderedMap.forall₂_entries hrep.records
  generalize db.blockIndex.entries = records at hentries
  generalize live.entries = blocks at hentries
  induction hentries with
  | nil => rfl
  | cons hhead _ ih =>
      rw [List.map_cons, List.map_cons, List.sum_cons, List.sum_cons, ih]
      congr 1
      exact slotsIn_of_forall₂ hhead.right.right b

theorem Represents.freeSlots_add {db : HashTableDb} {live : LiveBlocks}
    (hrep : Represents db live) (b : Fin numBuckets) :
    (db.buckets b).freeSlots + live.inBucket b = bucketCapacity := by
  rw [← hrep.slotsIn_eq b]
  exact hrep.owned.freeSlots_add b

/-!
## Fitting a block
-/

theorem demand_eq_hashingTo {nullifiers : List NullifierWithMeta}
    (hnonzero : forall nwm, nwm ∈ nullifiers -> nwm.nullifier ≠ ByteVec.zeros 32)
    (b : Fin numBuckets) : demand b nullifiers = hashingTo b nullifiers := by
  apply List.countP_congr
  intro nwm hmem
  simp [takesSlot, hnonzero nwm hmem]

theorem hashingTo_append_singleton (b : Fin numBuckets) (front : List NullifierWithMeta)
    (nwm : NullifierWithMeta) :
    hashingTo b (front ++ [nwm]) =
      hashingTo b front + if hashToBucket nwm.nullifier = b then 1 else 0 := by
  rw [hashingTo, List.countP_append, List.countP_singleton]
  simp [hashingTo]

theorem roomFor_append_singleton {db : HashTableDb} {front : List NullifierWithMeta}
    {nwm : NullifierWithMeta} :
    RoomFor db (front ++ [nwm]) ↔
      RoomFor db front ∧ demand (hashToBucket nwm.nullifier) front <
        (db.buckets (hashToBucket nwm.nullifier)).freeSlots := by
  constructor
  · intro hroom
    refine ⟨?_, hroom front nwm [] rfl⟩
    intro init other back heq
    apply hroom init other (back ++ [nwm])
    rw [heq, List.append_assoc]
    rfl
  · rintro ⟨hroom, hlast⟩ init other back heq
    rcases List.eq_nil_or_concat back with hnil | ⟨back', last, hback⟩
    · rw [hnil] at heq
      rcases List.append_inj' heq rfl with ⟨hfront, hnwm⟩
      cases hnwm
      rwa [hfront] at hlast
    · rw [hback, List.concat_eq_append, ← List.cons_append, ← List.append_assoc] at heq
      rcases List.append_inj' heq rfl with ⟨hfront, _⟩
      exact hroom init other back' hfront

/-- Each nullifier finds a free slot exactly when no bucket is asked for more than it
has. -/
theorem roomFor_iff {db : HashTableDb} {nullifiers : List NullifierWithMeta}
    (hnonzero : forall nwm, nwm ∈ nullifiers -> nwm.nullifier ≠ ByteVec.zeros 32) :
    RoomFor db nullifiers ↔
      forall b, hashingTo b nullifiers ≤ (db.buckets b).freeSlots := by
  induction nullifiers using List.reverseRecOn with
  | nil =>
      constructor
      · intro _ b
        exact Nat.zero_le _
      · intro _
        exact roomFor_nil db
  | append_singleton front nwm ih =>
      have hfront := fun n hn => hnonzero n (List.mem_append_left _ hn)
      rw [roomFor_append_singleton, ih hfront, demand_eq_hashingTo hfront]
      constructor
      · rintro ⟨hall, hlast⟩ b
        rw [hashingTo_append_singleton]
        split
        · next hb =>
            rw [← hb]
            exact hlast
        · exact hall b
      · intro hall
        constructor
        · intro b
          have hb := hall b
          rw [hashingTo_append_singleton] at hb
          exact Nat.le_trans (Nat.le_add_right _ _) hb
        · have hb := hall (hashToBucket nwm.nullifier)
          rwa [hashingTo_append_singleton, if_pos rfl] at hb

/-- After any history, a block of non-zero nullifiers goes in exactly when in each bucket
the live entries and the block's own are at most its capacity, and then no listed slot is
overwritten: rollbacks and evictions cost no capacity. -/
theorem insertBlock_capacity {xxh64 : List UInt8 -> Nat -> UInt64} {ops : List TableOp}
    {db : HashTableDb} (h : Run (TableStep xxh64) new ops db) (height : UInt64)
    (blockHash : ByteVec 32) {nullifiers : List NullifierWithMeta}
    (hnonzero : forall nwm, nwm ∈ nullifiers -> nwm.nullifier ≠ ByteVec.zeros 32) :
    ((exists db', db.insertBlock height.toNat blockHash nullifiers = (db', .ok ())) ↔
      forall b, (LiveBlocks.ofHistory ops).inBucket b + hashingTo b nullifiers ≤
        bucketCapacity) ∧
    (forall db', db.insertBlock height.toNat blockHash nullifiers = (db', .ok ()) ->
      forall slot, slot ∈ slotRefs db.blockIndex ->
        entryAt db'.buckets slot = entryAt db.buckets slot) := by
  have hrep := represents_history h
  constructor
  · rw [insertBlock_ok_iff, roomFor_iff hnonzero]
    apply forall_congr'
    intro b
    have hslots := hrep.freeSlots_add b
    lia
  · intro db' hinsert slot hslot
    rcases insertBlock_spec hrep.owned hnonzero hinsert with
      ⟨slots, _, _, _, _, howned, hframe⟩
    exact hframe slot ((howned.perm List.perm_append_comm).disjoint hslot)

/-- After an insertion and an eviction there is room for one more nullifier. -/
theorem insertBlock_capacity_insertEvict :
    exists db db' : HashTableDb,
      db.insertBlock (8 : UInt64).toNat (ByteVec.ofBytes 32 [1]) [oneNullifier] =
        (db', .ok ()) := by
  have hnonzero : forall nwm, nwm ∈ [oneNullifier] ->
      nwm.nullifier ≠ ByteVec.zeros 32 := by decide
  rcases insertEvict_run (fun _ _ => 0) with ⟨db, hrun⟩
  have hfits : forall b, (LiveBlocks.ofHistory insertEvict).inBucket b +
      hashingTo b [oneNullifier] ≤ bucketCapacity := by
    intro b
    have hone : hashingTo b [oneNullifier] ≤ 1 := List.countP_le_length
    have hlive : (LiveBlocks.ofHistory insertEvict).inBucket b =
        hashingTo b [oneNullifier] := by
      rw [LiveBlocks.inBucket, insertEvict_live]
      rfl
    have hcapacity : bucketCapacity = 112 := rfl
    lia
  rcases (insertBlock_capacity hrun 8 (ByteVec.ofBytes 32 [1]) hnonzero).left.mpr hfits with
    ⟨db', hinsert⟩
  exact ⟨db, db', hinsert⟩

end HashTableDb
end Nullifier
end SpendabilityPir
