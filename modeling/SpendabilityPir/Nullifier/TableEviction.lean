import Mathlib.Algebra.GroupWithZero.Nat
import SpendabilityPir.Nullifier.TableCapacity

/-!
# What eviction removes

The eviction loop watches the entry counter and removes whole blocks.  As the counter
counts the listed slots, it drops the shortest prefix of the blocks whose removal
brings the total to the target size, and nothing else.
-/

namespace SpendabilityPir
namespace Nullifier

open Foundation

namespace HashTableDb

def totalSlots (entries : List (Nat × BlockRecord)) : Nat :=
  (entries.map (fun e => e.2.slots.length)).sum

theorem length_slotRefs (index : OrderedMap Nat BlockRecord) :
    (slotRefs index).length = totalSlots index.entries := by
  rw [slotRefs, List.length_flatMap, totalSlots]

theorem RepInvariant.len_eq {db : HashTableDb} (h : RepInvariant db) :
    db.len = totalSlots db.blockIndex.entries := by
  rw [← length_slotRefs]
  exact h.count

/-- The blocks a run of the eviction loop drops and keeps. -/
structure Evicted (db : HashTableDb) (dropped kept : List (Nat × BlockRecord))
    (db' : HashTableDb) : Prop where
  split : db.blockIndex.entries = dropped ++ kept
  entries : db'.blockIndex.entries = kept
  keeps : Keeps db (fun height => decide (height ∉ dropped.map Prod.fst)) db'
  fits : totalSlots kept ≤ targetSize
  shortest : forall front back, db.blockIndex.entries = front ++ back ->
    front.length < dropped.length -> targetSize < totalSlots back

theorem RepInvariant.evicted_nil {db : HashTableDb} (h : RepInvariant db)
    (hle : db.numEntries ≤ targetSize) : Evicted db [] db.blockIndex.entries db := by
  constructor
  · rfl
  · rfl
  · apply h.keeps_self
    simp
  · rw [← h.len_eq]
    exact hle
  · intro front back _ hlt
    cases hlt

/-- Evicting the oldest block and then running the loop drops that block too. -/
theorem Evicted.cons {db mid db' : HashTableDb} {first : Nat × BlockRecord}
    {rest dropped kept : List (Nat × BlockRecord)} (hinv : RepInvariant db)
    (hentries : db.blockIndex.entries = first :: rest) (hgt : db.numEntries > targetSize)
    (hmid : mid.blockIndex.entries = rest)
    (hkeeps : Keeps db (fun height => decide (height ≠ first.1)) mid)
    (h : Evicted mid dropped kept db') : Evicted db (first :: dropped) kept db' := by
  have hrest : rest = dropped ++ kept := hmid.symm.trans h.split
  constructor
  · rw [hentries, hrest]
    rfl
  · exact h.entries
  · apply (hkeeps.trans h.keeps).congr
    intro height record _
    rw [Bool.eq_iff_iff]
    simp
  · exact h.fits
  · intro front back hsplit hlt
    cases front with
    | nil =>
        rw [List.nil_append] at hsplit
        rw [← hsplit, ← hinv.len_eq]
        exact hgt
    | cons e front =>
        rw [hentries, List.cons_append] at hsplit
        cases hsplit
        exact h.shortest front back hmid (Nat.lt_of_succ_lt_succ hlt)

/-- The loop ends at the target, having dropped the shortest prefix that does. -/
theorem RepInvariant.evictToTarget {db : HashTableDb} (h : RepInvariant db) :
    exists dropped kept db', db.evictToTarget = some db' ∧ Evicted db dropped kept db' := by
  induction hentries : db.blockIndex.entries generalizing db with
  | nil =>
      have hle : db.numEntries ≤ targetSize := by
        have hlen := h.len_eq
        rw [hentries] at hlen
        change db.numEntries = 0 at hlen
        rw [hlen]
        exact Nat.zero_le _
      exact ⟨[], _, db, evictToTarget_of_le hle, h.evicted_nil hle⟩
  | cons first rest ih =>
      by_cases hgt : db.numEntries > targetSize
      · have hfirst : db.blockIndex.first? = some first := by
          rw [OrderedMap.first?, hentries]
          rfl
        rcases h.evictOldestBlock hfirst with ⟨mid, hevict, hkeeps⟩
        have hmid : mid.blockIndex.entries = rest := by
          rw [hkeeps.index, ← OrderedMap.erase_eq_filterKeys]
          exact OrderedMap.entries_erase_first hentries
        rcases ih hkeeps.invariant hmid with ⟨dropped, kept, db', hloop, hevicted⟩
        refine ⟨first :: dropped, kept, db', ?_, ?_⟩
        · rw [evictToTarget_of_gt hgt, hevict]
          exact hloop
        · exact hevicted.cons h hentries hgt hmid hkeeps
      · have hle := Nat.le_of_not_gt hgt
        exact ⟨[], _, db, evictToTarget_of_le hle, h.evicted_nil hle⟩

theorem Evicted.len_le {db db' : HashTableDb} {dropped kept : List (Nat × BlockRecord)}
    (h : Evicted db dropped kept db') : db'.len ≤ targetSize := by
  rw [h.keeps.invariant.len_eq, h.entries]
  exact h.fits

theorem Evicted.not_mem_dropped {db db' : HashTableDb}
    {dropped kept : List (Nat × BlockRecord)} (h : Evicted db dropped kept db')
    {e : Nat × BlockRecord} (hkept : e ∈ kept) : e.1 ∉ dropped.map Prod.fst := by
  have hsorted := db.blockIndex.sorted
  rw [h.split] at hsorted
  have hcross := (List.pairwise_append.mp hsorted).right.right
  intro hmem
  rcases List.mem_map.mp hmem with ⟨other, hother, hsame⟩
  have hlt := hcross other hother e hkept
  lia

theorem Evicted.find?_of_mem {db db' : HashTableDb}
    {dropped kept : List (Nat × BlockRecord)} (h : Evicted db dropped kept db')
    {e : Nat × BlockRecord} (hmem : e ∈ dropped ++ kept) :
    db.blockIndex.find? e.1 = some e.2 := by
  rw [← h.split] at hmem
  exact OrderedMap.mem_entries_iff.mp hmem

theorem Evicted.blockHashToHeight {db db' : HashTableDb}
    {dropped kept : List (Nat × BlockRecord)} (hinv : RepInvariant db)
    (h : Evicted db dropped kept db') (blockHash : ByteVec 32) :
    db'.blockHashToHeight blockHash =
      if blockHash ∈ dropped.map (fun e => e.2.blockHash) then none
      else db.blockHashToHeight blockHash := by
  apply Option.ext
  intro height
  rw [h.keeps.blockHashToHeight_iff hinv]
  split
  · next hgone =>
      rcases List.mem_map.mp hgone with ⟨e, he, rfl⟩
      have hfind := h.find?_of_mem (List.mem_append_left kept he)
      have hat := (hinv.inverse e.2.blockHash e.1).mpr ⟨e.2, hfind, rfl⟩
      rw [hat]
      constructor
      · rintro ⟨hheight, hkept⟩
        cases hheight
        have hdropped := List.mem_map_of_mem (f := Prod.fst) he
        simp [hdropped] at hkept
      · intro hfalse
        cases hfalse
  · next hlive =>
      constructor
      · exact fun hheight => hheight.left
      · intro hheight
        refine ⟨hheight, ?_⟩
        rcases (hinv.inverse blockHash height).mp hheight with ⟨record, hfind, hhash⟩
        apply decide_eq_true
        intro hmem
        rcases List.mem_map.mp hmem with ⟨e, he, hsame⟩
        have hfind' := h.find?_of_mem (List.mem_append_left kept he)
        rw [hsame, hfind] at hfind'
        cases hfind'
        exact hlive (List.mem_map.mpr ⟨e, he, hhash⟩)

theorem Evicted.dropped_prefix {db db' : HashTableDb}
    {dropped kept : List (Nat × BlockRecord)} (h : Evicted db dropped kept db')
    {front back : List (Nat × BlockRecord)} (hsplit : db.blockIndex.entries = front ++ back)
    (hfits : totalSlots back ≤ targetSize) : dropped <+: front := by
  have hdropped : dropped <+: db.blockIndex.entries := ⟨kept, h.split.symm⟩
  have hfront : front <+: db.blockIndex.entries := ⟨back, hsplit.symm⟩
  apply List.prefix_of_prefix_length_le hdropped hfront
  by_contra hlt
  have hover := h.shortest front back hsplit (Nat.lt_of_not_le hlt)
  lia

/-- Eviction removes exactly the oldest blocks needed: the shortest prefix that brings
the total to the target, its slots and its entries in both indices, and no other. -/
theorem evictToTarget_exact {db : HashTableDb} (hinv : RepInvariant db) :
    exists dropped kept db',
      db.evictToTarget = some db' ∧ RepInvariant db' ∧ db'.len ≤ targetSize ∧
      db.blockIndex.entries = dropped ++ kept ∧ totalSlots kept ≤ targetSize ∧
      (forall front back, db.blockIndex.entries = front ++ back ->
        totalSlots back ≤ targetSize -> dropped <+: front) ∧
      (forall e, e ∈ kept -> forall slot, slot ∈ e.2.slots ->
        entryAt db'.buckets slot = entryAt db.buckets slot) ∧
      (forall e, e ∈ dropped -> forall slot, slot ∈ e.2.slots ->
        (entryAt db'.buckets slot).isEmpty = true) ∧
      db'.blockIndex.entries = kept ∧
      (forall blockHash, db'.blockHashToHeight blockHash =
        if blockHash ∈ dropped.map (fun e => e.2.blockHash) then none
        else db.blockHashToHeight blockHash) ∧
      db'.evictToTarget = some db' := by
  rcases hinv.evictToTarget with ⟨dropped, kept, db', hloop, hevicted⟩
  have hkeeps := hevicted.keeps
  refine ⟨dropped, kept, db', hloop, hkeeps.invariant, hevicted.len_le, hevicted.split,
    hevicted.fits, ?_, ?_, ?_, hevicted.entries, hevicted.blockHashToHeight hinv, ?_⟩
  · intro front back hsplit hfits
    exact hevicted.dropped_prefix hsplit hfits
  · intro e he slot hslot
    have hfind := hevicted.find?_of_mem (List.mem_append_right dropped he)
    exact hkeeps.entryAt_kept hfind (decide_eq_true (hevicted.not_mem_dropped he)) hslot
  · intro e he slot hslot
    have hfind := hevicted.find?_of_mem (List.mem_append_left kept he)
    have hgone : decide (e.1 ∉ dropped.map Prod.fst) = false :=
      decide_eq_false (not_not_intro (List.mem_map.mpr ⟨e, he, rfl⟩))
    rw [hkeeps.entryAt_removed hinv hfind hgone hslot]
    exact NullifierEntry.isEmpty_zero
  · exact evictToTarget_of_le hevicted.len_le

/-!
## A table above the target
-/

def rowNullifier (b : Fin numBuckets) : NullifierWithMeta :=
  { nullifier := ⟨leBytes 4 b.val ++ leBytes 28 1, by simp⟩
    firstOutputPosition := 0
    actionCount := 1 }

def fullRow : List NullifierWithMeta := (List.finRange numBuckets).map rowNullifier

def rowHash (i : Nat) : ByteVec 32 := ⟨leBytes 32 i, length_leBytes 32 i⟩

def rowBlock (i : Nat) : Nat × LiveBlock := (i, { hash := rowHash i, nullifiers := fullRow })

theorem hashToBucket_rowNullifier (b : Fin numBuckets) :
    hashToBucket (rowNullifier b).nullifier = b := by
  have hslice : slice (leBytes 4 b.val ++ leBytes 28 1) 0 4 = leBytes 4 b.val := by
    rw [slice, List.drop_zero, List.take_append_of_le_length (by simp),
      List.take_of_length_le (by simp)]
  have hsmall : b.val < 256 ^ 4 := Nat.lt_trans b.isLt (by decide)
  apply Fin.ext
  show leNat (slice (leBytes 4 b.val ++ leBytes 28 1) 0 4) % numBuckets = b.val
  rw [hslice, leNat_leBytes hsmall, Nat.mod_eq_of_lt b.isLt]

theorem rowNullifier_ne_zeros (b : Fin numBuckets) :
    (rowNullifier b).nullifier ≠ ByteVec.zeros 32 := by
  intro heq
  have hlast := congrArg (fun nf : ByteVec 32 => nf.toList.drop 4) heq
  change (leBytes 4 b.val ++ leBytes 28 1).drop 4 = (ByteVec.zeros 32).toList.drop 4 at hlast
  rw [List.drop_append_of_le_length (by simp), List.drop_of_length_le (by simp)] at hlast
  revert hlast
  decide

theorem nonzero_fullRow : forall nwm, nwm ∈ fullRow -> nwm.nullifier ≠ ByteVec.zeros 32 := by
  intro nwm hmem
  rcases List.mem_map.mp hmem with ⟨b, _, heq⟩
  rw [← heq]
  exact rowNullifier_ne_zeros b

theorem hashingTo_fullRow (b : Fin numBuckets) : hashingTo b fullRow = 1 := by
  have hcount : hashingTo b fullRow = (List.finRange numBuckets).count b := by
    rw [hashingTo, fullRow, List.countP_map, List.count]
    apply List.countP_congr
    intro i _
    simp [hashToBucket_rowNullifier]
  rw [hcount]
  exact List.count_eq_one_of_mem (List.nodup_finRange _) (List.mem_finRange b)

theorem rowHash_injective {i j : Nat} (hi : i < 2 ^ 32) (hj : j < 2 ^ 32)
    (h : rowHash i = rowHash j) : i = j := by
  have hnumbers := congrArg (fun hash : ByteVec 32 => leNat hash.toList) h
  change leNat (leBytes 32 i) = leNat (leBytes 32 j) at hnumbers
  rw [leNat_leBytes (by lia), leNat_leBytes (by lia)] at hnumbers
  exact hnumbers

/-- The first n of these blocks are in the table. -/
structure FullRows (n : Nat) (db : HashTableDb) : Prop where
  run : Run FreshInsert new ((List.range n).map rowBlock) db
  invariant : RepInvariant db
  sizes : db.blockIndex.entries.map (fun e => (e.1, e.2.slots.length)) =
    (List.range n).map (fun i => (i, numBuckets))
  hashes : forall i, n ≤ i -> i < 2 ^ 32 -> db.blockHashToHeight (rowHash i) = none
  free : forall b, (db.buckets b).freeSlots + n = bucketCapacity

theorem fullRows_zero : FullRows 0 new where
  run := Run.nil new
  invariant := repInvariant_of_represents represents_new
  sizes := rfl
  hashes _ _ _ := rfl
  free _ := Bucket.freeSlots_new

theorem FullRows.height_lt {n : Nat} {db : HashTableDb} (h : FullRows n db)
    {e : Nat × BlockRecord} (he : e ∈ db.blockIndex.entries) : e.1 < n := by
  have hmem := List.mem_map_of_mem (f := fun e => (e.1, e.2.slots.length)) he
  rw [h.sizes] at hmem
  rcases List.mem_map.mp hmem with ⟨i, hi, heq⟩
  rw [← congrArg Prod.fst heq]
  exact List.mem_range.mp hi

theorem FullRows.succ {n : Nat} {db : HashTableDb} (h : FullRows n db)
    (hn : n < bucketCapacity) : exists db', FullRows (n + 1) db' := by
  have hsmall : n < 2 ^ 32 := Nat.lt_trans hn (by decide)
  have hroom : RoomFor db fullRow := by
    rw [roomFor_iff nonzero_fullRow]
    intro b
    have hfree := h.free b
    rw [hashingTo_fullRow]
    lia
  have hheight : db.blockIndex.find? n = none := by
    cases hfind : db.blockIndex.find? n with
    | none => rfl
    | some record =>
        exact absurd (h.height_lt (OrderedMap.mem_entries_iff.mpr hfind)) (Nat.lt_irrefl n)
  have haccepted : exists db', db.insertBlock n (rowHash n) fullRow = (db', .ok ()) :=
    insertBlock_ok_iff.mpr hroom
  rcases haccepted with ⟨db', hinsert⟩
  have hhash := h.hashes n (Nat.le_refl n) hsmall
  have hfresh : FreshInsert db (rowBlock n) db' :=
    freshInsert_of_insertBlock hheight hhash nonzero_fullRow hinsert
  rcases insertBlock_spec h.invariant.owned nonzero_fullRow hinsert with
    ⟨slots, hindex, hhashes, _, hholds, howned, _⟩
  have hlength : slots.length = numBuckets := by
    rw [hholds.length_eq, fullRow, List.length_map, List.length_finRange]
  refine ⟨db', ?_, hfresh.repInvariant h.invariant, ?_, ?_, ?_⟩
  · rw [List.range_succ, List.map_append]
    exact h.run.snoc hfresh
  · rw [hindex, OrderedMap.insert_entries_of_lt _ (fun e he => h.height_lt he),
      List.map_append, h.sizes, List.range_succ, List.map_append, List.map_singleton,
      List.map_singleton, hlength]
  · intro i hi hlt
    have hne : rowHash i ≠ rowHash n := by
      intro heq
      have hsame := rowHash_injective hlt hsmall heq
      lia
    rw [hhashes, Function.update_of_ne hne]
    exact h.hashes i (by lia) hlt
  · intro b
    have hperm := slotRefs_insert_perm { blockHash := rowHash n, slots := slots } hheight
    rw [← hindex] at hperm
    have hbefore := h.invariant.owned.freeSlots_add b
    have hafter := (howned.perm hperm.symm).freeSlots_add b
    have htaken : slotsIn b (slotRefs db'.blockIndex) =
        slotsIn b (slotRefs db.blockIndex) + 1 := by
      rw [slotsIn, hperm.countP_eq, List.countP_append, ← hashingTo_fullRow b,
        ← slotsIn_of_forall₂ hholds b]
      rfl
    have hfree := h.free b
    lia

theorem exists_fullRows {n : Nat} (hn : n ≤ bucketCapacity) : exists db, FullRows n db := by
  induction n with
  | zero => exact ⟨new, fullRows_zero⟩
  | succ n ih =>
      rcases ih (Nat.le_of_succ_le hn) with ⟨db, h⟩
      exact h.succ hn

theorem totalSlots_of_sizes {entries : List (Nat × BlockRecord)} {heights : List Nat}
    (h : entries.map (fun e => (e.1, e.2.slots.length)) =
      heights.map (fun i => (i, numBuckets))) :
    totalSlots entries = heights.length * numBuckets := by
  have hsizes := congrArg (List.map Prod.snd) h
  rw [List.map_map, List.map_map] at hsizes
  have hslots : entries.map (fun e => e.2.slots.length) =
      List.replicate heights.length numBuckets := by
    rw [← List.map_const']
    exact hsizes
  rw [totalSlots, hslots, List.sum_replicate_nat]

theorem FullRows.entries_eq {n : Nat} {db : HashTableDb} (h : FullRows (n + 1) db) :
    exists record rest, db.blockIndex.entries = (0, record) :: rest ∧
      rest.map (fun e => (e.1, e.2.slots.length)) =
        (List.range' 1 n).map (fun i => (i, numBuckets)) := by
  have hsizes := h.sizes
  rw [List.range_eq_range', List.range'_succ, List.map_cons] at hsizes
  rcases List.map_eq_cons_iff.mp hsizes with ⟨first, rest, hentries, hfirst, hrest⟩
  have hzero : first.1 = 0 := congrArg Prod.fst hfirst
  refine ⟨first.2, rest, ?_, hrest⟩
  rw [hentries, ← hzero]

/-- Of 62 blocks with a nullifier in every bucket, eviction removes the oldest. -/
theorem evictToTarget_exact_fullRows :
    exists db db', Run FreshInsert new ((List.range 62).map rowBlock) db ∧
      db.len = 62 * numBuckets ∧ targetSize < db.len ∧ db.evictToTarget = some db' ∧
      db'.len = 61 * numBuckets ∧ db'.earliestHeight = some 1 := by
  rcases exists_fullRows (n := 62) (by decide) with ⟨db, h⟩
  rcases h.entries_eq with ⟨record, rest, hblocks, hrest⟩
  have hlen : db.len = 62 * numBuckets := by
    rw [h.invariant.len_eq, totalSlots_of_sizes h.sizes, List.length_range]
  have hkeptSlots : totalSlots rest = 61 * numBuckets := by
    rw [totalSlots_of_sizes hrest, List.length_range']
  have hover : targetSize < db.len := by
    rw [hlen]
    decide
  rcases evictToTarget_exact h.invariant with
    ⟨dropped, kept, db', hloop, hinv, _, hsplit, hfits, hshortest, _, _, hentries, _⟩
  have hfirst : dropped <+: [(0, record)] := by
    apply hshortest [(0, record)] rest hblocks
    rw [hkeptSlots]
    decide
  have hdropped : dropped = [(0, record)] := by
    rcases List.prefix_cons_iff.mp hfirst with hnil | ⟨front, hfront, hempty⟩
    · rw [hnil, List.nil_append] at hsplit
      rw [h.invariant.len_eq, hsplit] at hover
      lia
    · rw [hfront, List.prefix_nil.mp hempty]
  rw [hdropped, hblocks, List.singleton_append, List.cons.injEq] at hsplit
  rw [← hsplit.right] at hentries
  rw [List.range'_succ, List.map_cons] at hrest
  rcases List.map_eq_cons_iff.mp hrest with ⟨next, later, hlater, hnext, _⟩
  have hone : next.1 = 1 := congrArg Prod.fst hnext
  refine ⟨db, db', h.run, hlen, hover, hloop, ?_, ?_⟩
  · rw [hinv.len_eq, hentries, hkeptSlots]
  · rw [earliestHeight, OrderedMap.first?, hentries, hlater, ← hone]
    rfl

end HashTableDb
end Nullifier
end SpendabilityPir
