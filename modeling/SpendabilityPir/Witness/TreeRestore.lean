import Mathlib.Algebra.BigOperators.Group.List.Basic
import SpendabilityPir.Witness.TreeSnapshot

/-!
# Restoring a saved tree

Each reader gives back what its writer wrote and stops where the next field starts.
A tree that fits in memory restores to itself if its block records account for its
leaves, and is refused if they do not.
-/

namespace SpendabilityPir
namespace Witness

open Foundation

namespace CommitmentTreeDb

/-- The vectors of the tree and its snapshot can be allocated, and its integers are in
the range of their types. -/
structure InMemory (t : CommitmentTreeDb) : Prop where
  blocks : blockRecordMemSize * t.blocks.length ≤ maxVecLen
  prefetched : 32 * t.prefetchedShardRoots.length ≤ maxVecLen
  leaves : 32 * t.leaves.length ≤ maxVecLen
  snapshot : t.payloadV3.length ≤ maxVecLen
  heights : forall block, block ∈ t.blocks -> block.height < 2 ^ 64
  counts : forall block, block ∈ t.blocks -> block.numCommitments < 2 ^ 32
  size : t.treeSize < 2 ^ 64

def totalCommitments (t : CommitmentTreeDb) : Nat :=
  (t.blocks.map BlockRecord.numCommitments).sum

theorem readU64_of_drop_eq {payload rest : List UInt8} {pos x : Nat}
    (h : payload.drop pos = leBytes 8 x ++ rest) (hx : x < 2 ^ 64) :
    readU64 payload pos = .ok (x, pos + 8) := by
  have hback : leNat (leBytes 8 x) = x := leNat_leBytes hx
  rw [readU64, bytesAt?_of_drop_eq h (length_leBytes 8 x)]
  show (Except.ok (leNat (leBytes 8 x), pos + 8) : Outcome TreeError _) = _
  rw [hback]

theorem sliceAt_of_drop_eq {n : Nat} {payload front rest : List UInt8} {pos : Nat}
    (h : payload.drop pos = front ++ rest) (hn : front.length = n) :
    sliceAt n payload pos = .ok (ByteVec.ofBytes n front) := by
  have hbytes : (⟨front, hn⟩ : ByteVec n) = ByteVec.ofBytes n front :=
    List.Vector.eq _ _ (ByteVec.toList_ofBytes hn).symm
  rw [sliceAt, bytesAt?_of_drop_eq h hn, hbytes]
  rfl

theorem withCapacity_of_le {elementSize count : Nat}
    (h : elementSize * count ≤ maxVecLen) : withCapacity elementSize count = .ok () :=
  if_pos h

theorem le_length_of_drop_eq {payload front rest : List UInt8} {pos : Nat}
    (h : payload.drop pos = front ++ rest) (hpos : pos ≤ payload.length) :
    pos + front.length ≤ payload.length := by
  have hlength := congrArg List.length h
  rw [List.length_drop, List.length_append] at hlength
  lia

theorem checkEnd_of_le (mode : Arithmetic) {payload : List UInt8}
    {pos count size : Nat} {reason : String}
    (h : pos + count * size ≤ payload.length) (hmax : payload.length ≤ maxVecLen) :
    checkEnd mode payload pos count size reason = .ok () := by
  have hbound : maxVecLen < 2 ^ 64 := by decide
  have hmul : (mode.mul 64 count size : Outcome TreeError Nat) = .ok (count * size) :=
    mode.mul_of_lt (by lia)
  have hadd : (mode.add 64 pos (count * size) : Outcome TreeError Nat) =
      .ok (pos + count * size) :=
    mode.add_of_lt (by lia)
  rw [checkEnd, hmul, ok_bind, hadd, ok_bind, if_neg (by lia)]

/-!
## Field by field
-/

theorem latestHeight_lt {t : CommitmentTreeDb} (hmem : InMemory t) :
    t.latestHeight.getD 0 < 2 ^ 64 := by
  unfold latestHeight
  cases hlast : t.blocks.getLast? with
  | none => decide
  | some block => exact hmem.heights block (List.mem_of_getLast? hlast)

theorem readHeader_of_drop_eq {t : CommitmentTreeDb} (hmem : InMemory t)
    {payload rest : List UInt8} {pos : Nat}
    (h : payload.drop pos = t.headerBytes ++ rest) :
    exists pos',
      readHeader payload pos = .ok ((t.treeSize, t.blocks.length), pos') ∧
      payload.drop pos' = rest ∧ pos' ≤ payload.length := by
  have hcount : t.blocks.length < 2 ^ 64 := by
    have hblocks := hmem.blocks
    have hbound : maxVecLen < 2 ^ 64 := by decide
    rw [blockRecordMemSize] at hblocks
    lia
  have hhash : (t.latestBlockHash.getD (ByteVec.zeros 32)).toList.length = 32 :=
    List.Vector.toList_length _
  simp only [headerBytes, List.append_assoc] at h
  have hdrop1 := drop_add_of_drop_eq h (length_leBytes 8 _)
  have hdrop2 := drop_add_of_drop_eq hdrop1 (length_leBytes 8 _)
  have hdrop3 := drop_add_of_drop_eq hdrop2 (length_leBytes 8 _)
  have hdrop4 := drop_add_of_drop_eq hdrop3 hhash
  have hfits : pos + 8 + 8 + 8 + 32 ≤ payload.length := by
    have hlength := congrArg List.length hdrop3
    rw [List.length_drop, List.length_append, hhash] at hlength
    lia
  have hskip : skipLatestHash payload (pos + 8 + 8 + 8) =
      .ok (pos + 8 + 8 + 8 + 32) := by
    rw [skipLatestHash, if_neg (by lia)]
  refine ⟨_, ?_, hdrop4, hfits⟩
  rw [readHeader, readU64_of_drop_eq h hmem.size, ok_bind]
  dsimp only
  rw [readU64_of_drop_eq hdrop1 hcount, ok_bind]
  dsimp only
  rw [readU64_of_drop_eq hdrop2 (latestHeight_lt hmem), ok_bind]
  dsimp only
  rw [hskip, ok_bind]
  rfl

theorem readPrefetchedRoots_of_drop_eq {payload rest : List UInt8} {pos : Nat}
    {roots : List Hash} (acc : List Hash)
    (h : payload.drop pos = roots.flatMap List.Vector.toList ++ rest)
    (hpos : pos ≤ payload.length) :
    exists pos',
      readPrefetchedRoots payload roots.length pos acc = .ok (acc ++ roots, pos') ∧
      payload.drop pos' = rest ∧ pos' ≤ payload.length := by
  induction roots generalizing pos acc with
  | nil =>
      refine ⟨pos, ?_, h, hpos⟩
      rw [List.append_nil]
      rfl
  | cons root more ih =>
      rw [List.flatMap_cons, List.append_assoc] at h
      have hlen : root.toList.length = 32 := root.toList_length
      have hnext := drop_add_of_drop_eq h hlen
      have hnextPos := le_length_of_drop_eq h hpos
      rw [hlen] at hnextPos
      rcases ih (acc ++ [root]) hnext hnextPos with ⟨pos', hread, hrest⟩
      refine ⟨pos', ?_, hrest⟩
      have hroot : (⟨root.toList, hlen⟩ : ByteVec 32) = root := rfl
      rw [List.length_cons, readPrefetchedRoots, bytesAt?_of_drop_eq h hlen, hroot]
      rw [List.append_assoc] at hread
      exact hread

theorem readWindow_of_drop_eq {t : CommitmentTreeDb} (hmem : InMemory t)
    {payload rest : List UInt8} {pos : Nat}
    (h : payload.drop pos = t.windowBytes ++ rest) (hpos : pos ≤ payload.length) :
    exists pos',
      readWindow payload pos =
        .ok ((t.leafOffset, t.prefetchedShardRoots), pos') ∧
      payload.drop pos' = rest ∧ pos' ≤ payload.length := by
  have hoffset : t.leafOffset < 2 ^ 64 :=
    Nat.lt_of_le_of_lt (Nat.le_add_right _ _) hmem.size
  have hcount : t.prefetchedShardRoots.length < 2 ^ 64 := by
    have hprefetched := hmem.prefetched
    have hbound : maxVecLen < 2 ^ 64 := by decide
    lia
  simp only [windowBytes, List.append_assoc] at h
  have hdrop1 := drop_add_of_drop_eq h (length_leBytes 8 _)
  have hdrop2 := drop_add_of_drop_eq hdrop1 (length_leBytes 8 _)
  have hpos1 := le_length_of_drop_eq h hpos
  rw [length_leBytes] at hpos1
  have hpos2 := le_length_of_drop_eq hdrop1 hpos1
  rw [length_leBytes] at hpos2
  rcases readPrefetchedRoots_of_drop_eq [] hdrop2 hpos2 with ⟨pos', hroots, hrest⟩
  refine ⟨pos', ?_, hrest⟩
  rw [readWindow, readU64_of_drop_eq h hoffset, ok_bind]
  dsimp only
  rw [readU64_of_drop_eq hdrop1 hcount, ok_bind]
  dsimp only
  rw [withCapacity_of_le hmem.prefetched, ok_bind, hroots, ok_bind]
  rfl

theorem readBlockRecord_of_drop_eq {payload rest : List UInt8} {pos : Nat}
    {block : BlockRecord} (h : payload.drop pos = blockRecordBytes block ++ rest)
    (hheight : block.height < 2 ^ 64) (hcount : block.numCommitments < 2 ^ 32) :
    readBlockRecord payload pos = .ok (block, pos + 8 + 32 + 4) ∧
      payload.drop (pos + 8 + 32 + 4) = rest := by
  simp only [blockRecordBytes, List.append_assoc] at h
  have hhash : block.hash.toList.length = 32 := block.hash.toList_length
  have hdrop1 := drop_add_of_drop_eq h (length_leBytes 8 _)
  have hdrop2 := drop_add_of_drop_eq hdrop1 hhash
  have hdrop3 := drop_add_of_drop_eq hdrop2 (length_leBytes 4 _)
  refine ⟨?_, hdrop3⟩
  have hheightBack : leNat (leBytes 8 block.height) = block.height :=
    leNat_leBytes hheight
  have hcountBack : leNat (leBytes 4 block.numCommitments) = block.numCommitments :=
    leNat_leBytes hcount
  rw [readBlockRecord, sliceAt_of_drop_eq h (length_leBytes 8 _), ok_bind,
    sliceAt_of_drop_eq hdrop1 hhash, ok_bind,
    sliceAt_of_drop_eq hdrop2 (length_leBytes 4 _), ok_bind,
    ByteVec.toList_ofBytes (length_leBytes 8 _), hheightBack, ByteVec.ofBytes_toList,
    ByteVec.toList_ofBytes (length_leBytes 4 _), hcountBack]
  rfl

theorem length_flatMap_toList (hashes : List Hash) :
    (hashes.flatMap List.Vector.toList).length = hashes.length * 32 :=
  length_flatMap_const (fun hash => hash.toList_length) hashes

theorem length_blockRecordBytes (block : BlockRecord) :
    (blockRecordBytes block).length = blockRecordSize := by
  have hhash : block.hash.toList.length = 32 := block.hash.toList_length
  simp only [blockRecordBytes, List.length_append, length_leBytes, hhash]
  rfl

theorem readBlockRecordLoop_of_drop_eq (mode : Arithmetic) {payload rest : List UInt8}
    {pos total : Nat} {blocks : List BlockRecord} (acc : List BlockRecord)
    (h : payload.drop pos = blocks.flatMap blockRecordBytes ++ rest)
    (hheights : forall block, block ∈ blocks -> block.height < 2 ^ 64)
    (hcounts : forall block, block ∈ blocks -> block.numCommitments < 2 ^ 32)
    (htotal : total + (blocks.map BlockRecord.numCommitments).sum < 2 ^ 64)
    (hpos : pos ≤ payload.length) :
    exists pos',
      readBlockRecordLoop mode payload blocks.length pos acc total =
        .ok ((acc ++ blocks, total + (blocks.map BlockRecord.numCommitments).sum),
          pos') ∧
      payload.drop pos' = rest ∧ pos' ≤ payload.length := by
  induction blocks generalizing pos acc total with
  | nil =>
      refine ⟨pos, ?_, h, hpos⟩
      rw [List.append_nil]
      rfl
  | cons block more ih =>
      rw [List.flatMap_cons, List.append_assoc] at h
      rw [List.map_cons, List.sum_cons, ← Nat.add_assoc] at htotal ⊢
      rcases readBlockRecord_of_drop_eq h (hheights block List.mem_cons_self)
          (hcounts block List.mem_cons_self) with ⟨hblock, hnext⟩
      have hnextPos : pos + 8 + 32 + 4 ≤ payload.length := by
        have hfits := le_length_of_drop_eq h hpos
        rwa [length_blockRecordBytes] at hfits
      rcases ih (acc ++ [block]) hnext
          (fun b hb => hheights b (List.mem_cons_of_mem block hb))
          (fun b hb => hcounts b (List.mem_cons_of_mem block hb)) htotal hnextPos with
        ⟨pos', hread, hrest⟩
      refine ⟨pos', ?_, hrest⟩
      have hadd : (mode.add 64 total block.numCommitments : Outcome TreeError Nat) =
          .ok (total + block.numCommitments) :=
        mode.add_of_lt (by lia)
      rw [List.length_cons, readBlockRecordLoop, hblock, ok_bind]
      dsimp only
      rw [hadd, ok_bind, hread, List.append_assoc]
      rfl

theorem readLeafLoop_of_drop_eq {payload rest : List UInt8} {pos : Nat}
    {leaves : List Hash} (acc : List Hash)
    (h : payload.drop pos = leaves.flatMap List.Vector.toList ++ rest) :
    exists pos',
      readLeafLoop payload leaves.length pos acc = .ok (acc ++ leaves, pos') ∧
      payload.drop pos' = rest := by
  induction leaves generalizing pos acc with
  | nil =>
      refine ⟨pos, ?_, h⟩
      rw [List.append_nil]
      rfl
  | cons leaf more ih =>
      rw [List.flatMap_cons, List.append_assoc] at h
      have hlen : leaf.toList.length = 32 := leaf.toList_length
      have hnext := drop_add_of_drop_eq h hlen
      rcases ih (acc ++ [leaf]) hnext with ⟨pos', hread, hrest⟩
      refine ⟨pos', ?_, hrest⟩
      rw [List.length_cons, readLeafLoop, sliceAt_of_drop_eq h hlen, ok_bind,
        ByteVec.ofBytes_toList, hread, List.append_assoc]
      rfl

theorem readBlockRecords_of_drop_eq (mode : Arithmetic) {t : CommitmentTreeDb}
    (hmem : InMemory t) (hcount : t.totalCommitments ≤ t.leaves.length)
    {payload rest : List UInt8} {pos : Nat}
    (h : payload.drop pos = t.blocks.flatMap blockRecordBytes ++ rest)
    (hpos : pos ≤ payload.length) (hmax : payload.length ≤ maxVecLen) :
    exists pos',
      readBlockRecords mode payload pos t.blocks.length =
        .ok ((t.blocks, t.totalCommitments), pos') ∧
      payload.drop pos' = rest ∧ pos' ≤ payload.length := by
  have hfits : pos + t.blocks.length * blockRecordSize ≤ payload.length := by
    have hlength := le_length_of_drop_eq h hpos
    rwa [length_flatMap_const length_blockRecordBytes] at hlength
  have htotal : 0 + (t.blocks.map BlockRecord.numCommitments).sum < 2 ^ 64 := by
    have hleaves := hmem.leaves
    have hbound : maxVecLen < 2 ^ 64 := by decide
    rw [totalCommitments] at hcount
    lia
  rcases readBlockRecordLoop_of_drop_eq mode [] h hmem.heights hmem.counts htotal hpos
    with ⟨pos', hloop, hrest⟩
  refine ⟨pos', ?_, hrest⟩
  rw [readBlockRecords, checkEnd_of_le mode hfits hmax, ok_bind,
    withCapacity_of_le hmem.blocks, ok_bind, hloop, Nat.zero_add]
  rfl

theorem readLeaves_of_drop_eq (mode : Arithmetic) {t : CommitmentTreeDb}
    (hmem : InMemory t) {payload rest : List UInt8} {pos : Nat}
    (h : payload.drop pos = t.leaves.flatMap List.Vector.toList ++ rest)
    (hpos : pos ≤ payload.length) (hmax : payload.length ≤ maxVecLen) :
    exists pos',
      readLeaves mode payload pos t.leaves.length = .ok (t.leaves, pos') ∧
      payload.drop pos' = rest := by
  have hfits : pos + t.leaves.length * 32 ≤ payload.length := by
    have hlength := le_length_of_drop_eq h hpos
    rwa [length_flatMap_toList] at hlength
  rcases readLeafLoop_of_drop_eq [] h with ⟨pos', hloop, hrest⟩
  refine ⟨pos', ?_, hrest⟩
  rw [readLeaves, checkEnd_of_le mode hfits hmax, ok_bind,
    withCapacity_of_le hmem.leaves, ok_bind, hloop]
  rfl

/-!
## The cache
-/

theorem readCacheLoop_of_drop_eq {payload rest : List UInt8} {pos : Nat}
    {entries : List (Nat × Hash)} (cache : Fin l0DbRows -> Option Hash)
    (h : payload.drop pos = entries.flatMap cacheEntryBytes ++ rest)
    (hslots : forall entry, entry ∈ entries -> entry.1 < l0DbRows) :
    readCacheLoop payload entries.length pos cache =
      .ok (entries.foldl (fun c entry => setSlot c entry.1 entry.2) cache) := by
  induction entries generalizing pos cache with
  | nil => rfl
  | cons entry more ih =>
      rw [List.flatMap_cons, cacheEntryBytes, List.append_assoc, List.append_assoc] at h
      have hroot : entry.2.toList.length = 32 := entry.2.toList_length
      have hslot : leNat (leBytes 4 entry.1) = entry.1 :=
        leNat_leBytes (Nat.lt_trans (hslots entry List.mem_cons_self) (by decide))
      have hdrop1 := drop_add_of_drop_eq h (length_leBytes 4 _)
      have hdrop2 := drop_add_of_drop_eq hdrop1 hroot
      have hfits : ¬ pos + 4 + 32 > payload.length := by
        have hlength := congrArg List.length hdrop1
        rw [List.length_drop, List.length_append, hroot] at hlength
        lia
      rw [List.length_cons, readCacheLoop, if_neg hfits,
        sliceAt_of_drop_eq h (length_leBytes 4 _), ok_bind,
        sliceAt_of_drop_eq hdrop1 hroot, ok_bind,
        ByteVec.toList_ofBytes (length_leBytes 4 _), hslot, ByteVec.ofBytes_toList,
        ih _ hdrop2 (fun e he => hslots e (List.mem_cons_of_mem entry he))]
      rfl

theorem foldl_setSlot_of_not_mem {entries : List (Nat × Hash)}
    {cache : Fin l0DbRows -> Option Hash} {i : Fin l0DbRows}
    (h : forall entry, entry ∈ entries -> entry.1 ≠ i.val) :
    entries.foldl (fun c entry => setSlot c entry.1 entry.2) cache i = cache i := by
  induction entries generalizing cache with
  | nil => rfl
  | cons entry more ih =>
      have hhead : i.val ≠ entry.1 := (h entry List.mem_cons_self).symm
      rw [List.foldl_cons, ih (fun e he => h e (List.mem_cons_of_mem entry he)),
        setSlot, if_neg hhead]

theorem foldl_setSlot_filterMap {source : Fin l0DbRows -> Option Hash}
    {slots : List (Fin l0DbRows)} (hnodup : slots.Nodup)
    (cache : Fin l0DbRows -> Option Hash) {i : Fin l0DbRows} (hi : i ∈ slots)
    (hcache : cache i = none) :
    (slots.filterMap (fun j => (source j).map (fun root => (j.val, root)))).foldl
      (fun c entry => setSlot c entry.1 entry.2) cache i = source i := by
  induction slots generalizing cache with
  | nil => cases hi
  | cons j more ih =>
      rcases List.nodup_cons.mp hnodup with ⟨hfresh, hmore⟩
      rcases List.mem_cons.mp hi with heq | hrest
      · have hother : forall entry, entry ∈ more.filterMap
            (fun j => (source j).map (fun root => (j.val, root))) ->
            entry.1 ≠ i.val := by
          intro entry hentry hsame
          rcases List.mem_filterMap.mp hentry with ⟨k, hk, hmap⟩
          rcases Option.map_eq_some_iff.mp hmap with ⟨root, _, hpair⟩
          rw [← hpair] at hsame
          have hki : k = j := (Fin.ext hsame).trans heq
          exact hfresh (hki ▸ hk)
        rw [List.filterMap_cons, ← heq]
        cases hsource : source i with
        | none =>
            exact (foldl_setSlot_of_not_mem hother).trans hcache
        | some root =>
            rw [Option.map_some, List.foldl_cons, foldl_setSlot_of_not_mem hother,
              setSlot, if_pos rfl]
      · have hne : i ≠ j := fun heq => hfresh (heq ▸ hrest)
        rw [List.filterMap_cons]
        cases hsource : source j with
        | none => exact ih hmore cache hrest hcache
        | some root =>
            rw [Option.map_some, List.foldl_cons]
            apply ih hmore _ hrest
            rw [setSlot, if_neg (fun hval => hne (Fin.ext hval))]
            exact hcache

theorem foldl_setSlot_cachedEntries (t : CommitmentTreeDb) :
    t.cachedEntries.foldl (fun c entry => setSlot c entry.1 entry.2)
      (fun _ => none) = t.ssRootCache := by
  funext i
  exact foldl_setSlot_filterMap (List.nodup_finRange l0DbRows) (fun _ => none)
    (List.mem_finRange i) rfl

theorem cachedEntries_lt {t : CommitmentTreeDb} {entry : Nat × Hash}
    (h : entry ∈ t.cachedEntries) : entry.1 < l0DbRows := by
  rcases List.mem_filterMap.mp h with ⟨i, _, hmap⟩
  rcases Option.map_eq_some_iff.mp hmap with ⟨root, _, hpair⟩
  rw [← hpair]
  exact i.isLt

theorem length_cachedEntries_le (t : CommitmentTreeDb) :
    t.cachedEntries.length ≤ l0DbRows := by
  have hle := List.length_filterMap_le
    (fun i => (t.ssRootCache i).map (fun root => (i.val, root)))
    (List.finRange l0DbRows)
  rwa [List.length_finRange] at hle

/-!
## Whole snapshots
-/

theorem readWindowedParts_of_drop_eq (mode : Arithmetic) {t : CommitmentTreeDb}
    (hmem : InMemory t) (hcount : t.totalCommitments ≤ t.leaves.length)
    {payload rest : List UInt8} {pos : Nat}
    (h : payload.drop pos = t.headerBytes ++ (t.windowBytes ++ (t.bodyBytes ++ rest)))
    (hmax : payload.length ≤ maxVecLen) :
    (t.totalCommitments = t.leaves.length ->
      exists pos',
        readWindowedParts mode payload pos =
          .ok ({ leafOffset := t.leafOffset
                 prefetchedShardRoots := t.prefetchedShardRoots
                 blocks := t.blocks
                 leaves := t.leaves }, pos') ∧
        payload.drop pos' = rest) ∧
    (t.totalCommitments ≠ t.leaves.length ->
      readWindowedParts mode payload pos =
        corrupted ("block records sum to " ++ toString t.totalCommitments ++
          " but expected " ++ toString t.leaves.length ++ " local leaves")) := by
  rcases readHeader_of_drop_eq hmem h with ⟨pos1, hheader, hdrop1, hpos1⟩
  rcases readWindow_of_drop_eq hmem hdrop1 hpos1 with ⟨pos2, hwindow, hdrop2, hpos2⟩
  rw [bodyBytes, List.append_assoc] at hdrop2
  rcases readBlockRecords_of_drop_eq mode hmem hcount hdrop2 hpos2 hmax with
    ⟨pos3, hblocks, hdrop3, hpos3⟩
  rcases readLeaves_of_drop_eq mode hmem hdrop3 hpos3 hmax with
    ⟨pos4, hleaves, hdrop4⟩
  have hlocal : (mode.sub 64 t.treeSize t.leafOffset : Outcome TreeError Nat) =
      .ok t.leaves.length := by
    rw [treeSize, mode.sub_of_le 64 (Nat.le_add_right _ _), Nat.add_sub_cancel_left]
  have hfront : readWindowedParts mode payload pos =
      if t.totalCommitments ≠ t.leaves.length then
        corrupted ("block records sum to " ++ toString t.totalCommitments ++
          " but expected " ++ toString t.leaves.length ++ " local leaves")
      else
        .ok ({ leafOffset := t.leafOffset
               prefetchedShardRoots := t.prefetchedShardRoots
               blocks := t.blocks
               leaves := t.leaves }, pos4) := by
    rw [readWindowedParts, hheader, ok_bind]
    dsimp only
    rw [hwindow, ok_bind]
    dsimp only
    rw [hblocks, ok_bind]
    dsimp only
    rw [hlocal, ok_bind, hleaves, ok_bind]
    rfl
  constructor
  · intro hequal
    rw [hfront, if_neg (fun hne => hne hequal)]
    exact ⟨pos4, rfl, hdrop4⟩
  · intro hne
    rw [hfront, if_pos hne]

theorem assemble_of_aligned (mode : Arithmetic) {parts : WindowedParts}
    (cache : Fin l0DbRows -> Option Hash)
    (h : mode = .checked -> parts.leafOffset % shardLeaves = 0) :
    assemble mode parts cache =
      .ok { leaves := parts.leaves
            blocks := parts.blocks
            leafOffset := parts.leafOffset
            prefetchedShardRoots := parts.prefetchedShardRoots
            ssRootCache := cache } :=
  if_neg (fun hbad => hbad.right (h hbad.left))

theorem fromPayload_magic (mode : Arithmetic) {payload rest : List UInt8} {magic : Nat}
    (h : payload = leBytes 8 magic ++ rest) (hmagic : magic < 2 ^ 64) :
    fromPayload mode payload =
      (if magic = snapshotMagicV1 then fromSnapshotV1 mode payload 8
      else if magic = snapshotMagicV2 then fromSnapshotV2 mode payload 8
      else if magic = snapshotMagicV3 then fromSnapshotV3 mode payload 8
      else corrupted ("bad magic: " ++ hex64 magic)) ∧
    payload.drop 8 = rest := by
  have hstart : payload.drop 0 = leBytes 8 magic ++ rest := h
  have hnext := drop_add_of_drop_eq hstart (length_leBytes 8 magic)
  rw [Nat.zero_add] at hnext
  refine ⟨?_, hnext⟩
  rw [fromPayload, readU64_of_drop_eq hstart hmagic, ok_bind]

theorem fromPayload_payloadV3 (mode : Arithmetic) {t : CommitmentTreeDb}
    (hmem : InMemory t) (hcount : t.totalCommitments ≤ t.leaves.length)
    (haligned : mode = .checked -> t.leafOffset % shardLeaves = 0) :
    fromPayload mode t.payloadV3 =
      if t.totalCommitments = t.leaves.length then .ok t
      else corrupted ("block records sum to " ++ toString t.totalCommitments ++
        " but expected " ++ toString t.leaves.length ++ " local leaves") := by
  rcases fromPayload_magic mode (show t.payloadV3 = _ from rfl) (by decide) with
    ⟨hversion, hbody⟩
  rw [hversion, if_neg (by decide), if_neg (by decide), if_pos rfl, fromSnapshotV3]
  have hparts := readWindowedParts_of_drop_eq mode hmem hcount hbody hmem.snapshot
  split
  · next hequal =>
      rcases hparts.left hequal with ⟨pos, hread, hrest⟩
      rw [cacheBytes] at hrest
      have hcached : t.cachedEntries.length < 2 ^ 64 :=
        Nat.lt_of_le_of_lt (length_cachedEntries_le t) (by decide)
      have hentries := drop_add_of_drop_eq hrest (length_leBytes 8 _)
      rw [← List.append_nil (t.cachedEntries.flatMap _)] at hentries
      have hloop := readCacheLoop_of_drop_eq (fun _ => none) hentries
        (fun _ hentry => cachedEntries_lt hentry)
      rw [hread, ok_bind]
      dsimp only
      rw [readU64_of_drop_eq hrest hcached, ok_bind]
      dsimp only
      rw [hloop, ok_bind, foldl_setSlot_cachedEntries, assemble_of_aligned]
      exact haligned
  · next hne =>
      rw [hparts.right hne]
      rfl

theorem fromPayload_payloadV2 (mode : Arithmetic) {t : CommitmentTreeDb}
    (hmem : InMemory t) (hcount : t.totalCommitments ≤ t.leaves.length)
    (haligned : mode = .checked -> t.leafOffset % shardLeaves = 0) :
    fromPayload mode t.payloadV2 =
      if t.totalCommitments = t.leaves.length then
        .ok { t with ssRootCache := fun _ => none }
      else corrupted ("block records sum to " ++ toString t.totalCommitments ++
        " but expected " ++ toString t.leaves.length ++ " local leaves") := by
  rcases fromPayload_magic mode (show t.payloadV2 = _ from rfl) (by decide) with
    ⟨hversion, hbody⟩
  rw [← List.append_nil t.bodyBytes] at hbody
  have hmax : t.payloadV2.length ≤ maxVecLen := by
    have hlong := hmem.snapshot
    simp only [payloadV2, payloadV3, List.length_append, length_leBytes] at hlong ⊢
    lia
  rw [hversion, if_neg (by decide), if_pos rfl, fromSnapshotV2]
  have hparts := readWindowedParts_of_drop_eq mode hmem hcount hbody hmax
  split
  · next hequal =>
      rcases hparts.left hequal with ⟨pos, hread, _⟩
      rw [hread, ok_bind]
      dsimp only
      rw [assemble_of_aligned]
      exact haligned
  · next hne =>
      rw [hparts.right hne]
      rfl

/-- A version 1 payload of an unwindowed tree restores it with an empty cache. -/
theorem fromPayload_payloadV1 (mode : Arithmetic) {t : CommitmentTreeDb}
    (hmem : InMemory t) (hcount : t.totalCommitments ≤ t.leaves.length)
    (hoffset : t.leafOffset = 0) (hprefetched : t.prefetchedShardRoots = []) :
    fromPayload mode t.payloadV1 =
      if t.totalCommitments = t.leaves.length then
        .ok { t with ssRootCache := fun _ => none }
      else corrupted ("block records sum to " ++ toString t.totalCommitments ++
        " commitments but header says " ++ toString t.leaves.length) := by
  rcases fromPayload_magic mode (show t.payloadV1 = _ from rfl) (by decide) with
    ⟨hversion, hbody⟩
  have hmax : t.payloadV1.length ≤ maxVecLen := by
    have hlong := hmem.snapshot
    simp only [payloadV1, payloadV3, List.length_append, length_leBytes] at hlong ⊢
    lia
  have hsize : t.treeSize = t.leaves.length := by
    rw [treeSize, hoffset, Nat.zero_add]
  rcases readHeader_of_drop_eq hmem hbody with ⟨pos1, hheader, hdrop1, hpos1⟩
  rw [bodyBytes] at hdrop1
  rcases readBlockRecords_of_drop_eq mode hmem hcount hdrop1 hpos1 hmax with
    ⟨pos2, hblocks, hdrop2, hpos2⟩
  rw [← List.append_nil (t.leaves.flatMap _)] at hdrop2
  rcases readLeaves_of_drop_eq mode hmem hdrop2 hpos2 hmax with ⟨pos3, hleaves, _⟩
  rw [hversion, if_pos rfl, fromSnapshotV1, hheader, ok_bind]
  dsimp only
  rw [hblocks, ok_bind]
  dsimp only
  rw [hsize]
  by_cases hequal : t.totalCommitments = t.leaves.length
  · rw [if_neg (fun hne => hne hequal), if_pos hequal, hleaves, ok_bind]
    have hstart : ({ new with leaves := t.leaves, blocks := t.blocks } :
        CommitmentTreeDb) = { t with ssRootCache := fun _ => none } := by
      rw [new, withOffset, hoffset, hprefetched]
    exact congrArg Except.ok hstart
  · rw [if_pos hequal, if_neg hequal]

/-- A sealed payload passes the checksum. -/
theorem fromSnapshot_sealPayload (mode : Arithmetic)
    {xxh64 : List UInt8 -> Nat -> UInt64} {payload : List UInt8}
    (h : 8 ≤ payload.length) :
    fromSnapshot mode xxh64 (sealPayload xxh64 payload) = fromPayload mode payload := by
  have hlength : (sealPayload xxh64 payload).length = payload.length + 8 := by
    rw [sealPayload, List.length_append, length_leBytes]
  have hcut : (sealPayload xxh64 payload).length - 8 = payload.length := by
    rw [hlength, Nat.add_sub_cancel]
  have htake : (sealPayload xxh64 payload).take payload.length = payload := by
    rw [sealPayload, List.take_left]
  have hchecksum : leNat (slice (sealPayload xxh64 payload) payload.length 8) =
      (xxh64 payload 0).toNat := by
    have htail : slice (sealPayload xxh64 payload) payload.length 8 =
        leBytes 8 (xxh64 payload 0).toNat := by
      rw [slice, sealPayload, List.drop_left]
      exact List.take_of_length_le (Nat.le_of_eq (length_leBytes 8 _))
    rw [htail]
    exact leNat_leBytes (xxh64 payload 0).toNat_lt
  have hlong : ¬ (sealPayload xxh64 payload).length < 8 + 8 := by
    rw [hlength]
    lia
  unfold fromSnapshot
  rw [if_neg hlong]
  simp only [hcut, htake, hchecksum, ne_eq, not_true_eq_false, if_false]

end CommitmentTreeDb
end Witness
end SpendabilityPir
