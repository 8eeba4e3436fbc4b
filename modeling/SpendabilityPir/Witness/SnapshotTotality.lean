import SpendabilityPir.Witness.TreeRestore

/-!
# Snapshots a decoder does not survive

The decoder trusts the counts a payload declares until it has the bytes they are about:
it multiplies, subtracts and allocates with them first.  What it would have to check is
stated on the declared fields; a payload that fails it makes a checked build panic, and
a payload that passes it is decoded alike by both builds.
-/

namespace SpendabilityPir
namespace Witness

open Foundation Outcome

namespace CommitmentTreeDb

/-!
## The declared fields
-/

section Declared

variable (payload : List UInt8)

def u64At (pos : Nat) : Nat := leNat (slice payload pos 8)

def declaredTreeSize : Nat := u64At payload 8
def declaredBlockCount : Nat := u64At payload 16
def declaredLeafOffset : Nat := u64At payload 64
def declaredPrefetchedCount : Nat := u64At payload 72

/-- The sum of the commitment counts of some block records from a position on. -/
def declaredTotal : Nat -> Nat -> Nat
  | _, 0 => 0
  | pos, count + 1 =>
      leNat (slice payload (pos + 8 + 32) 4) +
        declaredTotal (pos + blockRecordSize) count

/-- The end of the block records is a 64-bit number and, when they are there, they can
be allocated and their counts sum to a 64-bit number. -/
def RecordsFit (pos count : Nat) : Prop :=
  pos + count * blockRecordSize < 2 ^ 64 ∧
  (pos + count * blockRecordSize ≤ payload.length ->
    blockRecordMemSize * count ≤ maxVecLen ∧ declaredTotal payload pos count < 2 ^ 64)

def LeavesFit (pos count : Nat) : Prop :=
  pos + count * 32 < 2 ^ 64 ∧
  (pos + count * 32 ≤ payload.length -> 32 * count ≤ maxVecLen)

def FitsV1 : Prop :=
  64 ≤ payload.length ->
    RecordsFit payload 64 (declaredBlockCount payload) ∧
    (64 + declaredBlockCount payload * blockRecordSize ≤ payload.length ->
      declaredTotal payload 64 (declaredBlockCount payload) = declaredTreeSize payload ->
      LeavesFit payload (64 + declaredBlockCount payload * blockRecordSize)
        (declaredTreeSize payload))

/-- The leaves of a windowed payload, and what follows them. -/
def WindowedLeavesFit (rest : Nat -> Prop) (pos : Nat) : Prop :=
  LeavesFit payload pos (declaredTreeSize payload - declaredLeafOffset payload) ∧
  (pos + (declaredTreeSize payload - declaredLeafOffset payload) * 32 ≤ payload.length ->
    rest (pos + (declaredTreeSize payload - declaredLeafOffset payload) * 32))

/-- The block records of a windowed payload, and what follows them. -/
def WindowedRecordsFit (rest : Nat -> Prop) (pos : Nat) : Prop :=
  RecordsFit payload pos (declaredBlockCount payload) ∧
  (pos + declaredBlockCount payload * blockRecordSize ≤ payload.length ->
    declaredLeafOffset payload ≤ declaredTreeSize payload ∧
    (declaredTotal payload pos (declaredBlockCount payload) =
        declaredTreeSize payload - declaredLeafOffset payload ->
      WindowedLeavesFit payload rest
        (pos + declaredBlockCount payload * blockRecordSize)))

/-- What a version 2 or 3 payload has to declare, up to what follows the leaves. -/
def WindowedFits (rest : Nat -> Prop) : Prop :=
  80 ≤ payload.length ->
    32 * declaredPrefetchedCount payload ≤ maxVecLen ∧
    (80 + declaredPrefetchedCount payload * 32 ≤ payload.length ->
      WindowedRecordsFit payload rest (80 + declaredPrefetchedCount payload * 32))

/-- The offset is aligned to shards, as the tree built from the payload asserts. -/
def AlignedOffset : Prop := declaredLeafOffset payload % shardLeaves = 0

def AlignedAfterCache (pos : Nat) : Prop :=
  pos + 8 ≤ payload.length ->
    pos + 8 + u64At payload pos * 36 ≤ payload.length -> AlignedOffset payload

def DeclaredFits : Prop :=
  8 ≤ payload.length ->
    (u64At payload 0 = snapshotMagicV1 -> FitsV1 payload) ∧
    (u64At payload 0 = snapshotMagicV2 ->
      WindowedFits payload (fun _ => AlignedOffset payload)) ∧
    (u64At payload 0 = snapshotMagicV3 ->
      WindowedFits payload (AlignedAfterCache payload))

end Declared

/-- A snapshot with a matching checksum declares what its payload has room for. -/
def SnapshotFits (xxh64 : List UInt8 -> Nat -> UInt64) (data : List UInt8) : Prop :=
  8 + 8 ≤ data.length ->
    u64At data (data.length - 8) = (xxh64 (data.take (data.length - 8)) 0).toNat ->
    DeclaredFits (data.take (data.length - 8))

/-!
## Readers that do not panic
-/

theorem readU64_reads (payload : List UInt8) (pos : Nat) :
    ReadsTo (readU64 payload pos) (pos + 8 ≤ payload.length)
      (u64At payload pos, pos + 8) := by
  constructor
  · intro hpresent
    rcases bytesAt?_of_le hpresent with ⟨bytes, hbytes, heq⟩
    rw [readU64, hbytes]
    show (Except.ok (leNat bytes.toList, pos + 8) : Outcome TreeError _) = _
    rw [heq]
    rfl
  · intro hmissing
    rw [readU64, bytesAt?_of_gt (by decide) (Nat.lt_of_not_le hmissing)]
    exact ⟨_, rfl⟩

theorem skipLatestHash_reads (payload : List UInt8) (pos : Nat) :
    ReadsTo (skipLatestHash payload pos) (pos + 32 ≤ payload.length) (pos + 32) := by
  constructor
  · intro hpresent
    exact if_neg (Nat.not_lt_of_le hpresent)
  · intro hmissing
    exact ⟨_, if_pos (Nat.lt_of_not_le hmissing)⟩

theorem readHeader_reads (payload : List UInt8) :
    ReadsTo (readHeader payload 8) (64 ≤ payload.length)
      ((declaredTreeSize payload, declaredBlockCount payload), 64) := by
  apply (readU64_reads payload 8).bind _ (by lia)
  apply (readU64_reads payload 16).bind _ (by lia)
  apply (readU64_reads payload 24).bind _ (by lia)
  exact (skipLatestHash_reads payload 32).bind_ok rfl

theorem readPrefetchedRoots_reads {payload : List UInt8} (n : Nat) {pos : Nat}
    (acc : List Hash) (hpos : pos ≤ payload.length) :
    exists roots, ReadsTo (readPrefetchedRoots payload n pos acc)
      (pos + n * 32 ≤ payload.length) (roots, pos + n * 32) := by
  induction n generalizing pos acc with
  | zero =>
      refine ⟨acc, ?_, ?_⟩
      · intro _
        rw [readPrefetchedRoots, Nat.zero_mul, Nat.add_zero]
      · intro hmissing
        lia
  | succ n ih =>
      have hsum : pos + (n + 1) * 32 = pos + 32 + n * 32 := by lia
      by_cases hroot : pos + 32 ≤ payload.length
      · rcases bytesAt?_of_le hroot with ⟨root, hbytes, _⟩
        rcases ih (acc ++ [root]) hroot with ⟨roots, hreads⟩
        refine ⟨roots, ?_⟩
        rw [readPrefetchedRoots, hbytes, hsum]
        exact hreads
      · refine ⟨[], ?_, ?_⟩
        · intro hpresent
          lia
        · intro _
          rw [readPrefetchedRoots, bytesAt?_of_gt (by decide) (Nat.lt_of_not_le hroot)]
          exact ⟨_, rfl⟩

theorem readCacheLoop_reads {payload : List UInt8} (n : Nat) {pos : Nat}
    (acc : Fin l0DbRows -> Option Hash) (hpos : pos ≤ payload.length) :
    exists cache, ReadsTo (readCacheLoop payload n pos acc)
      (pos + n * 36 ≤ payload.length) cache := by
  induction n generalizing pos acc with
  | zero =>
      refine ⟨acc, fun _ => rfl, ?_⟩
      intro hmissing
      lia
  | succ n ih =>
      have hsum : pos + (n + 1) * 36 = pos + 4 + 32 + n * 36 := by lia
      by_cases hentry : pos + 4 + 32 ≤ payload.length
      · have hslotEnd : pos + 4 ≤ payload.length := by lia
        rcases bytesAt?_of_le hslotEnd with ⟨slot, hslot, _⟩
        rcases bytesAt?_of_le hentry with ⟨root, hroot, _⟩
        rcases ih (setSlot acc (leNat slot.toList) root) hentry with ⟨cache, hreads⟩
        refine ⟨cache, ?_⟩
        rw [readCacheLoop, if_neg (Nat.not_lt_of_le hentry), sliceAt, hslot,
          Outcome.ofPanics_some, ok_bind, sliceAt, hroot, Outcome.ofPanics_some, ok_bind,
          hsum]
        exact hreads
      · refine ⟨acc, ?_, ?_⟩
        · intro hpresent
          lia
        · intro _
          rw [readCacheLoop, if_pos (Nat.lt_of_not_le hentry)]
          exact ⟨_, rfl⟩

/-!
## Readers that panic in a checked build
-/

section Checked

variable {α : Type} {payload : List UInt8}

theorem noPanic_withCapacity_bind {elementSize count : Nat}
    {f : Unit -> Outcome TreeError α} :
    NoPanic (withCapacity elementSize count >>= f) ↔
      elementSize * count ≤ maxVecLen ∧ NoPanic (f ()) := by
  unfold withCapacity
  split
  · next hfits => exact ⟨fun h => ⟨hfits, h⟩, fun h => h.right⟩
  · next hpast => exact ⟨fun h => absurd rfl h, fun h => absurd h.left hpast⟩

theorem noPanic_checkEnd_bind {pos count size : Nat} {reason : String}
    {f : Unit -> Outcome TreeError α} :
    NoPanic (checkEnd .checked payload pos count size reason >>= f) ↔
      pos + count * size < 2 ^ 64 ∧
      (pos + count * size ≤ payload.length -> NoPanic (f ())) := by
  unfold checkEnd
  rw [bind_assoc]
  show NoPanic (Arithmetic.checked.fit 64 (count * size) >>= _) ↔ _
  rw [Arithmetic.noPanic_fit_bind, bind_assoc]
  show _ ∧ NoPanic (Arithmetic.checked.fit 64 (pos + count * size) >>= _) ↔ _
  rw [Arithmetic.noPanic_fit_bind]
  split
  · next htruncated =>
      constructor
      · rintro ⟨_, hstop, _⟩
        exact ⟨hstop, fun hpresent => absurd hpresent (Nat.not_le_of_lt htruncated)⟩
      · rintro ⟨hstop, _⟩
        exact ⟨by lia, hstop, noPanic_error _⟩
  · next hpresent =>
      constructor
      · rintro ⟨_, hstop, hrest⟩
        exact ⟨hstop, fun _ => hrest⟩
      · rintro ⟨hstop, hrest⟩
        exact ⟨by lia, hstop, hrest (Nat.le_of_not_lt hpresent)⟩

/-- Records are read once their end is checked and their memory allocated: with their bytes
there, reading them decides. -/
theorem noPanic_counted_bind {β : Type} {pos count size elementSize : Nat} {reason : String}
    {read : Outcome TreeError β} {fits : Prop} {x : β} {f : β -> Outcome TreeError α}
    (hread : pos + count * size ≤ payload.length ->
      (NoPanic (read >>= f) ↔ fits ∧ NoPanic (f x))) :
    NoPanic ((checkEnd .checked payload pos count size reason >>= fun _ =>
        withCapacity elementSize count >>= fun _ => read) >>= f) ↔
      (pos + count * size < 2 ^ 64 ∧
        (pos + count * size ≤ payload.length -> elementSize * count ≤ maxVecLen ∧ fits)) ∧
      (pos + count * size ≤ payload.length -> NoPanic (f x)) := by
  rw [bind_assoc, noPanic_checkEnd_bind, bind_assoc, noPanic_withCapacity_bind, and_assoc,
    ← imp_and]
  apply and_congr_right
  intro _
  apply imp_congr_right
  intro hpresent
  rw [hread hpresent, and_assoc]

theorem readBlockRecord_of_le {pos : Nat} (h : pos + blockRecordSize ≤ payload.length) :
    exists record, readBlockRecord payload pos = .ok (record, pos + blockRecordSize) ∧
      record.numCommitments = leNat (slice payload (pos + 8 + 32) 4) := by
  have hsize : blockRecordSize = 44 := rfl
  have hheightEnd : pos + 8 ≤ payload.length := by lia
  have hhashEnd : pos + 8 + 32 ≤ payload.length := by lia
  have hcountEnd : pos + 8 + 32 + 4 ≤ payload.length := by lia
  rcases bytesAt?_of_le hheightEnd with ⟨height, hheight, _⟩
  rcases bytesAt?_of_le hhashEnd with ⟨hash, hhash, _⟩
  rcases bytesAt?_of_le hcountEnd with ⟨numCommitments, hcount, heq⟩
  refine ⟨{ height := leNat height.toList
            hash := hash
            numCommitments := leNat numCommitments.toList }, ?_, by rw [heq]⟩
  rw [readBlockRecord, sliceAt, hheight, Outcome.ofPanics_some, ok_bind, sliceAt, hhash,
    Outcome.ofPanics_some, ok_bind, sliceAt, hcount, Outcome.ofPanics_some, ok_bind]
  rfl

/-- The loop over the block records panics when their counts do not sum to 64 bits. -/
theorem noPanic_readBlockRecordLoop_bind (count : Nat) {pos total : Nat}
    (acc : List BlockRecord) (hpos : pos + count * blockRecordSize ≤ payload.length)
    (htotal : total < 2 ^ 64) :
    exists blocks,
      forall f : (List BlockRecord × Nat) × Nat -> Outcome TreeError α,
        NoPanic (readBlockRecordLoop .checked payload count pos acc total >>= f) ↔
          total + declaredTotal payload pos count < 2 ^ 64 ∧
          NoPanic (f ((blocks, total + declaredTotal payload pos count),
            pos + count * blockRecordSize)) := by
  induction count generalizing pos total acc with
  | zero =>
      refine ⟨acc, ?_⟩
      intro f
      rw [readBlockRecordLoop, declaredTotal, Nat.add_zero, Nat.zero_mul, Nat.add_zero]
      exact ⟨fun h => ⟨htotal, h⟩, fun h => h.right⟩
  | succ count ih =>
      have hsum : pos + (count + 1) * blockRecordSize =
          pos + blockRecordSize + count * blockRecordSize := by
        rw [Nat.succ_mul]
        lia
      rw [hsum] at hpos ⊢
      have hfirst : pos + blockRecordSize ≤ payload.length := by lia
      rcases readBlockRecord_of_le hfirst with ⟨record, hrecord, hcount⟩
      rw [declaredTotal, ← hcount, ← Nat.add_assoc]
      by_cases hfits : total + record.numCommitments < 2 ^ 64
      · rcases ih (acc ++ [record]) hpos hfits with ⟨blocks, hblocks⟩
        refine ⟨blocks, ?_⟩
        intro f
        rw [readBlockRecordLoop, hrecord, ok_bind]
        dsimp only
        rw [Arithmetic.add_of_lt .checked hfits, ok_bind]
        exact hblocks f
      · refine ⟨[], ?_⟩
        intro f
        rw [readBlockRecordLoop, hrecord, ok_bind]
        dsimp only
        rw [bind_assoc]
        show NoPanic (Arithmetic.checked.fit 64 (total + record.numCommitments) >>= _) ↔ _
        rw [Arithmetic.noPanic_fit_bind]
        constructor
        · intro h
          exact absurd h.left hfits
        · intro h
          exact absurd (Nat.lt_of_le_of_lt (Nat.le_add_right _ _) h.left) hfits

theorem noPanic_readBlockRecords_bind (payload : List UInt8) (pos count : Nat) :
    exists blocks,
      forall f : (List BlockRecord × Nat) × Nat -> Outcome TreeError α,
        NoPanic (readBlockRecords .checked payload pos count >>= f) ↔
          RecordsFit payload pos count ∧
          (pos + count * blockRecordSize ≤ payload.length ->
            NoPanic (f ((blocks, declaredTotal payload pos count),
              pos + count * blockRecordSize))) := by
  by_cases hpresent : pos + count * blockRecordSize ≤ payload.length
  · have hzero : 0 < 2 ^ 64 := by decide
    rcases noPanic_readBlockRecordLoop_bind (α := α) count [] hpresent hzero with
      ⟨blocks, hblocks⟩
    refine ⟨blocks, ?_⟩
    intro f
    have hloop := hblocks f
    rw [Nat.zero_add] at hloop
    exact noPanic_counted_bind (fun _ => hloop)
  · exact ⟨[], fun f => noPanic_counted_bind (fun h => absurd h hpresent)⟩

theorem readLeafLoop_of_le (n : Nat) {pos : Nat} (acc : List Hash)
    (h : pos + n * 32 ≤ payload.length) :
    exists leaves, readLeafLoop payload n pos acc = .ok (leaves, pos + n * 32) ∧
      leaves.length = acc.length + n := by
  induction n generalizing pos acc with
  | zero => exact ⟨acc, by rw [readLeafLoop, Nat.zero_mul, Nat.add_zero], rfl⟩
  | succ n ih =>
      have hsum : pos + (n + 1) * 32 = pos + 32 + n * 32 := by lia
      have hleafEnd : pos + 32 ≤ payload.length := by lia
      rcases bytesAt?_of_le hleafEnd with ⟨leaf, hleaf, _⟩
      rw [hsum] at h ⊢
      rcases ih (acc ++ [leaf]) h with ⟨leaves, hleaves, hlen⟩
      refine ⟨leaves, ?_, ?_⟩
      · rw [readLeafLoop, sliceAt, hleaf, Outcome.ofPanics_some, ok_bind]
        exact hleaves
      · rw [hlen, List.length_append, List.length_singleton]
        lia

theorem noPanic_readLeaves_bind (payload : List UInt8) (pos count : Nat) :
    exists leaves, forall f : List Hash × Nat -> Outcome TreeError α,
      NoPanic (readLeaves .checked payload pos count >>= f) ↔
        LeavesFit payload pos count ∧
        (pos + count * 32 ≤ payload.length -> NoPanic (f (leaves, pos + count * 32))) := by
  have hloop : exists leaves, forall f : List Hash × Nat -> Outcome TreeError α,
      pos + count * 32 ≤ payload.length ->
        (NoPanic (readLeafLoop payload count pos [] >>= f) ↔
          True ∧ NoPanic (f (leaves, pos + count * 32))) := by
    by_cases hpresent : pos + count * 32 ≤ payload.length
    · rcases readLeafLoop_of_le count [] hpresent with ⟨leaves, hleaves, _⟩
      refine ⟨leaves, ?_⟩
      intro f _
      rw [hleaves, ok_bind, true_and]
    · exact ⟨[], fun _ h => absurd h hpresent⟩
  rcases hloop with ⟨leaves, hleaves⟩
  refine ⟨leaves, ?_⟩
  intro f
  rw [readLeaves, noPanic_counted_bind (hleaves f), and_true, LeavesFit]

theorem noPanic_readWindow_bind (payload : List UInt8) :
    exists roots, forall f : (Nat × List Hash) × Nat -> Outcome TreeError α,
      NoPanic (readWindow payload 64 >>= f) ↔
        (80 ≤ payload.length -> 32 * declaredPrefetchedCount payload ≤ maxVecLen ∧
          (80 + declaredPrefetchedCount payload * 32 ≤ payload.length ->
            NoPanic (f ((declaredLeafOffset payload, roots),
              80 + declaredPrefetchedCount payload * 32)))) := by
  by_cases hlong : 80 ≤ payload.length
  · rcases readPrefetchedRoots_reads (declaredPrefetchedCount payload) [] hlong with
      ⟨roots, hroots⟩
    refine ⟨roots, ?_⟩
    intro f
    rw [readWindow, bind_assoc, (readU64_reads payload 64).ok (by lia), ok_bind]
    dsimp only
    rw [bind_assoc, (readU64_reads payload (64 + 8)).ok (by lia), ok_bind]
    dsimp only
    rw [bind_assoc]
    show NoPanic (withCapacity 32 (declaredPrefetchedCount payload) >>= _) ↔ _
    rw [noPanic_withCapacity_bind, bind_assoc]
    show _ ∧ NoPanic (readPrefetchedRoots payload (declaredPrefetchedCount payload) 80 [] >>=
      _) ↔ _
    rw [hroots.noPanic_bind_iff]
    exact ⟨fun h _ => h, fun h => h hlong⟩
  · refine ⟨[], ?_⟩
    intro f
    rw [readWindow, bind_assoc, (readU64_reads payload 64).noPanic_bind_iff]
    dsimp only
    rw [bind_assoc, (readU64_reads payload (64 + 8)).noPanic_bind_iff]
    constructor
    · intro _ h
      exact absurd h hlong
    · intro _ _ h
      exact absurd h hlong

theorem noPanic_readWindowedParts_bind (payload : List UInt8) :
    exists parts : WindowedParts, parts.leafOffset = declaredLeafOffset payload ∧
      forall f : WindowedParts × Nat -> Outcome TreeError α,
        NoPanic (readWindowedParts .checked payload 8 >>= f) ↔
          WindowedFits payload (fun pos => NoPanic (f (parts, pos))) := by
  rcases noPanic_readWindow_bind (α := α) payload with ⟨roots, hroots⟩
  rcases noPanic_readBlockRecords_bind (α := α) payload
    (80 + declaredPrefetchedCount payload * 32) (declaredBlockCount payload) with
    ⟨blocks, hblocks⟩
  rcases noPanic_readLeaves_bind (α := α) payload
    (80 + declaredPrefetchedCount payload * 32 +
      declaredBlockCount payload * blockRecordSize)
    (declaredTreeSize payload - declaredLeafOffset payload) with ⟨leaves, hleaves⟩
  refine ⟨{ leafOffset := declaredLeafOffset payload
            prefetchedShardRoots := roots
            blocks := blocks
            leaves := leaves }, rfl, ?_⟩
  intro f
  rw [readWindowedParts, bind_assoc, (readHeader_reads payload).noPanic_bind_iff]
  dsimp only
  rw [bind_assoc, hroots, WindowedFits]
  have hheader : 80 ≤ payload.length -> 64 ≤ payload.length :=
    fun hlong => Nat.le_trans (by decide) hlong
  refine Iff.trans ⟨fun h hlong => h (hheader hlong) hlong, fun h _ => h⟩ ?_
  apply imp_congr_right
  intro _
  apply and_congr_right
  intro _
  apply imp_congr_right
  intro _
  dsimp only
  rw [bind_assoc, hblocks, WindowedRecordsFit]
  apply and_congr_right
  intro _
  apply imp_congr_right
  intro _
  dsimp only
  rw [bind_assoc, Arithmetic.noPanic_sub_bind]
  apply and_congr_right
  intro _
  split
  · next hdiffer => exact ⟨fun _ hequal => absurd hequal hdiffer, fun _ => noPanic_error _⟩
  · next hequal =>
      rw [bind_assoc, hleaves]
      exact ⟨fun h _ => h, fun h => h (not_ne_iff.mp hequal)⟩

theorem noPanic_fromSnapshotV1_iff (payload : List UInt8) :
    NoPanic (fromSnapshotV1 .checked payload 8) ↔ FitsV1 payload := by
  rcases noPanic_readBlockRecords_bind (α := CommitmentTreeDb) payload 64
    (declaredBlockCount payload) with ⟨blocks, hblocks⟩
  rcases noPanic_readLeaves_bind (α := CommitmentTreeDb) payload
    (64 + declaredBlockCount payload * blockRecordSize) (declaredTreeSize payload) with
    ⟨leaves, hleaves⟩
  rw [fromSnapshotV1, (readHeader_reads payload).noPanic_bind_iff, FitsV1]
  apply imp_congr_right
  intro _
  dsimp only
  rw [hblocks]
  apply and_congr_right
  intro _
  apply imp_congr_right
  intro _
  dsimp only
  split
  · next hdiffer => exact ⟨fun _ hequal => absurd hequal hdiffer, fun _ => noPanic_error _⟩
  · next hequal =>
      rw [hleaves]
      constructor
      · intro h _
        exact h.left
      · intro h
        exact ⟨h (not_ne_iff.mp hequal), fun _ => noPanic_ok _⟩

theorem noPanic_assemble_iff {parts : WindowedParts}
    (hoffset : parts.leafOffset = declaredLeafOffset payload)
    (cache : Fin l0DbRows -> Option Hash) :
    NoPanic (assemble .checked parts cache) ↔ AlignedOffset payload := by
  unfold assemble AlignedOffset
  rw [hoffset]
  split
  · next hmisaligned =>
      exact ⟨fun h => absurd rfl h, fun h => absurd h hmisaligned.right⟩
  · next haligned =>
      constructor
      · intro _
        by_contra h
        exact haligned ⟨rfl, h⟩
      · intro _
        exact noPanic_ok _

theorem noPanic_fromSnapshotV2_iff (payload : List UInt8) :
    NoPanic (fromSnapshotV2 .checked payload 8) ↔
      WindowedFits payload (fun _ => AlignedOffset payload) := by
  rcases noPanic_readWindowedParts_bind (α := CommitmentTreeDb) payload with
    ⟨parts, hoffset, hparts⟩
  have hassemble : (fun _ : Nat => NoPanic (assemble .checked parts (fun _ => none))) =
      fun _ => AlignedOffset payload :=
    funext (fun _ => propext (noPanic_assemble_iff hoffset _))
  rw [fromSnapshotV2, hparts]
  exact iff_of_eq (congrArg (WindowedFits payload) hassemble)

theorem noPanic_fromSnapshotV3_iff (payload : List UInt8) :
    NoPanic (fromSnapshotV3 .checked payload 8) ↔
      WindowedFits payload (AlignedAfterCache payload) := by
  rcases noPanic_readWindowedParts_bind (α := CommitmentTreeDb) payload with
    ⟨parts, hoffset, hparts⟩
  rw [fromSnapshotV3, hparts]
  apply iff_of_eq
  congr 1
  funext pos
  apply propext
  dsimp only
  rw [(readU64_reads payload pos).noPanic_bind_iff, AlignedAfterCache]
  apply imp_congr_right
  intro hcount
  dsimp only
  rcases readCacheLoop_reads (u64At payload pos) (fun _ => none) hcount with
    ⟨cache, hcache⟩
  rw [hcache.noPanic_bind_iff]
  apply imp_congr_right
  intro _
  exact noPanic_assemble_iff hoffset cache

theorem noPanic_fromPayload_iff (payload : List UInt8) :
    NoPanic (fromPayload .checked payload) ↔ DeclaredFits payload := by
  have hone : snapshotMagicV1 ≠ snapshotMagicV2 := by decide
  have htwo : snapshotMagicV1 ≠ snapshotMagicV3 := by decide
  have hthree : snapshotMagicV2 ≠ snapshotMagicV3 := by decide
  rw [fromPayload, (readU64_reads payload 0).noPanic_bind_iff, Nat.zero_add, DeclaredFits]
  apply imp_congr_right
  intro _
  dsimp only
  by_cases h1 : u64At payload 0 = snapshotMagicV1
  · rw [if_pos h1, noPanic_fromSnapshotV1_iff, h1]
    simp [hone, htwo]
  · rw [if_neg h1]
    by_cases h2 : u64At payload 0 = snapshotMagicV2
    · rw [if_pos h2, noPanic_fromSnapshotV2_iff, h2]
      simp [hone.symm, hthree]
    · rw [if_neg h2]
      by_cases h3 : u64At payload 0 = snapshotMagicV3
      · rw [if_pos h3, noPanic_fromSnapshotV3_iff, h3]
        simp [htwo.symm, hthree.symm]
      · rw [if_neg h3]
        simp [h1, h2, h3, corrupted, noPanic_error]

end Checked

/-!
## The wrapping build
-/

theorem follows_checkEnd (payload : List UInt8) (pos count size : Nat) (reason : String) :
    Follows (checkEnd .wrapping payload pos count size reason)
      (checkEnd .checked payload pos count size reason) := by
  apply (Arithmetic.follows_fit 64 (count * size)).bind
  intro bytes
  apply (Arithmetic.follows_fit 64 (pos + bytes)).bind
  intro stop
  exact .refl _

theorem follows_readBlockRecordLoop (payload : List UInt8) (count pos : Nat)
    (acc : List BlockRecord) (total : Nat) :
    Follows (readBlockRecordLoop .wrapping payload count pos acc total)
      (readBlockRecordLoop .checked payload count pos acc total) := by
  induction count generalizing pos acc total with
  | zero => exact .refl _
  | succ count ih =>
      apply (Follows.refl (readBlockRecord payload pos)).bind
      rintro ⟨record, pos'⟩
      apply (Arithmetic.follows_fit 64 (total + record.numCommitments)).bind
      intro total'
      exact ih pos' (acc ++ [record]) total'

theorem follows_readBlockRecords (payload : List UInt8) (pos count : Nat) :
    Follows (readBlockRecords .wrapping payload pos count)
      (readBlockRecords .checked payload pos count) := by
  apply (follows_checkEnd payload pos count blockRecordSize _).bind
  intro _
  apply (Follows.refl (withCapacity blockRecordMemSize count)).bind
  intro _
  exact follows_readBlockRecordLoop payload count pos [] 0

theorem follows_readLeaves (payload : List UInt8) (pos count : Nat) :
    Follows (readLeaves .wrapping payload pos count)
      (readLeaves .checked payload pos count) := by
  apply (follows_checkEnd payload pos count 32 _).bind
  intro _
  exact .refl _

theorem follows_fromSnapshotV1 (payload : List UInt8) (pos : Nat) :
    Follows (fromSnapshotV1 .wrapping payload pos) (fromSnapshotV1 .checked payload pos) := by
  apply (Follows.refl (readHeader payload pos)).bind
  rintro ⟨⟨treeSize, blockCount⟩, pos⟩
  apply (follows_readBlockRecords payload pos blockCount).bind
  rintro ⟨⟨blocks, total⟩, pos⟩
  dsimp only
  split
  · exact .refl _
  · apply (follows_readLeaves payload pos treeSize).bind
    intro _
    exact .refl _

theorem follows_readWindowedParts (payload : List UInt8) (pos : Nat) :
    Follows (readWindowedParts .wrapping payload pos)
      (readWindowedParts .checked payload pos) := by
  apply (Follows.refl (readHeader payload pos)).bind
  rintro ⟨⟨treeSize, blockCount⟩, pos⟩
  apply (Follows.refl (readWindow payload pos)).bind
  rintro ⟨⟨leafOffset, roots⟩, pos⟩
  apply (follows_readBlockRecords payload pos blockCount).bind
  rintro ⟨⟨blocks, total⟩, pos⟩
  apply (Arithmetic.follows_sub 64 treeSize leafOffset).bind
  intro localLeaves
  dsimp only
  split
  · exact .refl _
  · apply (follows_readLeaves payload pos localLeaves).bind
    intro _
    exact .refl _

theorem follows_assemble (parts : WindowedParts) (cache : Fin l0DbRows -> Option Hash) :
    Follows (assemble .wrapping parts cache) (assemble .checked parts cache) := by
  intro h
  unfold assemble at h ⊢
  split
  · next hwrapping => cases hwrapping.left
  · split at h
    · exact absurd rfl h
    · next haligned => rw [if_neg haligned]

theorem follows_fromSnapshotV2 (payload : List UInt8) (pos : Nat) :
    Follows (fromSnapshotV2 .wrapping payload pos) (fromSnapshotV2 .checked payload pos) := by
  apply (follows_readWindowedParts payload pos).bind
  rintro ⟨parts, _⟩
  exact follows_assemble parts _

theorem follows_fromSnapshotV3 (payload : List UInt8) (pos : Nat) :
    Follows (fromSnapshotV3 .wrapping payload pos) (fromSnapshotV3 .checked payload pos) := by
  apply (follows_readWindowedParts payload pos).bind
  rintro ⟨parts, pos⟩
  apply (Follows.refl (readU64 payload pos)).bind
  rintro ⟨cachedCount, pos⟩
  apply (Follows.refl (readCacheLoop payload cachedCount pos (fun _ => none))).bind
  intro cache
  exact follows_assemble parts cache

theorem follows_fromPayload (payload : List UInt8) :
    Follows (fromPayload .wrapping payload) (fromPayload .checked payload) := by
  apply (Follows.refl (readU64 payload 0)).bind
  rintro ⟨magic, pos⟩
  dsimp only
  split
  · exact follows_fromSnapshotV1 payload pos
  · split
    · exact follows_fromSnapshotV2 payload pos
    · split
      · exact follows_fromSnapshotV3 payload pos
      · exact .refl _

theorem follows_fromSnapshot (xxh64 : List UInt8 -> Nat -> UInt64) (data : List UInt8) :
    Follows (fromSnapshot .wrapping xxh64 data) (fromSnapshot .checked xxh64 data) := by
  unfold fromSnapshot
  split
  · exact .refl _
  · dsimp only
    split
    · exact .refl _
    · exact follows_fromPayload _

/-!
## The sum of the block records
-/

theorem readBlockRecordLoop_sum {payload : List UInt8} {count pos total : Nat}
    {acc blocks : List BlockRecord} {total' pos' : Nat}
    (h : readBlockRecordLoop .checked payload count pos acc total =
      .ok ((blocks, total'), pos')) :
    (blocks.map BlockRecord.numCommitments).sum + total =
      (acc.map BlockRecord.numCommitments).sum + total' := by
  induction count generalizing pos acc total with
  | zero =>
      cases h
      rfl
  | succ count ih =>
      rcases bind_eq_ok.mp h with ⟨⟨record, next⟩, _, hrest⟩
      rcases bind_eq_ok.mp hrest with ⟨sum, hsum, hloop⟩
      have hexact : sum = total + record.numCommitments :=
        Arithmetic.fit_checked_eq_ok hsum
      have hlater := ih hloop
      rw [List.map_append, List.sum_append, List.map_singleton, List.sum_singleton,
        hexact] at hlater
      lia

theorem readBlockRecords_sum {payload : List UInt8} {pos count : Nat}
    {blocks : List BlockRecord} {total pos' : Nat}
    (h : readBlockRecords .checked payload pos count = .ok ((blocks, total), pos')) :
    (blocks.map BlockRecord.numCommitments).sum = total := by
  rcases bind_eq_ok.mp h with ⟨_, _, hrest⟩
  rcases bind_eq_ok.mp hrest with ⟨_, _, hloop⟩
  have hsum := readBlockRecordLoop_sum hloop
  rw [List.map_nil, List.sum_nil, Nat.add_zero, Nat.zero_add] at hsum
  exact hsum

theorem readLeafLoop_length {payload : List UInt8} {count pos : Nat}
    {acc leaves : List Hash} {pos' : Nat}
    (h : readLeafLoop payload count pos acc = .ok (leaves, pos')) :
    leaves.length = acc.length + count := by
  induction count generalizing pos acc with
  | zero =>
      cases h
      rfl
  | succ count ih =>
      rcases bind_eq_ok.mp h with ⟨leaf, _, hloop⟩
      rw [ih hloop, List.length_append, List.length_singleton]
      lia

theorem readLeaves_length {mode : Arithmetic} {payload : List UInt8} {pos count : Nat}
    {leaves : List Hash} {pos' : Nat}
    (h : readLeaves mode payload pos count = .ok (leaves, pos')) :
    leaves.length = count := by
  rcases bind_eq_ok.mp h with ⟨_, _, hrest⟩
  rcases bind_eq_ok.mp hrest with ⟨_, _, hloop⟩
  have hlen := readLeafLoop_length hloop
  rw [List.length_nil, Nat.zero_add] at hlen
  exact hlen

theorem sum_eq_length {payload : List UInt8} {pos₁ pos₂ pos₁' pos₂' blockCount total : Nat}
    {blocks : List BlockRecord} {leaves : List Hash}
    (hblocks : readBlockRecords .checked payload pos₁ blockCount =
      .ok ((blocks, total), pos₁'))
    (hleaves : readLeaves .checked payload pos₂ total = .ok (leaves, pos₂')) :
    (blocks.map BlockRecord.numCommitments).sum = leaves.length := by
  rw [readBlockRecords_sum hblocks, readLeaves_length hleaves]

theorem fromSnapshotV1_sum {payload : List UInt8} {pos : Nat} {t : CommitmentTreeDb}
    (h : fromSnapshotV1 .checked payload pos = .ok t) :
    t.totalCommitments = t.leaves.length := by
  rcases bind_eq_ok.mp h with ⟨⟨⟨treeSize, blockCount⟩, pos⟩, _, hrest⟩
  rcases bind_eq_ok.mp hrest with ⟨⟨⟨blocks, total⟩, pos⟩, hblocks, htail⟩
  dsimp only at htail
  split at htail
  · cases htail
  · next hequal =>
      rcases bind_eq_ok.mp htail with ⟨⟨leaves, _⟩, hleaves, hreturn⟩
      cases hreturn
      rw [← not_ne_iff.mp hequal] at hleaves
      exact sum_eq_length hblocks hleaves

theorem readWindowedParts_sum {payload : List UInt8} {pos pos' : Nat}
    {parts : WindowedParts} (h : readWindowedParts .checked payload pos = .ok (parts, pos')) :
    (parts.blocks.map BlockRecord.numCommitments).sum = parts.leaves.length := by
  rcases bind_eq_ok.mp h with ⟨⟨⟨treeSize, blockCount⟩, pos⟩, _, hrest⟩
  rcases bind_eq_ok.mp hrest with ⟨⟨⟨leafOffset, roots⟩, pos⟩, _, hafterWindow⟩
  rcases bind_eq_ok.mp hafterWindow with ⟨⟨⟨blocks, total⟩, pos⟩, hblocks, hafterBlocks⟩
  rcases bind_eq_ok.mp hafterBlocks with ⟨localLeaves, _, htail⟩
  dsimp only at htail
  split at htail
  · cases htail
  · next hequal =>
      rcases bind_eq_ok.mp htail with ⟨⟨leaves, _⟩, hleaves, hreturn⟩
      cases hreturn
      rw [← not_ne_iff.mp hequal] at hleaves
      exact sum_eq_length hblocks hleaves

theorem assemble_eq_ok {mode : Arithmetic} {parts : WindowedParts}
    {cache : Fin l0DbRows -> Option Hash} {t : CommitmentTreeDb}
    (h : assemble mode parts cache = .ok t) :
    t.blocks = parts.blocks ∧ t.leaves = parts.leaves := by
  unfold assemble at h
  split at h
  · cases h
  · cases h
    exact ⟨rfl, rfl⟩

theorem fromPayload_sum {payload : List UInt8} {t : CommitmentTreeDb}
    (h : fromPayload .checked payload = .ok t) :
    t.totalCommitments = t.leaves.length := by
  rcases bind_eq_ok.mp h with ⟨⟨magic, pos⟩, _, hrest⟩
  dsimp only at hrest
  split at hrest
  · exact fromSnapshotV1_sum hrest
  · split at hrest
    · rcases bind_eq_ok.mp hrest with ⟨⟨parts, pos⟩, hparts, hassemble⟩
      rcases assemble_eq_ok hassemble with ⟨hblocks, hleaves⟩
      rw [totalCommitments, hblocks, hleaves]
      exact readWindowedParts_sum hparts
    · split at hrest
      · rcases bind_eq_ok.mp hrest with ⟨⟨parts, pos⟩, hparts, hafter⟩
        rcases bind_eq_ok.mp hafter with ⟨⟨cachedCount, pos⟩, _, hcache⟩
        rcases bind_eq_ok.mp hcache with ⟨cache, _, hassemble⟩
        rcases assemble_eq_ok hassemble with ⟨hblocks, hleaves⟩
        rw [totalCommitments, hblocks, hleaves]
        exact readWindowedParts_sum hparts
      · cases hrest

theorem fromSnapshot_sum {xxh64 : List UInt8 -> Nat -> UInt64} {data : List UInt8}
    {t : CommitmentTreeDb} (h : fromSnapshot .checked xxh64 data = .ok t) :
    t.totalCommitments = t.leaves.length := by
  unfold fromSnapshot at h
  split at h
  · cases h
  · dsimp only at h
    split at h
    · cases h
    · exact fromPayload_sum h

/-!
## Decoding
-/

theorem noPanic_fromSnapshot_iff (xxh64 : List UInt8 -> Nat -> UInt64)
    (data : List UInt8) :
    NoPanic (fromSnapshot .checked xxh64 data) ↔ SnapshotFits xxh64 data := by
  unfold fromSnapshot SnapshotFits
  split
  · next hshort =>
      exact ⟨fun _ hlong => absurd hshort (Nat.not_lt_of_le hlong), fun _ => noPanic_error _⟩
  · next hlong =>
      dsimp only
      split
      · next hmismatch =>
          exact ⟨fun _ _ hequal => absurd hequal hmismatch, fun _ => noPanic_error _⟩
      · next hequal =>
          rw [noPanic_fromPayload_iff]
          exact ⟨fun h _ _ => h, fun h =>
            h (Nat.le_of_not_lt hlong) (not_ne_iff.mp hequal)⟩

/-- Decoding returns in both builds, with block records that sum to the leaves, exactly
when the declared fields fit. -/
theorem fromSnapshot_total_iff (xxh64 : List UInt8 -> Nat -> UInt64) (data : List UInt8) :
    ((forall mode, fromSnapshot mode xxh64 data ≠ .error .panic) ∧
      forall mode t, fromSnapshot mode xxh64 data = .ok t ->
        (t.blocks.map BlockRecord.numCommitments).sum = t.leaves.length) ↔
    SnapshotFits xxh64 data := by
  rw [← noPanic_fromSnapshot_iff]
  constructor
  · intro h
    exact h.left .checked
  · intro h
    have hsame : forall mode,
        fromSnapshot mode xxh64 data = fromSnapshot .checked xxh64 data := by
      intro mode
      cases mode with
      | checked => rfl
      | wrapping => exact follows_fromSnapshot xxh64 data h
    constructor
    · intro mode
      rw [hsame]
      exact h
    · intro mode t ht
      rw [hsame] at ht
      exact fromSnapshot_sum ht

/-- A version 3 payload that declares as many prefetched roots as its field can. -/
def manyRootsPayload : List UInt8 :=
  leBytes 8 snapshotMagicV3 ++
    (List.replicate 56 0 ++ (List.replicate 8 0 ++ leBytes 8 (2 ^ 64 - 1)))

/-- The roots are allocated before they are read, whatever the build. -/
theorem fromSnapshot_manyRoots :
    ¬ exists (xxh64 : List UInt8 -> Nat -> UInt64) (mode : Arithmetic),
      fromSnapshot mode xxh64 (sealPayload xxh64 manyRootsPayload) ≠ .error .panic := by
  rintro ⟨xxh64, mode, hreturns⟩
  apply hreturns
  rw [fromSnapshot_sealPayload mode (by decide)]
  cases mode <;> rfl

end CommitmentTreeDb
end Witness
end SpendabilityPir
