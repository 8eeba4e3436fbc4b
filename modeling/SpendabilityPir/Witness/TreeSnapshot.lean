import SpendabilityPir.Witness.CommitmentTree

/-!
# Tree snapshots

The version 3 snapshot and its two older layouts: version 2 has no cached roots,
version 1 no window either.  Decoding panics where the code indexes, allocates or
computes past a limit, so it depends on how the build treats overflow.
-/

namespace SpendabilityPir
namespace Witness

open Foundation

inductive TreeError where
  | snapshotCorrupted (reason : String)
deriving DecidableEq

namespace CommitmentTreeDb

def snapshotMagicV1 : Nat := 0x434D545245450001
def snapshotMagicV2 : Nat := 0x434D545245450002
def snapshotMagicV3 : Nat := 0x434D545245450003

def blockRecordSize : Nat := 8 + 32 + 4

/-- Size of a block record in memory, padded to its alignment. -/
def blockRecordMemSize : Nat := 48

def maxVecLen : Nat := 2 ^ 63 - 1

/-!
## Writing
-/

def headerBytes (t : CommitmentTreeDb) : List UInt8 :=
  leBytes 8 t.treeSize ++ (leBytes 8 t.blocks.length ++
    (leBytes 8 (t.latestHeight.getD 0) ++
      (t.latestBlockHash.getD (ByteVec.zeros 32)).toList))

def windowBytes (t : CommitmentTreeDb) : List UInt8 :=
  leBytes 8 t.leafOffset ++ (leBytes 8 t.prefetchedShardRoots.length ++
    t.prefetchedShardRoots.flatMap List.Vector.toList)

def blockRecordBytes (block : BlockRecord) : List UInt8 :=
  leBytes 8 block.height ++ (block.hash.toList ++ leBytes 4 block.numCommitments)

def bodyBytes (t : CommitmentTreeDb) : List UInt8 :=
  t.blocks.flatMap blockRecordBytes ++ t.leaves.flatMap List.Vector.toList

def cachedEntries (t : CommitmentTreeDb) : List (Nat × Hash) :=
  (List.finRange l0DbRows).filterMap
    (fun i => (t.ssRootCache i).map (fun root => (i.val, root)))

def cacheEntryBytes (entry : Nat × Hash) : List UInt8 :=
  leBytes 4 entry.1 ++ entry.2.toList

def cacheBytes (t : CommitmentTreeDb) : List UInt8 :=
  leBytes 8 t.cachedEntries.length ++ t.cachedEntries.flatMap cacheEntryBytes

def payloadV1 (t : CommitmentTreeDb) : List UInt8 :=
  leBytes 8 snapshotMagicV1 ++ (t.headerBytes ++ t.bodyBytes)

def payloadV2 (t : CommitmentTreeDb) : List UInt8 :=
  leBytes 8 snapshotMagicV2 ++ (t.headerBytes ++ (t.windowBytes ++ t.bodyBytes))

def payloadV3 (t : CommitmentTreeDb) : List UInt8 :=
  leBytes 8 snapshotMagicV3 ++
    (t.headerBytes ++ (t.windowBytes ++ (t.bodyBytes ++ t.cacheBytes)))

def sealPayload (xxh64 : List UInt8 -> Nat -> UInt64) (payload : List UInt8) :
    List UInt8 :=
  payload ++ leBytes 8 (xxh64 payload 0).toNat

def toSnapshot (xxh64 : List UInt8 -> Nat -> UInt64) (t : CommitmentTreeDb) :
    List UInt8 :=
  sealPayload xxh64 t.payloadV3

/-!
## Reading
-/

def corrupted {α : Type} (reason : String) : Outcome TreeError α :=
  .error (.error (.snapshotCorrupted reason))

def readU64 (payload : List UInt8) (pos : Nat) : Outcome TreeError (Nat × Nat) :=
  match bytesAt? 8 payload pos with
  | none => corrupted "unexpected EOF reading u64"
  | some bytes => .ok (leNat bytes.toList, pos + 8)

/-- A slice of the payload; one out of bounds panics. -/
def sliceAt (n : Nat) (payload : List UInt8) (pos : Nat) :
    Outcome TreeError (ByteVec n) :=
  Outcome.ofPanics (bytesAt? n payload pos)

def withCapacity (elementSize count : Nat) : Outcome TreeError Unit :=
  if elementSize * count ≤ maxVecLen then .ok () else .error .panic

def skipLatestHash (payload : List UInt8) (pos : Nat) : Outcome TreeError Nat :=
  if pos + 32 > payload.length then corrupted "unexpected EOF reading latest_hash"
  else .ok (pos + 32)

/-- The header fields that are used: tree size and block count. -/
def readHeader (payload : List UInt8) (pos : Nat) :
    Outcome TreeError ((Nat × Nat) × Nat) := do
  let (treeSize, pos) <- readU64 payload pos
  let (blockCount, pos) <- readU64 payload pos
  let (_, pos) <- readU64 payload pos
  let pos <- skipLatestHash payload pos
  return ((treeSize, blockCount), pos)

def readPrefetchedRoots (payload : List UInt8) :
    Nat -> Nat -> List Hash -> Outcome TreeError (List Hash × Nat)
  | 0, pos, roots => .ok (roots, pos)
  | n + 1, pos, roots =>
      match bytesAt? 32 payload pos with
      | none => corrupted "prefetched roots truncated"
      | some root => readPrefetchedRoots payload n (pos + 32) (roots ++ [root])

def readWindow (payload : List UInt8) (pos : Nat) :
    Outcome TreeError ((Nat × List Hash) × Nat) := do
  let (leafOffset, pos) <- readU64 payload pos
  let (prefetchedCount, pos) <- readU64 payload pos
  let _ <- withCapacity 32 prefetchedCount
  let (roots, pos) <- readPrefetchedRoots payload prefetchedCount pos []
  return ((leafOffset, roots), pos)

section Modes

variable (mode : Arithmetic)

def readBlockRecord (payload : List UInt8) (pos : Nat) :
    Outcome TreeError (BlockRecord × Nat) := do
  let height <- sliceAt 8 payload pos
  let hash <- sliceAt 32 payload (pos + 8)
  let numCommitments <- sliceAt 4 payload (pos + 8 + 32)
  return (
    { height := leNat height.toList
      hash := hash
      numCommitments := leNat numCommitments.toList },
    pos + 8 + 32 + 4)

def readBlockRecordLoop (payload : List UInt8) :
    Nat -> Nat -> List BlockRecord -> Nat ->
      Outcome TreeError ((List BlockRecord × Nat) × Nat)
  | 0, pos, blocks, total => .ok ((blocks, total), pos)
  | n + 1, pos, blocks, total => do
      let (block, pos) <- readBlockRecord payload pos
      let total <- mode.add 64 total block.numCommitments
      readBlockRecordLoop payload n pos (blocks ++ [block]) total

/-- The end of a table of records, which has to be inside the payload. -/
def checkEnd (payload : List UInt8) (pos count size : Nat) (reason : String) :
    Outcome TreeError Unit := do
  let bytes <- mode.mul 64 count size
  let stop <- mode.add 64 pos bytes
  if stop > payload.length then corrupted reason else .ok ()

/-- The block records and the sum of their commitment counts. -/
def readBlockRecords (payload : List UInt8) (pos count : Nat) :
    Outcome TreeError ((List BlockRecord × Nat) × Nat) := do
  let _ <- checkEnd mode payload pos count blockRecordSize "block records truncated"
  let _ <- withCapacity blockRecordMemSize count
  readBlockRecordLoop mode payload count pos [] 0

def readLeafLoop (payload : List UInt8) :
    Nat -> Nat -> List Hash -> Outcome TreeError (List Hash × Nat)
  | 0, pos, leaves => .ok (leaves, pos)
  | n + 1, pos, leaves => do
      let leaf <- sliceAt 32 payload pos
      readLeafLoop payload n (pos + 32) (leaves ++ [leaf])

def readLeaves (payload : List UInt8) (pos count : Nat) :
    Outcome TreeError (List Hash × Nat) := do
  let _ <- checkEnd mode payload pos count 32 "leaf data truncated"
  let _ <- withCapacity 32 count
  readLeafLoop payload count pos []

def setSlot (cache : Fin l0DbRows -> Option Hash) (slot : Nat) (root : Hash) :
    Fin l0DbRows -> Option Hash :=
  fun i => if i.val = slot then some root else cache i

def readCacheLoop (payload : List UInt8) :
    Nat -> Nat -> (Fin l0DbRows -> Option Hash) ->
      Outcome TreeError (Fin l0DbRows -> Option Hash)
  | 0, _, cache => .ok cache
  | n + 1, pos, cache =>
      if pos + 4 + 32 > payload.length then corrupted "cache entry truncated"
      else do
        let slot <- sliceAt 4 payload pos
        let root <- sliceAt 32 payload (pos + 4)
        readCacheLoop payload n (pos + 4 + 32) (setSlot cache (leNat slot.toList) root)

def fromSnapshotV1 (payload : List UInt8) (pos : Nat) :
    Outcome TreeError CommitmentTreeDb := do
  let ((treeSize, blockCount), pos) <- readHeader payload pos
  let ((blocks, totalCommitments), pos) <- readBlockRecords mode payload pos blockCount
  if totalCommitments ≠ treeSize then
    corrupted ("block records sum to " ++ toString totalCommitments ++
      " commitments but header says " ++ toString treeSize)
  else
    let (leaves, _) <- readLeaves mode payload pos treeSize
    return { new with leaves := leaves, blocks := blocks }

/-- What versions 2 and 3 store of a tree besides its cache. -/
structure WindowedParts where
  leafOffset : Nat
  prefetchedShardRoots : List Hash
  blocks : List BlockRecord
  leaves : List Hash

def readWindowedParts (payload : List UInt8) (pos : Nat) :
    Outcome TreeError (WindowedParts × Nat) := do
  let ((treeSize, blockCount), pos) <- readHeader payload pos
  let ((leafOffset, prefetchedShardRoots), pos) <- readWindow payload pos
  let ((blocks, totalCommitments), pos) <- readBlockRecords mode payload pos blockCount
  let localLeaves <- mode.sub 64 treeSize leafOffset
  if totalCommitments ≠ localLeaves then
    corrupted ("block records sum to " ++ toString totalCommitments ++
      " but expected " ++ toString localLeaves ++ " local leaves")
  else
    let (leaves, pos) <- readLeaves mode payload pos localLeaves
    return (
      { leafOffset := leafOffset
        prefetchedShardRoots := prefetchedShardRoots
        blocks := blocks
        leaves := leaves },
      pos)

/-- A tree from its parts; a checked build asserts that the offset is aligned. -/
def assemble (parts : WindowedParts) (ssRootCache : Fin l0DbRows -> Option Hash) :
    Outcome TreeError CommitmentTreeDb :=
  if mode = .checked ∧ parts.leafOffset % shardLeaves ≠ 0 then .error .panic
  else .ok {
    leaves := parts.leaves
    blocks := parts.blocks
    leafOffset := parts.leafOffset
    prefetchedShardRoots := parts.prefetchedShardRoots
    ssRootCache := ssRootCache }

def fromSnapshotV2 (payload : List UInt8) (pos : Nat) :
    Outcome TreeError CommitmentTreeDb := do
  let (parts, _) <- readWindowedParts mode payload pos
  assemble mode parts (fun _ => none)

def fromSnapshotV3 (payload : List UInt8) (pos : Nat) :
    Outcome TreeError CommitmentTreeDb := do
  let (parts, pos) <- readWindowedParts mode payload pos
  let (cachedCount, pos) <- readU64 payload pos
  let ssRootCache <- readCacheLoop payload cachedCount pos (fun _ => none)
  assemble mode parts ssRootCache

def hex64 (n : Nat) : String :=
  let digits := Nat.toDigits 16 n
  "0x" ++ String.ofList (List.replicate (16 - digits.length) '0' ++ digits)

def fromPayload (payload : List UInt8) : Outcome TreeError CommitmentTreeDb := do
  let (magic, pos) <- readU64 payload 0
  if magic = snapshotMagicV1 then fromSnapshotV1 mode payload pos
  else if magic = snapshotMagicV2 then fromSnapshotV2 mode payload pos
  else if magic = snapshotMagicV3 then fromSnapshotV3 mode payload pos
  else corrupted ("bad magic: " ++ hex64 magic)

def fromSnapshot (xxh64 : List UInt8 -> Nat -> UInt64) (data : List UInt8) :
    Outcome TreeError CommitmentTreeDb :=
  if data.length < 8 + 8 then corrupted "data too short"
  else
    let payload := data.take (data.length - 8)
    let storedChecksum := leNat (slice data (data.length - 8) 8)
    if storedChecksum ≠ (xxh64 payload 0).toNat then corrupted "checksum mismatch"
    else fromPayload mode payload

end Modes
end CommitmentTreeDb
end Witness
end SpendabilityPir
