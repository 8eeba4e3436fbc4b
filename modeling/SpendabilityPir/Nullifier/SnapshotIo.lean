import SpendabilityPir.Foundation.AtomicReplace
import SpendabilityPir.Nullifier.SnapshotCatchUp

/-!
# The snapshot file of the nullifier server

A snapshot is written to a temporary file, synced and renamed.  Whatever interrupts this,
a load finds no file or a table that was being saved.
-/

namespace SpendabilityPir
namespace Nullifier

open Foundation Shared

def snapshotFilename : String := "snapshot.bin"
def snapshotTmpFilename : String := "snapshot.bin.tmp"

inductive SnapshotIoError where
  | io
  | decode (e : HashTableError)
deriving DecidableEq

/-- What `save_snapshot` does to the data directory, call by call, and what may happen to
it in between. -/
abbrev SaveStep : Replacing String -> ReplaceLabel -> Replacing String -> Prop :=
  ReplaceStep snapshotTmpFilename snapshotFilename

variable (xxh64 : List UInt8 -> Nat -> UInt64)

def loadSnapshot (fs : FileSystem String) : Except SnapshotIoError HashTableDb :=
  match fs.read snapshotFilename with
  | none => .error .io
  | some data =>
      match HashTableDb.fromSnapshot xxh64 data with
      | .error e => .error (.decode e)
      | .ok db => .ok db

/-- The bytes are the snapshot of a table of a kind. -/
def SavedFrom (P : HashTableDb -> Prop) (data : List UInt8) : Prop :=
  exists db, P db ∧ db.Consistent ∧ db.toSnapshot xxh64 = some data

variable {xxh64}

theorem snapshotFilenames_ne : snapshotTmpFilename ≠ snapshotFilename := by decide

theorem loadSnapshot_of_read {fs : FileSystem String} {db : HashTableDb}
    {data : List UInt8} (hcons : db.Consistent) (hsave : db.toSnapshot xxh64 = some data)
    (hread : fs.read snapshotFilename = some data) :
    loadSnapshot xxh64 fs = .ok db.recounted := by
  rw [loadSnapshot, hread]
  simp only [HashTableDb.fromSnapshot_toSnapshot hcons hsave]

theorem loadSnapshot_of_offers {s : Replacing String} {a : AtomicFile}
    {P : HashTableDb -> Prop} (h : StandsFor snapshotTmpFilename snapshotFilename s a)
    (hoffers : a.Offers (SavedFrom xxh64 P)) :
    loadSnapshot xxh64 s.fs = .error .io ∨
      exists db, P db ∧ loadSnapshot xxh64 s.fs = .ok db.recounted := by
  rcases h.read_of_offers hoffers with hnone | ⟨data, hread, db, hdb, hcons, hsave⟩
  · left
    simp only [loadSnapshot, hnone]
  · exact Or.inr ⟨db, hdb, loadSnapshot_of_read hcons hsave hread⟩

theorem HashTableDb.HoldsThroughLatest.recounted {db : HashTableDb} {chain : ChainView}
    (h : db.HoldsThroughLatest chain) : db.recounted.HoldsThroughLatest chain := by
  rcases HashTableDb.holdsThroughLatest_iff.mp h with ⟨lo, hi, live, hrep, hlive⟩
  exact HashTableDb.holdsThroughLatest_iff.mpr
    ⟨lo, hi, live, HashTableDb.represents_recounted hrep, hlive⟩

theorem HashTableDb.HoldsThroughLatest.consistent {db : HashTableDb} {chain : ChainView}
    (h : db.HoldsThroughLatest chain) : db.Consistent := by
  rcases h with ⟨_, _, hrep, _⟩
  exact hrep.consistent

end Nullifier
end SpendabilityPir
