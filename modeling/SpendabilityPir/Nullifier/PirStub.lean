import SpendabilityPir.Nullifier.SpendServer
import SpendabilityPir.Shared.PirProtocol

/-!
# The stub engine of the nullifier server
-/

namespace SpendabilityPir
namespace Nullifier

open Foundation Shared

inductive StubPirError where
  | invalidQuery (length : Nat)
  | outOfRange (idx : Nat)
deriving DecidableEq

structure StubServerState where
  buckets : List UInt8
  numItems : Nat

/-- The bucket at the index of the query; a bucket past the end of the database panics. -/
def stubAnswerQuery (state : StubServerState) (queryBytes : List UInt8) :
    Outcome StubPirError (List UInt8) :=
  if queryBytes.length < 4 then .error (.error (.invalidQuery queryBytes.length))
  else
    let idx := stubIndex queryBytes
    if idx ≥ state.numItems then .error (.error (.outOfRange idx))
    else
      let start := idx * bucketBytes
      if start + bucketBytes ≤ state.buckets.length then
        .ok (slice state.buckets start bucketBytes)
      else .error .panic

def stubPirEngine : QueryEngine StubServerState StubPirError :=
  { setup := fun dbBytes scenario =>
      some { buckets := dbBytes, numItems := scenario.numItems }
    answerQuery := stubAnswerQuery }

theorem noPanic_stubAnswerQuery {state : StubServerState}
    (h : state.buckets.length = state.numItems * bucketBytes) (queryBytes : List UInt8) :
    Outcome.NoPanic (stubAnswerQuery state queryBytes) := by
  unfold stubAnswerQuery
  split
  · exact Outcome.noPanic_error _
  · dsimp only
    split
    · exact Outcome.noPanic_error _
    · next hlt =>
        rw [if_pos (row_end_le h (Nat.lt_of_not_le hlt))]
        exact Outcome.noPanic_ok _

theorem retrieves_stubPirEngine : plainClient.Retrieves stubPirEngine scenario := by
  intro db state idx seed hlength hsetup hidx
  cases hsetup
  have hbits : scenario.itemSizeBits = bucketBytes * 8 := rfl
  have hrows : db.length = scenario.numItems * bucketBytes := by
    rw [hbits] at hlength
    lia
  have hindex : stubIndex (leBytes 4 idx) = idx :=
    stubIndex_leBytes (Nat.lt_trans hidx (by decide))
  have hrow := row_end_le hrows hidx
  refine ⟨slice db (idx * bucketBytes) bucketBytes, ?_, take_slice_rowBytes rfl⟩
  change stubAnswerQuery _ (leBytes 4 idx) = _
  rw [stubAnswerQuery, length_leBytes, if_neg (Nat.lt_irrefl 4), hindex]
  exact (if_neg (Nat.not_le_of_lt hidx)).trans (if_pos hrow)

end Nullifier
end SpendabilityPir
