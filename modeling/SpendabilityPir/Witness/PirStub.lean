import SpendabilityPir.Shared.PirProtocol
import SpendabilityPir.Witness.WitnessServer

/-!
# The stub engine of the witness server

Unlike the nullifier server's stub it looks at the length of the database, so it answers
or refuses every query over any database.
-/

namespace SpendabilityPir
namespace Witness

open Foundation Shared

inductive StubPirError where
  | invalidQuery (length : Nat)
  | outOfRange (idx numItems : Nat)
deriving DecidableEq

structure StubServerState where
  db : List UInt8
  numItems : Nat

def stubAnswerQuery (state : StubServerState) (queryBytes : List UInt8) :
    Outcome StubPirError (List UInt8) :=
  if queryBytes.length < 4 then .error (.error (.invalidQuery queryBytes.length))
  else
    let idx := stubIndex queryBytes
    if idx ≥ state.numItems then .error (.error (.outOfRange idx state.numItems))
    else
      let start := idx * subshardRowBytes
      let stop := start + subshardRowBytes
      if stop > state.db.length then .error (.error (.outOfRange idx state.numItems))
      else .ok (slice state.db start subshardRowBytes)

def stubPirEngine : QueryEngine StubServerState StubPirError :=
  { setup := fun dbBytes scenario => some { db := dbBytes, numItems := scenario.numItems }
    answerQuery := stubAnswerQuery }

theorem noPanic_stubAnswerQuery (state : StubServerState) (queryBytes : List UInt8) :
    Outcome.NoPanic (stubAnswerQuery state queryBytes) := by
  unfold stubAnswerQuery
  split
  · exact Outcome.noPanic_error _
  · dsimp only
    split
    · exact Outcome.noPanic_error _
    · split
      · exact Outcome.noPanic_error _
      · exact Outcome.noPanic_ok _

theorem accepts_stubPirEngine : stubPirEngine.toPirEngine.Accepts scenario :=
  fun _ _ => ⟨_, rfl⟩

theorem retrieves_stubPirEngine : plainClient.Retrieves stubPirEngine scenario := by
  intro db state idx seed hlength hsetup hidx
  cases hsetup
  have hbits : scenario.itemSizeBits = subshardRowBytes * 8 := rfl
  have hrows : db.length = scenario.numItems * subshardRowBytes := by
    rw [hbits] at hlength
    lia
  have hindex : stubIndex (leBytes 4 idx) = idx :=
    stubIndex_leBytes (Nat.lt_trans hidx (by decide))
  have hrow := row_end_le hrows hidx
  refine ⟨slice db (idx * subshardRowBytes) subshardRowBytes, ?_, take_slice_rowBytes rfl⟩
  change stubAnswerQuery _ (leBytes 4 idx) = _
  rw [stubAnswerQuery, length_leBytes, if_neg (Nat.lt_irrefl 4), hindex]
  exact (if_neg (Nat.not_le_of_lt hidx)).trans (if_neg (Nat.not_lt_of_le hrow))

end Witness
end SpendabilityPir
