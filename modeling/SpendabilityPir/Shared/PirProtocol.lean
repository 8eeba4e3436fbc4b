import SpendabilityPir.Foundation.Bytes
import SpendabilityPir.Foundation.Outcome
import SpendabilityPir.Shared.PirTypes

/-!
# The PIR scheme between client and server

The scheme itself is a library: an engine answers queries over the database it was set up
with, and a client makes a query for a row and decodes the response.  What the servers and
the wallets rely on is that the row comes back.
-/

namespace SpendabilityPir
namespace Shared

open Foundation

/-- A PIR engine with its online step. -/
structure QueryEngine (σ ε : Type) extends PirEngine σ where
  answerQuery : σ -> List UInt8 -> Outcome ε (List UInt8)

/-- A PIR client set up for a scenario; the randomness of a query decodes its response. -/
structure PirClient (ρ : Type) where
  generateQuery : Nat -> ρ -> List UInt8
  decodeResponse : ρ -> List UInt8 -> List UInt8

def YpirScenario.rowBytes (scenario : YpirScenario) : Nat := scenario.itemSizeBits / 8

def YpirScenario.row (scenario : YpirScenario) (db : List UInt8) (idx : Nat) : List UInt8 :=
  slice db (idx * scenario.rowBytes) scenario.rowBytes

/-- The response to a query for a row decodes to the row, and to padding past its end. -/
def PirClient.Retrieves {σ ε ρ : Type} (client : PirClient ρ) (engine : QueryEngine σ ε)
    (scenario : YpirScenario) : Prop :=
  forall db state idx seed, db.length * 8 = scenario.numItems * scenario.itemSizeBits ->
    engine.setup db scenario = some state -> idx < scenario.numItems ->
    exists response, engine.answerQuery state (client.generateQuery idx seed) = .ok response ∧
      (client.decodeResponse seed response).take scenario.rowBytes = scenario.row db idx

/-!
## The engine that answers in the clear
-/

def stubIndex (queryBytes : List UInt8) : Nat := leNat (queryBytes.take 4)

def plainClient : PirClient Unit :=
  { generateQuery := fun idx _ => leBytes 4 idx
    decodeResponse := fun _ response => response }

theorem row_end_le {db : List UInt8} {rows bytes idx : Nat} (hdb : db.length = rows * bytes)
    (hidx : idx < rows) : idx * bytes + bytes ≤ db.length := by
  rw [hdb, ← Nat.succ_mul]
  exact Nat.mul_le_mul_right bytes hidx

theorem take_slice_rowBytes {scenario : YpirScenario} {db : List UInt8} {bytes idx : Nat}
    (h : scenario.rowBytes = bytes) :
    (slice db (idx * bytes) bytes).take scenario.rowBytes = scenario.row db idx := by
  rw [YpirScenario.row, h]
  simp [slice]

theorem stubIndex_leBytes {idx : Nat} (h : idx < 2 ^ 32) : stubIndex (leBytes 4 idx) = idx := by
  rw [stubIndex, List.take_of_length_le (Nat.le_of_eq (length_leBytes 4 idx)), leNat_leBytes_mod]
  exact Nat.mod_eq_of_lt h

end Shared
end SpendabilityPir
