/-!
# Types shared by the services

Chain constants, the lifecycle phase of a server, and the PIR engine a server sets up
with its database bytes.
-/

namespace SpendabilityPir
namespace Shared

def confirmationDepth : Nat := 10
def nu5MainnetActivation : Nat := 1687104
def syncBatchSize : Nat := 10000

/-- Lowest block height ever synced: NU5 activation, or 1 on a chain whose tip is below
that. -/
def minSyncHeight (tipHeight : Nat) : Nat :=
  if tipHeight ≥ nu5MainnetActivation then nu5MainnetActivation else 1

/-- Server lifecycle phase, reported with the metadata. -/
inductive ServerPhase where
  | syncing (currentHeight targetHeight : Nat)
  | serving
deriving DecidableEq

/-- The database geometry an engine is set up for. -/
structure YpirScenario where
  numItems : Nat
  itemSizeBits : Nat
deriving DecidableEq

/-- The offline step of a PIR engine; it may reject a database. -/
structure PirEngine (σ : Type) where
  setup : List UInt8 -> YpirScenario -> Option σ

def PirEngine.Accepts {σ : Type} (engine : PirEngine σ) (scenario : YpirScenario) :
    Prop :=
  forall db, db.length * 8 = scenario.numItems * scenario.itemSizeBits ->
    exists state, engine.setup db scenario = some state

end Shared
end SpendabilityPir
