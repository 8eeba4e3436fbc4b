import SpendabilityPir.Combined.CombinedServer
import SpendabilityPir.Witness.WitnessPublication

/-!
# Runs of the combined server

Each subsystem that is compiled in syncs and publishes on its own, in any order of their
steps.  When both are done, the one that is behind catches up, and the follow loop takes
over what both published.
-/

namespace SpendabilityPir
namespace Combined

open Foundation Shared
open Nullifier (SpendServer ServerConfig ServerInput)
open Witness (CommitmentTreeDb LwdClient MerkleHashOrchard WitnessServer)

/-- The syncing subsystems, `none` where one is not compiled in, or the follow loop. -/
inductive CombinedState (σ τ : Type) where
  | syncing (nullifier : Option (SpendServer σ))
      (witness : Option (Option (WitnessServer τ)))
  | following (server : CombinedServer σ τ)

/-- What happens next: a step of a subsystem's sync, the entry into the follow loop over
a connection for the catch-up, or a turn of the loop. -/
inductive CombinedInput where
  | nullifier (input : ServerInput)
  | witness (client : LwdClient) (connection : Option Connection)
      (windowShardLimit : Nat) (snapshot : Option CommitmentTreeDb)
  | enter (connection : Option Connection)
  | poll (view : ChainView)

/-- A step of the sync, which ends with the publication. -/
def IsSyncInput : ServerInput -> Prop
  | .connect _ _ => True
  | .range _ => True
  | .publish => True
  | _ => False

/-- The sync of the nullifiers is done once its server would follow. -/
def IsSynced {σ : Type} (s : SpendServer σ) : Prop :=
  exists task queue, s.stage = .follow task queue

def syncedDatabases {σ τ : Type} (nullifier : Option (SpendServer σ))
    (witness : Option (Option (WitnessServer τ))) : Databases :=
  { hashtable := nullifier.map SpendServer.hashtable
    tree := witness.join.map WitnessServer.tree }

inductive CombinedRunStep {σ τ : Type} (M : MerkleHashOrchard) (config : ServerConfig)
    (nfEngine : PirEngine σ) (witEngine : PirEngine τ) :
    CombinedState σ τ -> CombinedInput -> CombinedState σ τ -> Prop where
  | nullifier {s s' : SpendServer σ} {witness : Option (Option (WitnessServer τ))}
      {input : ServerInput} :
      IsSyncInput input -> s.step config nfEngine input = some s' ->
      CombinedRunStep M config nfEngine witEngine (.syncing (some s) witness)
        (.nullifier input) (.syncing (some s') witness)
  | witness {nullifier : Option (SpendServer σ)} {s' : Option (WitnessServer τ)}
      {client : LwdClient} {connection : Option Connection} {windowShardLimit : Nat}
      {snapshot : Option CommitmentTreeDb} :
      Witness.WitnessRunStep M witEngine none
        (.start client connection windowShardLimit snapshot) s' ->
      CombinedRunStep M config nfEngine witEngine (.syncing nullifier (some none))
        (.witness client connection windowShardLimit snapshot)
        (.syncing nullifier (some s'))
  | enter {nullifier : Option (SpendServer σ)}
      {witness : Option (Option (WitnessServer τ))} {connection : Option Connection}
      {databases : Databases} :
      (forall s, nullifier = some s -> IsSynced s) -> witness ≠ some none ->
      catchUp connection (syncedDatabases nullifier witness) = .ok databases ->
      CombinedRunStep M config nfEngine witEngine (.syncing nullifier witness)
        (.enter connection)
        (.following (CombinedServer.enterFollow (nullifier.bind SpendServer.livePir)
          (witness.join.bind WitnessServer.livePir) databases))
  | poll {s s' : CombinedServer σ τ} {view : ChainView} :
      s.poll M nfEngine witEngine view = some s' ->
      CombinedRunStep M config nfEngine witEngine (.following s) (.poll view) (.following s')

/-- The server before anything is synced, with the subsystems that are compiled in. -/
def startingServer (σ τ : Type) (nullifier witness : Bool) : CombinedState σ τ :=
  .syncing (if nullifier then some SpendServer.init else none)
    (if witness then some none else none)

end Combined
end SpendabilityPir
