import SpendabilityPir.Foundation.Bytes
import SpendabilityPir.Foundation.OrderedMap
import SpendabilityPir.Foundation.MerkleTree
import SpendabilityPir.Foundation.Transition
import SpendabilityPir.Foundation.Outcome
import SpendabilityPir.Foundation.MachineInt
import SpendabilityPir.Foundation.Traverse
import SpendabilityPir.Foundation.SortedList
import SpendabilityPir.Foundation.BlockTree
import SpendabilityPir.Foundation.AtomicReplace
import SpendabilityPir.Foundation.ConcurrentReads
import SpendabilityPir.Shared.PirTypes
import SpendabilityPir.Shared.CompactBlock
import SpendabilityPir.Shared.ChainTracker
import SpendabilityPir.Shared.TrackerFork
import SpendabilityPir.Shared.ChainView
import SpendabilityPir.Shared.Ingest
import SpendabilityPir.Shared.RangeSync
import SpendabilityPir.Shared.Following
import SpendabilityPir.Shared.Publication
import SpendabilityPir.Shared.EvictionLog
import SpendabilityPir.Shared.PirProtocol
import SpendabilityPir.Shared.HttpExchange
import SpendabilityPir.Nullifier.SpendTypes
import SpendabilityPir.Nullifier.NfIngest
import SpendabilityPir.Nullifier.HashTable
import SpendabilityPir.Nullifier.LiveBlocks
import SpendabilityPir.Nullifier.TableRecords
import SpendabilityPir.Nullifier.TableRefinement
import SpendabilityPir.Nullifier.TableSafety
import SpendabilityPir.Nullifier.TableSnapshot
import SpendabilityPir.Nullifier.BucketCapacity
import SpendabilityPir.Nullifier.SpendClient
import SpendabilityPir.Nullifier.TableHistory
import SpendabilityPir.Nullifier.ActionRange
import SpendabilityPir.Nullifier.TableRoundTrip
import SpendabilityPir.Nullifier.TableRemoval
import SpendabilityPir.Nullifier.TableEviction
import SpendabilityPir.Nullifier.TableUndo
import SpendabilityPir.Nullifier.TableCapacity
import SpendabilityPir.Nullifier.AcceptedTable
import SpendabilityPir.Nullifier.TableMirror
import SpendabilityPir.Nullifier.SpendServer
import SpendabilityPir.Nullifier.EvictionTotals
import SpendabilityPir.Nullifier.ClientGeometry
import SpendabilityPir.Nullifier.SpendFollow
import SpendabilityPir.Nullifier.SpendReorg
import SpendabilityPir.Nullifier.SpendSync
import SpendabilityPir.Nullifier.SpendStartup
import SpendabilityPir.Nullifier.SnapshotCatchUp
import SpendabilityPir.Nullifier.LiveSegment
import SpendabilityPir.Nullifier.FreshStart
import SpendabilityPir.Nullifier.SpendPublication
import SpendabilityPir.Nullifier.SpendEviction
import SpendabilityPir.Nullifier.PublishedCoverage
import SpendabilityPir.Nullifier.SnapshotIo
import SpendabilityPir.Nullifier.PublishedAnswers
import SpendabilityPir.Nullifier.SpendLife
import SpendabilityPir.Nullifier.Provenance
import SpendabilityPir.Nullifier.PirStub
import SpendabilityPir.Nullifier.HttpServer
import SpendabilityPir.Nullifier.HttpRequests
import SpendabilityPir.Nullifier.WalletSession
import SpendabilityPir.Witness.WitnessTypes
import SpendabilityPir.Witness.CommitmentIngest
import SpendabilityPir.Witness.MerkleHash
import SpendabilityPir.Witness.SubtreeRoots
import SpendabilityPir.Witness.CommitmentTree
import SpendabilityPir.Witness.TreeSnapshot
import SpendabilityPir.Witness.TreeRestore
import SpendabilityPir.Witness.SnapshotTotality
import SpendabilityPir.Witness.CacheInvariant
import SpendabilityPir.Witness.TreeHistory
import SpendabilityPir.Witness.TreeRoots
import SpendabilityPir.Witness.WindowLayout
import SpendabilityPir.Witness.Reconstruct
import SpendabilityPir.Witness.WitnessClient
import SpendabilityPir.Witness.Verification
import SpendabilityPir.Witness.BroadcastCoverage
import SpendabilityPir.Witness.EndToEnd
import SpendabilityPir.Witness.ProtocolRoot
import SpendabilityPir.Witness.MixedEpoch
import SpendabilityPir.Witness.SurvivingBlocks
import SpendabilityPir.Witness.TreeRoundTrip
import SpendabilityPir.Witness.WitnessServer
import SpendabilityPir.Witness.ChainTree
import SpendabilityPir.Witness.TrackerLockstep
import SpendabilityPir.Witness.WitnessFollow
import SpendabilityPir.Witness.WitnessSync
import SpendabilityPir.Witness.WitnessStartup
import SpendabilityPir.Witness.ServerRun
import SpendabilityPir.Witness.WindowedBootstrap
import SpendabilityPir.Witness.TreeCatchUp
import SpendabilityPir.Witness.WitnessPublication
import SpendabilityPir.Witness.SizeGuard
import SpendabilityPir.Witness.GuardedRun
import SpendabilityPir.Witness.PirStub
import SpendabilityPir.Witness.WindowTree
import SpendabilityPir.Witness.PublishedWitness
import SpendabilityPir.Witness.ServingRun
import SpendabilityPir.Witness.ServerRecovery
import SpendabilityPir.Witness.WalletSession
import SpendabilityPir.Witness.SnapshotIo
import SpendabilityPir.Witness.WitnessLife
import SpendabilityPir.Witness.CrashRecovery
import SpendabilityPir.Combined.OutputPositions
import SpendabilityPir.Combined.CombinedServer
import SpendabilityPir.Combined.ReorgRollback
import SpendabilityPir.Combined.SyncCompleteness
import SpendabilityPir.Combined.ResumeHeight
import SpendabilityPir.Combined.CombinedRun
import SpendabilityPir.Combined.CombinedFollow
import SpendabilityPir.Combined.NoReorg
import SpendabilityPir.Combined.RestartSafety
import SpendabilityPir.Combined.CombinedPublication
import SpendabilityPir.Combined.TargetSize
import SpendabilityPir.Combined.ConfirmationDepth
import SpendabilityPir.Combined.CombinedCoverage
import SpendabilityPir.Combined.CoverageSoundness
import SpendabilityPir.Combined.CrashSafety
import SpendabilityPir.Combined.ReportedSpends
import SpendabilityPir.Combined.PublishedPair
import SpendabilityPir.Combined.CombinedLife
import SpendabilityPir.Combined.PublishedLife
import SpendabilityPir.Combined.ChangeOutputs
