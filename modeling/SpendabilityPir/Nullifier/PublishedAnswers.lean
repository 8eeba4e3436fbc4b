import SpendabilityPir.Nullifier.PublishedCoverage
import SpendabilityPir.Nullifier.SpendPublication

/-!
# What a published table answers

A table that holds an interval of the chain answers for the heights it reports, and for
no others: its rows have a nullifier exactly when a block at these heights does, and the
metadata names such a block.
-/

namespace SpendabilityPir
namespace Nullifier

open Foundation Shared

/-- The nullifier is spent by the chain's block at a published height. -/
structure SpentAt (metadata : SpendabilityMetadata) (chain : ChainView) (nf : ByteVec 32)
    (height : Nat) : Prop where
  earliest : metadata.earliestHeight ≤ height
  latest : height ≤ metadata.latestHeight
  block : exists block, chain[height]? = some block ∧ nf ∈ extractNullifiers block

def rowFor (bytes : List UInt8) (nf : ByteVec 32) : List UInt8 :=
  slice bytes ((hashToBucket nf).val * bucketBytes) bucketBytes

/-- The database answers for the blocks at the published heights, and for no others. -/
structure DatabaseAnswers (metadata : SpendabilityMetadata) (bytes : List UInt8)
    (chain : ChainView) : Prop where
  length : bytes.length = dbBytes
  complete : forall nf height, nf ≠ ByteVec.zeros 32 -> SpentAt metadata chain nf height ->
    (scanBucketForNf (rowFor bytes nf) nf).isSome = true
  sound : forall nf found, nf ≠ ByteVec.zeros 32 ->
    scanBucketForNf (rowFor bytes nf) nf = some found ->
    exists height, SpentAt metadata chain nf height ∧
      found.spendHeight = UInt32.ofNat height

section Rebuild

variable {U : BlockUniverse} {chain : ChainView} {hashtable : HashTableDb}

theorem HashTableDb.Mirrors.reported {heights : Set Nat} (h : hashtable.Mirrors chain heights)
    {height : Nat} (hmem : height ∈ heights) :
    hashtable.earliestHeight.getD 0 ≤ height ∧ height ≤ hashtable.latestHeight.getD 0 := by
  constructor
  · cases he : hashtable.earliestHeight with
    | none => exact Nat.zero_le height
    | some e => exact (h.earliestHeight_spec he).2 height hmem
  · cases hl : hashtable.latestHeight with
    | none =>
        rw [h.latestHeight_none hl] at hmem
        cases hmem
    | some l => exact (h.latestHeight_spec hl).2 height hmem

theorem HashTableDb.Mirrors.of_reported {lo hi : Nat}
    (h : hashtable.Mirrors chain (Set.Ico lo hi)) {height : Nat}
    (hearliest : hashtable.earliestHeight.getD 0 ≤ height)
    (hlatest : height ≤ hashtable.latestHeight.getD 0) :
    height ∈ Set.Ico lo hi ∨ height = 0 := by
  cases hl : hashtable.latestHeight with
  | none =>
      rw [hl] at hlatest
      exact Or.inr (Nat.le_zero.mp hlatest)
  | some l =>
      rw [hl] at hlatest
      cases he : hashtable.earliestHeight with
      | none =>
          have hlive := (h.latestHeight_spec hl).1
          rw [h.earliestHeight_none he] at hlive
          cases hlive
      | some e =>
          rw [he] at hearliest
          have hlo := (h.earliestHeight_spec he).1.1
          have hhi := (h.latestHeight_spec hl).1.2
          exact Or.inl ⟨Nat.le_trans hlo hearliest, Nat.lt_of_le_of_lt hlatest hhi⟩

theorem HashTableDb.Mirrors.scan_spendHeight {heights : Set Nat}
    (h : hashtable.Mirrors chain heights) {nf : ByteVec 32} (hnf : nf ≠ ByteVec.zeros 32)
    {found : SpendMetadata}
    (hfound : scanBucketForNf (rowFor hashtable.toPirBytes nf) nf = some found) :
    exists height block, height ∈ heights ∧ chain[height]? = some block ∧
      nf ∈ extractNullifiers block ∧ found.spendHeight = UInt32.ofNat height := by
  rcases h with ⟨live, hrep, hlive⟩
  rw [rowFor, HashTableDb.slice_toPirBytes] at hfound
  rcases hrep.inserted_of_scan hnf hfound with ⟨height, nwm, ⟨record, hrecord, hmem⟩, hnwm,
    hmetadata⟩
  rcases hlive.blocks height record hrecord with ⟨block, hblock, _, hnullifiers⟩
  refine ⟨height, block, (hlive.mem_iff height).mpr ⟨record, hrecord⟩, hblock, ?_, ?_⟩
  · rw [← hnullifiers, ← hnwm]
    exact List.mem_map_of_mem hmem
  · rw [hmetadata]
    rfl

theorem databaseAnswers_of_holds (hchain : CoverableChain U chain)
    (hholds : hashtable.HoldsThroughLatest chain) :
    DatabaseAnswers (metadataOf hashtable) hashtable.toPirBytes chain := by
  rcases HashTableDb.holdsThroughLatest_iff.mp hholds with ⟨lo, hi, hmirrors⟩
  constructor
  · exact HashTableDb.length_toPirBytes hashtable
  · intro nf height hnf hspent
    rcases hspent.block with ⟨block, hblock, hmem⟩
    rw [rowFor, hmirrors.scan_iff hnf]
    rcases hmirrors.of_reported hspent.earliest hspent.latest with hlive | hzero
    · exact ⟨height, block, hlive, hblock, hmem⟩
    · rw [hzero] at hblock
      rw [hchain.genesis block hblock] at hmem
      cases hmem
  · intro nf found hnf hfound
    rcases hmirrors.scan_spendHeight hnf hfound with ⟨height, block, hlive, hblock, hmem, heq⟩
    rcases hmirrors.reported hlive with ⟨hearliest, hlatest⟩
    exact ⟨height, ⟨hearliest, hlatest, block, hblock, hmem⟩, heq⟩

end Rebuild

/-- A state was set up with a database that answers for the heights of its metadata. -/
def PirState.Answers {σ : Type} (pir : PirState σ) (engine : PirEngine σ)
    (chain : ChainView) : Prop :=
  exists bytes, engine.setup bytes scenario = some pir.engineState ∧
    DatabaseAnswers pir.metadata bytes chain

theorem answers_rebuildPir {σ : Type} {engine : PirEngine σ} {U : BlockUniverse}
    {chain : ChainView} {hashtable : HashTableDb} {pir : PirState σ}
    (hchain : CoverableChain U chain) (hholds : hashtable.HoldsThroughLatest chain)
    (h : rebuildPir engine hashtable scenario = .ok pir) : pir.Answers engine chain := by
  unfold rebuildPir at h
  split at h
  · cases h
  · next engineState hsetup =>
      cases h
      exact ⟨hashtable.toPirBytes, hsetup, databaseAnswers_of_holds hchain hholds⟩

/-!
## The server
-/

section Server

variable {σ : Type} {config : ServerConfig} {engine : PirEngine σ} {chain : ChainView}

/-- What is published was built from a table that holds an interval of the chain. -/
def BuiltFromChain (engine : PirEngine σ) (chain : ChainView) (server : SpendServer σ) : Prop :=
  forall pir, server.livePir = some pir -> exists hashtable,
    hashtable.HoldsThroughLatest chain ∧ rebuildPir engine hashtable scenario = .ok pir

/-- What is published after a step was published before or is built of the table. -/
theorem SpendServer.livePir_of_step {server server' : SpendServer σ} {input : ServerInput}
    {pir : PirState σ} (h : server.step config engine input = some server')
    (hpir : server'.livePir = some pir) :
    server.livePir = some pir ∨ rebuildPir engine server'.hashtable scenario = .ok pir := by
  cases hbuilds : SpendServer.builds input with
  | false =>
      rw [SpendServer.livePir_step h hbuilds] at hpir
      exact Or.inl hpir
  | true =>
      cases SpendServer.moves_of_step h with
      | connect _ => cases hbuilds
      | forward _ => cases hbuilds
      | backfill _ => cases hbuilds
      | poll _ => cases hbuilds
      | requestFails _ => cases hbuilds
      | publish _ =>
          unfold SpendServer.publish at hpir ⊢
          split at hpir
          · exact Or.inl hpir
          · split at hpir
            · exact Or.inl hpir
            · next hrebuild =>
                cases hpir
                exact Or.inr hrebuild
      | @handle task event rest _ =>
          unfold SpendServer.handle at hpir ⊢
          split at hpir
          · exact Or.inl hpir
          · next hhandle =>
              cases hpir
              exact Or.inr (handleEvent_eq_ok hhandle).right

theorem SpendServer.not_follow_syncStage {server : SpendServer σ} {connection : Option Connection}
    {start stop : Nat} {next : HashTableDb -> Stage}
    (hnext : forall hashtable, IsPlain (next hashtable)) (task : Option FollowState)
    (queue : List ChainEvent) :
    (server.syncStage connection start stop next).stage ≠ .follow task queue := by
  unfold SpendServer.syncStage
  split
  · exact isPlain_stopped.right task queue
  · exact (hnext _).right task queue

theorem SpendServer.not_follow_connect {server : SpendServer σ} {tipHeight : Nat}
    {snapshot : Option HashTableDb} (task : Option FollowState) (queue : List ChainEvent) :
    (server.connect config tipHeight snapshot).stage ≠ .follow task queue := by
  unfold SpendServer.connect
  dsimp only
  split
  · intro hfalse
    cases hfalse
  · exact (isPlain_afterForward _ _ _ _).right task queue

theorem builtFromChain_step {server server' : SpendServer σ} {input : ServerInput}
    (hbuilt : BuiltFromChain engine chain server)
    (hholds : server'.hashtable.HoldsThroughLatest chain)
    (h : server.step config engine input = some server') :
    BuiltFromChain engine chain server' := by
  intro pir hpir
  rcases SpendServer.livePir_of_step h hpir with hold | hrebuild
  · exact hbuilt pir hold
  · exact ⟨server'.hashtable, hholds, hrebuild⟩

theorem BuiltFromChain.answers {U : BlockUniverse} {server : SpendServer σ}
    (h : BuiltFromChain engine chain server) (hchain : CoverableChain U chain)
    {pir : PirState σ} (hpir : server.livePir = some pir) : pir.Answers engine chain := by
  rcases h pir hpir with ⟨hashtable, hholds, hrebuild⟩
  exact answers_rebuildPir hchain hholds hrebuild

end Server

end Nullifier
end SpendabilityPir
