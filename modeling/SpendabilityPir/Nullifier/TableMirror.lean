import Mathlib.Order.Interval.Set.Basic
import SpendabilityPir.Nullifier.BucketCapacity
import SpendabilityPir.Nullifier.NfIngest
import SpendabilityPir.Nullifier.SpendClient

/-!
# Tables that mirror a chain

A table mirrors a chain on a set of heights when its live blocks are the chain's blocks
at those heights.  Inserting a block adds its height, and eviction keeps the heights
from a threshold on; so a table that mirrors an interval keeps doing so.
-/

namespace SpendabilityPir
namespace Nullifier

open Foundation Shared

/-- The live blocks are the blocks of a chain at a set of heights. -/
structure LiveOn (live : LiveBlocks) (chain : ChainView) (heights : Set Nat) : Prop where
  mem_iff : forall height, height ∈ heights ↔ exists block, live.find? height = some block
  blocks : forall height block, live.find? height = some block ->
    exists served, chain[height]? = some served ∧
      block.hash = toHashArray served.hash ∧
      block.nullifiers.map NullifierWithMeta.nullifier = extractNullifiers served

def RecordsBlock (e : Nat × LiveBlock) (block : CompactBlock) : Prop :=
  e.1 = block.height.toNat ∧ e.2.hash = toHashArray block.hash ∧
    e.2.nullifiers.map NullifierWithMeta.nullifier = extractNullifiers block

def WereServed (U : BlockUniverse) (live : LiveBlocks) : Prop :=
  forall e, e ∈ live.entries -> exists block, U.Served block ∧ RecordsBlock e block

theorem LiveOn.wereServed {U : BlockUniverse} {live : LiveBlocks} {chain : ChainView}
    {heights : Set Nat} (h : LiveOn live chain heights) (hchain : HonestView U chain) :
    WereServed U live := by
  intro e he
  rcases h.blocks e.1 e.2 (OrderedMap.mem_entries_iff.mp he) with
    ⟨served, hserved, hhash, hnullifiers⟩
  exact ⟨served, hchain.served served (List.mem_of_getElem? hserved),
    (hchain.height_eq hserved).symm, hhash, hnullifiers⟩

def NonzeroNullifiers (block : CompactBlock) : Prop :=
  ByteVec.zeros 32 ∉ extractNullifiers block

instance (block : CompactBlock) : Decidable (NonzeroNullifiers block) :=
  inferInstanceAs (Decidable (_ ∉ _))

namespace HashTableDb

def Mirrors (db : HashTableDb) (chain : ChainView) (heights : Set Nat) : Prop :=
  exists live, db.Represents live ∧ LiveOn live chain heights

theorem mirrors_new (chain : ChainView) : Mirrors new chain ∅ := by
  refine ⟨OrderedMap.empty, represents_new, ?_, ?_⟩
  · intro height
    simp
  · intro height block hfind
    cases hfind

theorem Mirrors.congr {db : HashTableDb} {chain chain' : ChainView} {heights : Set Nat}
    (h : Mirrors db chain heights)
    (hsame : forall height, height ∈ heights -> chain'[height]? = chain[height]?) :
    Mirrors db chain' heights := by
  rcases h with ⟨live, hrep, hlive⟩
  refine ⟨live, hrep, hlive.mem_iff, ?_⟩
  intro height block hfind
  rw [hsame height ((hlive.mem_iff height).mpr ⟨block, hfind⟩)]
  exact hlive.blocks height block hfind

theorem Mirrors.chain_getElem? {db : HashTableDb} {chain : ChainView} {heights : Set Nat}
    (h : Mirrors db chain heights) {height : Nat} (hmem : height ∈ heights) :
    exists served, chain[height]? = some served := by
  rcases h with ⟨live, _, hlive⟩
  rcases (hlive.mem_iff height).mp hmem with ⟨block, hfind⟩
  rcases hlive.blocks height block hfind with ⟨served, hserved, _⟩
  exact ⟨served, hserved⟩

theorem Represents.hash_fresh {U : BlockUniverse} {db : HashTableDb} {live : LiveBlocks}
    (hrep : db.Represents live) (hserved : WereServed U live) {block : CompactBlock}
    (hblock : U.Served block) (hlookup : live.find? block.height.toNat = none) :
    db.blockHashToHeight (toHashArray block.hash) = none := by
  cases hfind : db.blockHashToHeight (toHashArray block.hash) with
  | none => rfl
  | some other =>
      rcases (hrep.containsHash_iff _).mpr ⟨other, hfind⟩ with
        ⟨otherHeight, otherBlock, hother, hotherHash⟩
      rcases hserved _ (OrderedMap.mem_entries_iff.mpr hother) with
        ⟨served, hservedBlock, hheight, hservedHash, _⟩
      have hhashes : toHashArray served.hash = toHashArray block.hash :=
        hservedHash.symm.trans hotherHash
      have hsame : served = block :=
        U.hash_injective served block hservedBlock hblock
          (toHashArray_injective (U.hash_length _ hservedBlock)
            (U.hash_length _ hblock) hhashes)
      change otherHeight = _ at hheight
      rw [hheight, hsame, hlookup] at hother
      cases hother

theorem mirrors_insertBlock {U : BlockUniverse} {db db' : HashTableDb}
    {chain : ChainView} {heights : Set Nat} {height : Nat} {block : CompactBlock}
    {nullifiers : List NullifierWithMeta} (hchain : HonestView U chain)
    (h : Mirrors db chain heights) (hblock : chain[height]? = some block)
    (hfresh : height ∉ heights) (hnonzero : NonzeroNullifiers block)
    (hnullifiers : nullifiers.map NullifierWithMeta.nullifier = extractNullifiers block)
    (hinsert : db.insertBlock height (toHashArray block.hash) nullifiers = (db', .ok ())) :
    Mirrors db' chain (insert height heights) := by
  rcases h with ⟨live, hrep, hlive⟩
  have hlookup : live.find? height = none := by
    cases hfind : live.find? height with
    | none => rfl
    | some other => exact absurd ((hlive.mem_iff height).mpr ⟨other, hfind⟩) hfresh
  have hhash : db.blockHashToHeight (toHashArray block.hash) = none := by
    apply hrep.hash_fresh (hlive.wereServed hchain)
      (hchain.served block (List.mem_of_getElem? hblock))
    rw [hchain.height_eq hblock]
    exact hlookup
  have hlt : height < 2 ^ 64 := by
    rw [← hchain.height_eq hblock]
    exact UInt64.toNat_lt _
  have hnonzero' : forall nwm, nwm ∈ nullifiers -> nwm.nullifier ≠ ByteVec.zeros 32 := by
    intro nwm hnwm hzero
    apply hnonzero
    rw [← hnullifiers, ← hzero]
    exact List.mem_map_of_mem hnwm
  refine ⟨_, represents_insertBlock hrep hlt
    ((hrep.find?_none_iff height).mpr hlookup) hhash hnonzero' hinsert, ?_, ?_⟩
  · intro other
    rw [LiveBlocks.insertBlock, OrderedMap.find?_insert, Set.mem_insert_iff]
    by_cases heq : other = height
    · simp [heq]
    · rw [if_neg heq, ← hlive.mem_iff]
      simp [heq]
  · intro other otherBlock hfind
    rw [LiveBlocks.insertBlock, OrderedMap.find?_insert] at hfind
    by_cases heq : other = height
    · rw [if_pos heq] at hfind
      cases hfind
      rw [heq]
      exact ⟨block, hblock, rfl, hnullifiers⟩
    · rw [if_neg heq] at hfind
      exact hlive.blocks other otherBlock hfind

theorem exists_threshold {kept entries : List (Nat × LiveBlock)}
    (hsorted : entries.Pairwise (fun a b => a.1 < b.1)) (hsuffix : kept.IsSuffix entries) :
    exists threshold, forall e, e ∈ kept ↔ e ∈ entries ∧ threshold ≤ e.1 := by
  rcases hsuffix with ⟨dropped, hsplit⟩
  cases kept with
  | nil =>
      refine ⟨(entries.map Prod.fst).max?.getD 0 + 1, ?_⟩
      intro e
      constructor
      · intro hfalse
        cases hfalse
      · intro he
        have hmax : e.1 ≤ (entries.map Prod.fst).max?.getD 0 :=
          List.le_max?_getD_of_mem (List.mem_map_of_mem he.1)
        have hthreshold := he.2
        lia
  | cons first rest =>
      refine ⟨first.1, ?_⟩
      rw [← hsplit] at hsorted ⊢
      rcases List.pairwise_append.mp hsorted with ⟨_, hkept, hcross⟩
      intro e
      constructor
      · intro he
        refine ⟨List.mem_append_right _ he, ?_⟩
        rcases List.mem_cons.mp he with heq | hrest
        · rw [heq]
        · exact Nat.le_of_lt ((List.pairwise_cons.mp hkept).1 e hrest)
      · intro he
        rcases List.mem_append.mp he.1 with hdropped | hkeep
        · have hlt := hcross e hdropped first List.mem_cons_self
          have hle := he.2
          lia
        · exact hkeep

theorem mirrors_evictToTarget {db : HashTableDb} {chain : ChainView} {heights : Set Nat}
    (h : Mirrors db chain heights) :
    exists db' threshold, db.evictToTarget = some db' ∧
      Mirrors db' chain {height | height ∈ heights ∧ threshold ≤ height} := by
  rcases h with ⟨live, hrep, hlive⟩
  rcases represents_evictToTarget hrep with ⟨db', hevict, hrep'⟩
  rcases exists_threshold live.sorted
      (LiveBlocks.trimEntries_suffix targetSize live.entries) with ⟨threshold, hkept⟩
  have hfind : forall height block, live.evictToTarget.find? height = some block ↔
      live.find? height = some block ∧ threshold ≤ height := by
    intro height block
    rw [← OrderedMap.mem_entries_iff, ← OrderedMap.mem_entries_iff]
    exact hkept (height, block)
  refine ⟨db', threshold, hevict, _, hrep', ?_, ?_⟩
  · intro height
    simp only [hfind, Set.mem_ofPred_eq, hlive.mem_iff, exists_and_right]
  · intro height block hblock
    exact hlive.blocks height block ((hfind height block).mp hblock).1

theorem Mirrors.evictToTarget_Ico {db : HashTableDb} {chain : ChainView} {lo hi : Nat}
    (h : Mirrors db chain (Set.Ico lo hi)) :
    exists db' lo', db.evictToTarget = some db' ∧ Mirrors db' chain (Set.Ico lo' hi) := by
  rcases mirrors_evictToTarget h with ⟨db', threshold, hevict, hmirrors⟩
  refine ⟨db', max lo threshold, hevict, ?_⟩
  have hset : {height | height ∈ Set.Ico lo hi ∧ threshold ≤ height} =
      Set.Ico (max lo threshold) hi := by
    ext height
    simp only [Set.mem_ofPred_eq, Set.mem_Ico, Nat.max_le]
    lia
  rw [← hset]
  exact hmirrors

/-!
## What a mirroring table answers
-/

theorem Mirrors.entry_iff {db : HashTableDb} {chain : ChainView} {heights : Set Nat}
    (h : Mirrors db chain heights) {nf : ByteVec 32} (hnf : nf ≠ ByteVec.zeros 32) :
    (exists i, ((db.buckets (hashToBucket nf)).entries i).nullifier = nf) ↔
      exists height block, height ∈ heights ∧ chain[height]? = some block ∧
        nf ∈ extractNullifiers block := by
  rcases h with ⟨live, hrep, hlive⟩
  rw [hrep.contains_iff hnf]
  constructor
  · intro hcontains
    rcases hcontains with ⟨height, nwm, hinserted, hnwm⟩
    rcases hinserted with ⟨block, hfind, hmem⟩
    rcases hlive.blocks height block hfind with ⟨served, hserved, _, hnullifiers⟩
    refine ⟨height, served, (hlive.mem_iff height).mpr ⟨block, hfind⟩, hserved, ?_⟩
    rw [← hnullifiers, ← hnwm]
    exact List.mem_map_of_mem hmem
  · intro hmember
    rcases hmember with ⟨height, served, hheight, hserved, hmem⟩
    rcases (hlive.mem_iff height).mp hheight with ⟨block, hfind⟩
    rcases hlive.blocks height block hfind with ⟨served', hserved', _, hnullifiers⟩
    rw [hserved] at hserved'
    cases hserved'
    rw [← hnullifiers] at hmem
    rcases List.mem_map.mp hmem with ⟨nwm, hnwm, heq⟩
    exact ⟨height, nwm, ⟨block, hfind, hnwm⟩, heq⟩

theorem Mirrors.scan_iff {db : HashTableDb} {chain : ChainView} {heights : Set Nat}
    (h : Mirrors db chain heights) {nf : ByteVec 32} (hnf : nf ≠ ByteVec.zeros 32) :
    (scanBucketForNf (slice db.toPirBytes ((hashToBucket nf).val * bucketBytes)
        bucketBytes) nf).isSome = true ↔
      exists height block, height ∈ heights ∧ chain[height]? = some block ∧
        nf ∈ extractNullifiers block := by
  rw [slice_toPirBytes, scanBucketForNf_isSome_iff]
  exact h.entry_iff hnf

theorem Mirrors.records_iff {db : HashTableDb} {chain : ChainView} {heights : Set Nat}
    (h : Mirrors db chain heights) (height : Nat) :
    height ∈ heights ↔ exists record, db.blockIndex.find? height = some record := by
  rcases h with ⟨live, hrep, hlive⟩
  rw [hlive.mem_iff]
  constructor
  · intro hfind
    rcases hfind with ⟨block, hblock⟩
    rcases hrep.find?_record hblock with ⟨record, hrecord, _⟩
    exact ⟨record, hrecord⟩
  · intro hfind
    rcases hfind with ⟨record, hrecord⟩
    rcases hrep.holds hrecord with ⟨block, hblock, _⟩
    exact ⟨block, hblock⟩

theorem Mirrors.earliestHeight_spec {db : HashTableDb} {chain : ChainView}
    {heights : Set Nat} (h : Mirrors db chain heights) {e : Nat}
    (he : db.earliestHeight = some e) :
    e ∈ heights ∧ forall height, height ∈ heights -> e ≤ height := by
  rcases Option.map_eq_some_iff.mp he with ⟨first, hfirst, heq⟩
  rw [← heq]
  refine ⟨(h.records_iff _).mpr ⟨_, OrderedMap.find?_of_first? hfirst⟩, ?_⟩
  intro height hmem
  rcases (h.records_iff height).mp hmem with ⟨record, hrecord⟩
  exact OrderedMap.le_of_first? hfirst hrecord

/-- The latest height is the greatest mirrored height. -/
theorem Mirrors.latestHeight_spec {db : HashTableDb} {chain : ChainView}
    {heights : Set Nat} (h : Mirrors db chain heights) {l : Nat}
    (hl : db.latestHeight = some l) :
    l ∈ heights ∧ forall height, height ∈ heights -> height ≤ l := by
  rcases Option.map_eq_some_iff.mp hl with ⟨last, hlast, heq⟩
  rw [← heq]
  refine ⟨(h.records_iff _).mpr ⟨_, OrderedMap.find?_of_last? hlast⟩, ?_⟩
  intro height hmem
  rcases (h.records_iff height).mp hmem with ⟨record, hrecord⟩
  exact OrderedMap.le_of_last? hlast hrecord

theorem Mirrors.earliestHeight_none {db : HashTableDb} {chain : ChainView}
    {heights : Set Nat} (h : Mirrors db chain heights) (he : db.earliestHeight = none) :
    heights = ∅ := by
  have hfirst : db.blockIndex.first? = none := Option.map_eq_none_iff.mp he
  ext height
  rw [h.records_iff]
  simp [OrderedMap.first?_eq_none_iff.mp hfirst height]

theorem Mirrors.latestHeight_none {db : HashTableDb} {chain : ChainView}
    {heights : Set Nat} (h : Mirrors db chain heights) (hl : db.latestHeight = none) :
    heights = ∅ := by
  have hlast : db.blockIndex.last? = none := Option.map_eq_none_iff.mp hl
  ext height
  rw [h.records_iff]
  simp [OrderedMap.last?_eq_none_iff.mp hlast height]

theorem Mirrors.latestHeight_Ico {db : HashTableDb} {chain : ChainView} {lo hi l : Nat}
    (h : Mirrors db chain (Set.Ico lo hi)) (hl : db.latestHeight = some l) :
    hi = l + 1 := by
  rcases h.latestHeight_spec hl with ⟨hmem, hmax⟩
  have hlo := hmem.1
  have hlt := hmem.2
  have hlast := hmax (hi - 1) ⟨by lia, by lia⟩
  lia

theorem Mirrors.latestBlockHash_eq {db : HashTableDb} {chain : ChainView}
    {heights : Set Nat} (h : Mirrors db chain heights) {l : Nat} {block : CompactBlock}
    (hl : db.latestHeight = some l) (hblock : chain[l]? = some block) :
    db.latestBlockHash = some (toHashArray block.hash) := by
  rcases h with ⟨live, hrep, hlive⟩
  rcases Option.map_eq_some_iff.mp hl with ⟨last, hlast, heq⟩
  rcases hrep.holds (OrderedMap.find?_of_last? hlast) with ⟨live', hfind, hholds⟩
  rcases hlive.blocks _ _ hfind with ⟨served, hserved, hhash, _⟩
  rw [heq, hblock] at hserved
  cases hserved
  rw [latestBlockHash, hlast]
  show some last.2.blockHash = _
  rw [hholds.1, hhash]

end HashTableDb
end Nullifier
end SpendabilityPir
