import SpendabilityPir.Witness.Reconstruct

/-!
# The client on data it does not trust

After a response is decoded the client checks the position against the window and the
length of the row, and nothing else.  Vector lengths, the sum of the window's bounds and
the encodings of the hashes are the server's choice, and each can make the client panic.
-/

namespace SpendabilityPir
namespace Witness

open Foundation

section Client

variable (M : MerkleHashOrchard)

/-- The client's path to a witness, around a query that decodes to a row. -/
def getWitness (mode : Arithmetic) (position : Nat) (decodedRow : List UInt8)
    (broadcast : BroadcastData) : Outcome WitnessClientError PirWitness := do
  let (shardIdx, subshardIdx, leafIdx) := decomposePosition position
  let windowEnd <- mode.add 32 broadcast.windowStartShard broadcast.windowShardCount
  if shardIdx < broadcast.windowStartShard ∨ shardIdx ≥ windowEnd then
    .error (.error
      (.positionOutsideWindow position broadcast.windowStartShard windowEnd))
  else
    let _rowIdx <- physicalRowIndex mode shardIdx subshardIdx broadcast.windowStartShard
    reconstructWitness M mode position shardIdx subshardIdx leafIdx decodedRow broadcast

/-- Sub-shard roots the client can climb: an odd number of roots writes no sibling, and
the siblings not written stay zero. -/
structure ReadableShard (roots : List Hash) : Prop where
  levels : trailingZeros roots.length ≤ treeDepth - subshardHeight
  canonical : 1 ≤ trailingZeros roots.length -> AllCanonical M roots
  unwritten : trailingZeros roots.length < subshardHeight -> Canonical M (ByteVec.zeros 32)

/-- What the client would have to check: the end of the window fits in 32 bits, and for
a position in the window and a row that is long enough, all hashes it reads are encodings
of nodes and the shard has sub-shard roots it can climb. -/
structure ReadableBroadcast (position : Nat) (decodedRow : List UInt8)
    (broadcast : BroadcastData) : Prop where
  windowEnd : broadcast.windowStartShard + broadcast.windowShardCount < 2 ^ 32
  read : broadcast.windowStartShard ≤ (decomposePosition position).1 ->
    (decomposePosition position).1 <
      broadcast.windowStartShard + broadcast.windowShardCount ->
    subshardRowBytes ≤ decodedRow.length ->
    CanonicalRow M decodedRow ∧
    (exists shard, broadcast.subshardRoots[
        (decomposePosition position).1 - broadcast.windowStartShard]? = some shard ∧
      ReadableShard M shard.roots) ∧
    AllCanonical M (broadcast.cap.shardRoots.take (2 ^ shardHeight))

end Client

variable {M : MerkleHashOrchard}

/-!
## Hashing that does not panic
-/

theorem canonical_of_hashCombine {level : Nat} {left right root : Hash}
    (h : hashCombine M level left right = some root) :
    Canonical M left ∧ Canonical M right := by
  rcases Option.bind_eq_some_iff.mp h with ⟨l, hl, hrest⟩
  rcases Option.bind_eq_some_iff.mp hrest with ⟨r, hr, _⟩
  exact ⟨⟨l, hl⟩, ⟨r, hr⟩⟩

theorem combinePairs_isSome_iff {level : Nat} {nodes : List Hash}
    (heven : nodes.length % 2 = 0) :
    (exists next, combinePairs M level nodes = some next) ↔ AllCanonical M nodes := by
  constructor
  · rintro ⟨next, hnext⟩
    induction nodes using combinePairs.induct generalizing next with
    | case1 left right rest ih =>
        rw [combinePairs_cons] at hnext
        rcases Option.bind_eq_some_iff.mp hnext with ⟨root, hroot, hrest⟩
        rcases Option.map_eq_some_iff.mp hrest with ⟨roots, hroots, _⟩
        have hlen : rest.length % 2 = 0 := by
          rw [List.length_cons, List.length_cons] at heven
          lia
        have hpair := canonical_of_hashCombine hroot
        intro node hnode
        rcases List.mem_cons.mp hnode with hleft | htail
        · rw [hleft]
          exact hpair.left
        · rcases List.mem_cons.mp htail with hright | hrestMem
          · rw [hright]
            exact hpair.right
          · exact ih hlen roots hroots node hrestMem
    | case2 nodes hshort =>
        cases nodes with
        | nil =>
            intro node hnode
            cases hnode
        | cons first rest =>
            cases rest with
            | nil => cases heven
            | cons second more => exact absurd rfl (hshort first second more)
  · intro h
    rcases combinePairs_of_canonical level h with ⟨next, hnext, _⟩
    exact ⟨next, hnext⟩

/-- What a tier leaves: encodings at its own levels, nothing elsewhere. -/
def CanonicalLevels (M : MerkleHashOrchard) (base levels : Nat)
    (before after : Fin treeDepth -> Hash) : Prop :=
  forall level : Fin treeDepth,
    (base ≤ level.val -> level.val < base + levels -> Canonical M (after level)) ∧
    (level.val < base ∨ base + levels ≤ level.val -> after level = before level)

theorem CanonicalLevels.succ {base levels : Nat} {before after : Fin treeDepth -> Hash}
    {sibling : Hash} (hlevel : base < treeDepth) (hsibling : Canonical M sibling)
    (h : CanonicalLevels M (base + 1) levels
      (Function.update before ⟨base, hlevel⟩ sibling) after) :
    CanonicalLevels M base (levels + 1) before after := by
  intro level
  rcases h level with ⟨hinside, houtside⟩
  by_cases hhere : level = ⟨base, hlevel⟩
  · have hval : level.val = base := congrArg Fin.val hhere
    have hwritten : after level = sibling := by
      rw [houtside (Or.inl (by lia)), hhere]
      exact Function.update_self _ _ _
    constructor
    · intro _ _
      rw [hwritten]
      exact hsibling
    · intro hout
      lia
  · have hval : level.val ≠ base := fun heq => hhere (Fin.ext heq)
    constructor
    · intro hlo hhi
      exact hinside (by lia) (by lia)
    · intro hout
      rw [houtside (by lia)]
      exact Function.update_of_ne hhere _ _

theorem canonical_getD {nodes : List Hash} (h : AllCanonical M nodes) (i level : Nat) :
    Canonical M (nodes.getD i (emptyHash M level)) := by
  rw [List.getD_eq_getElem?_getD]
  cases hnode : nodes[i]? with
  | none => exact canonical_toBytes _
  | some node => exact h node (List.mem_of_getElem? hnode)

theorem extractLevels_succ_eq_some {levels treeLevel idx : Nat} {nodes : List Hash}
    {siblings after : Fin treeDepth -> Hash} (heven : nodes.length % 2 = 0) :
    extractLevels M (levels + 1) treeLevel nodes idx siblings = some after ↔
      exists (hlevel : treeLevel < treeDepth) (next : List Hash),
        combinePairs M treeLevel nodes = some next ∧
        extractLevels M levels (treeLevel + 1) next (idx / 2)
          (Function.update siblings ⟨treeLevel, hlevel⟩
            (nodes.getD (idx ^^^ 1) (emptyHash M treeLevel))) = some after := by
  rw [extractLevels, combineChunks_eq heven]
  split
  · next hlevel =>
      constructor
      · intro h
        rcases Option.bind_eq_some_iff.mp h with ⟨next, hnext, hrest⟩
        exact ⟨hlevel, next, hnext, hrest⟩
      · rintro ⟨_, next, hnext, hrest⟩
        exact Option.bind_eq_some_iff.mpr ⟨next, hnext, hrest⟩
  · next hdeep =>
      constructor
      · intro h
        cases h
      · rintro ⟨hlevel, _⟩
        exact absurd hlevel hdeep

theorem even_of_two_pow_dvd {levels n : Nat} (h : 2 ^ (levels + 1) ∣ n) :
    n % 2 = 0 ∧ 2 ^ levels ∣ n / 2 := by
  rcases h with ⟨c, hc⟩
  have hn : n = 2 * (2 ^ levels * c) := by
    rw [hc, Nat.pow_succ', Nat.mul_assoc]
  constructor
  · rw [hn]
    exact Nat.mul_mod_right 2 _
  · refine ⟨c, ?_⟩
    rw [hn]
    exact Nat.mul_div_cancel_left _ (by decide)

theorem two_pow_trailingZeros_dvd (n : Nat) : 2 ^ trailingZeros n ∣ n := by
  induction n using trailingZeros.induct with
  | case1 => exact Nat.dvd_zero _
  | case2 n hne hodd =>
      rw [trailingZeros, if_neg hne, if_pos hodd]
      exact Nat.one_dvd n
  | case3 n hne heven ih =>
      rw [trailingZeros, if_neg hne, if_neg heven, Nat.pow_succ']
      have hn : n = 2 * (n / 2) := by lia
      have hdouble := Nat.mul_dvd_mul_left 2 ih
      rw [← hn] at hdouble
      exact hdouble

/-- The siblings of some levels are extracted when the levels are in the tree and, past
the first of them, all nodes are encodings. -/
theorem extractLevels_isSome_iff {levels treeLevel idx : Nat} {nodes : List Hash}
    {siblings : Fin treeDepth -> Hash} (hdvd : 2 ^ levels ∣ nodes.length)
    (hbase : treeLevel ≤ treeDepth) :
    (exists after, extractLevels M levels treeLevel nodes idx siblings = some after) ↔
      treeLevel + levels ≤ treeDepth ∧ (1 ≤ levels -> AllCanonical M nodes) := by
  induction levels generalizing treeLevel nodes idx siblings with
  | zero => exact ⟨fun _ => ⟨hbase, by lia⟩, fun _ => ⟨siblings, rfl⟩⟩
  | succ levels ih =>
      rcases even_of_two_pow_dvd hdvd with ⟨heven, hhalfLen⟩
      have hhalf : forall next, combinePairs M treeLevel nodes = some next ->
          2 ^ levels ∣ next.length := by
        intro next hnext
        rw [length_combinePairs hnext]
        exact hhalfLen
      constructor
      · rintro ⟨after, hafter⟩
        rcases (extractLevels_succ_eq_some heven).mp hafter with
          ⟨hlevel, next, hnext, hrest⟩
        rcases (ih (hhalf next hnext) hlevel).mp ⟨after, hrest⟩ with ⟨hdepth, _⟩
        exact ⟨by lia, fun _ => (combinePairs_isSome_iff heven).mp ⟨next, hnext⟩⟩
      · rintro ⟨hdepth, hcanonical⟩
        have hlevel : treeLevel < treeDepth := by lia
        rcases combinePairs_of_canonical treeLevel (hcanonical (by lia)) with
          ⟨next, hnext, hnextCanonical⟩
        rcases (ih (hhalf next hnext) hlevel).mpr ⟨by lia, fun _ => hnextCanonical⟩ with
          ⟨after, hafter⟩
        exact ⟨after, (extractLevels_succ_eq_some heven).mpr ⟨hlevel, next, hnext, hafter⟩⟩

theorem extractLevels_levels {levels treeLevel idx : Nat} {nodes : List Hash}
    {siblings after : Fin treeDepth -> Hash} (hdvd : 2 ^ levels ∣ nodes.length)
    (h : extractLevels M levels treeLevel nodes idx siblings = some after) :
    CanonicalLevels M treeLevel levels siblings after := by
  induction levels generalizing treeLevel nodes idx siblings with
  | zero =>
      cases h
      intro level
      exact ⟨fun hlo hhi => by lia, fun _ => rfl⟩
  | succ levels ih =>
      rcases even_of_two_pow_dvd hdvd with ⟨heven, hhalf⟩
      rcases (extractLevels_succ_eq_some heven).mp h with ⟨hlevel, next, hnext, hrest⟩
      rw [← length_combinePairs hnext] at hhalf
      have hcanonical := (combinePairs_isSome_iff heven).mp ⟨next, hnext⟩
      exact (ih hhalf hrest).succ hlevel (canonical_getD hcanonical _ _)

theorem extractSiblings_isSome_iff (nodes : List Hash) (index : Nat) {base : Nat}
    (siblings : Fin treeDepth -> Hash) (hbase : base ≤ treeDepth) :
    (exists after, extractSiblings M nodes index base siblings = some after) ↔
      base + trailingZeros nodes.length ≤ treeDepth ∧
        (1 ≤ trailingZeros nodes.length -> AllCanonical M nodes) :=
  extractLevels_isSome_iff (two_pow_trailingZeros_dvd _) hbase

theorem extractSiblings_levels {nodes : List Hash} {index base : Nat}
    {siblings after : Fin treeDepth -> Hash}
    (h : extractSiblings M nodes index base siblings = some after) :
    CanonicalLevels M base (trailingZeros nodes.length) siblings after :=
  extractLevels_levels (two_pow_trailingZeros_dvd _) h

theorem climbPath_isSome_iff {level pos : Nat} {siblings : List Hash} {current : Hash} :
    (exists root, climbPath M level pos siblings current = some root) ↔
      (siblings ≠ [] -> Canonical M current) ∧ AllCanonical M siblings := by
  induction siblings generalizing level pos current with
  | nil =>
      constructor
      · intro _
        exact ⟨fun hne => absurd rfl hne, fun _ hnone => nomatch hnone⟩
      · intro _
        exact ⟨current, rfl⟩
  | cons sibling rest ih =>
      let pair := if pos &&& 1 = 0 then (current, sibling) else (sibling, current)
      have hclimb : climbPath M level pos (sibling :: rest) current =
          (hashCombine M level pair.1 pair.2).bind
            (climbPath M (level + 1) (pos >>> 1) rest) := rfl
      have hpair : Canonical M pair.1 ∧ Canonical M pair.2 ↔
          Canonical M current ∧ Canonical M sibling := by
        by_cases heven : pos &&& 1 = 0
        · simp only [pair, if_pos heven]
        · simp only [pair, if_neg heven]
          exact And.comm
      constructor
      · rintro ⟨root, hroot⟩
        rw [hclimb] at hroot
        rcases Option.bind_eq_some_iff.mp hroot with ⟨parent, hparent, hrest⟩
        rcases hpair.mp (canonical_of_hashCombine hparent) with ⟨hcurrent, hsibling⟩
        refine ⟨fun _ => hcurrent, ?_⟩
        intro node hnode
        rcases List.mem_cons.mp hnode with hhead | htail
        · rw [hhead]
          exact hsibling
        · exact (ih.mp ⟨root, hrest⟩).right node htail
      · rintro ⟨hcurrent, hall⟩
        rcases hpair.mpr ⟨hcurrent (List.cons_ne_nil _ _),
          hall sibling (List.mem_cons_self)⟩ with ⟨hleft, hright⟩
        rcases hashCombine_of_canonical level hleft hright with
          ⟨parent, hparent, hcanonical⟩
        rcases ih.mpr ⟨fun _ => hcanonical,
          fun node hnode => hall node (List.mem_cons_of_mem _ hnode)⟩ with ⟨root, hroot⟩
        refine ⟨root, ?_⟩
        rw [hclimb, hparent]
        exact hroot

theorem computeRootFromPath_isSome_iff {position : Nat} {leaf : Hash}
    {siblings : Fin treeDepth -> Hash} :
    (exists root, computeRootFromPath M position leaf siblings = some root) ↔
      Canonical M leaf ∧ forall level, Canonical M (siblings level) := by
  rw [computeRootFromPath, climbPath_isSome_iff]
  have hne : List.ofFn siblings ≠ [] := by
    intro hnil
    have hlen := congrArg List.length hnil
    rw [List.length_ofFn] at hlen
    cases hlen
  constructor
  · rintro ⟨hleaf, hall⟩
    exact ⟨hleaf hne, fun level => hall _ (List.mem_ofFn.mpr ⟨level, rfl⟩)⟩
  · rintro ⟨hleaf, hall⟩
    refine ⟨fun _ => hleaf, ?_⟩
    intro node hnode
    rcases List.mem_ofFn.mp hnode with ⟨level, heq⟩
    rw [← heq]
    exact hall level

/-!
## The whole path
-/

theorem allCanonical_parsedLeaves_iff {decodedRow : List UInt8}
    (hlen : subshardRowBytes ≤ decodedRow.length) :
    AllCanonical M (parsedLeaves decodedRow) ↔ CanonicalRow M decodedRow := by
  constructor
  · intro h
    refine ⟨hlen, ?_⟩
    intro i hi
    exact h _ (List.mem_of_getElem? (getElem?_parsedLeaves hi))
  · exact allCanonical_parsedLeaves

theorem allCanonical_padCap_iff {shardRoots : List Hash} :
    AllCanonical M (padCap M shardRoots) ↔
      AllCanonical M (shardRoots.take (2 ^ shardHeight)) := by
  constructor
  · intro h node hnode
    exact h node (List.mem_append_left _ hnode)
  · intro h node hnode
    rcases List.mem_append.mp hnode with hroot | hpad
    · exact h node hroot
    · rw [(List.mem_replicate.mp hpad).right]
      exact canonical_toBytes _

/-- The siblings of the three tiers are encodings when the levels that no sub-shard root
writes are. -/
theorem canonical_tiers_iff {k : Nat} {zeros low middle siblings : Fin treeDepth -> Hash}
    (hlow : CanonicalLevels M 0 subshardHeight zeros low)
    (hmiddle : CanonicalLevels M subshardHeight k low middle)
    (hcap : CanonicalLevels M shardHeight shardHeight middle siblings)
    (hzeros : forall level, zeros level = ByteVec.zeros 32) :
    (forall level, Canonical M (siblings level)) ↔
      (k < subshardHeight -> Canonical M (ByteVec.zeros 32)) := by
  have hsub8 : subshardHeight = 8 := rfl
  have hshard16 : shardHeight = 16 := rfl
  have hdepth : treeDepth = 32 := rfl
  have hunwritten : forall level : Fin treeDepth, subshardHeight + k ≤ level.val ->
      level.val < shardHeight -> siblings level = ByteVec.zeros 32 := by
    intro level hlo hhi
    rw [(hcap level).right (Or.inl hhi), (hmiddle level).right (Or.inr hlo),
      (hlow level).right (Or.inr (by lia)), hzeros]
  constructor
  · intro h hshort
    have hlevel : subshardHeight + k < treeDepth := by lia
    have hzero := hunwritten ⟨subshardHeight + k, hlevel⟩ (Nat.le_refl _) (by
      show subshardHeight + k < shardHeight
      lia)
    rw [← hzero]
    exact h _
  · intro h level
    have hlevel := level.isLt
    by_cases hcapTier : shardHeight ≤ level.val
    · exact (hcap level).left hcapTier (by lia)
    · by_cases hrow : level.val < subshardHeight
      · rw [(hcap level).right (Or.inl (by lia)), (hmiddle level).right (Or.inl hrow)]
        exact (hlow level).left (Nat.zero_le _) (by lia)
      · by_cases hwritten : level.val < subshardHeight + k
        · rw [(hcap level).right (Or.inl (by lia))]
          exact (hmiddle level).left (by lia) hwritten
        · rw [hunwritten level (by lia) (by lia)]
          exact h (by lia)

theorem reconstructWitness_noPanic_iff (mode : Arithmetic) (position : Nat)
    {shardIdx subshardIdx leafIdx : Nat} {decodedRow : List UInt8}
    {broadcast : BroadcastData} (hstart : broadcast.windowStartShard ≤ shardIdx)
    (hleaf : leafIdx < subshardLeaves) (hlen : subshardRowBytes ≤ decodedRow.length) :
    Outcome.NoPanic (reconstructWitness M mode position shardIdx subshardIdx leafIdx
        decodedRow broadcast) ↔
      CanonicalRow M decodedRow ∧
      (exists shard, broadcast.subshardRoots[shardIdx - broadcast.windowStartShard]? =
        some shard ∧ ReadableShard M shard.roots) ∧
      AllCanonical M (broadcast.cap.shardRoots.take (2 ^ shardHeight)) := by
  have hparse : parseLeaves decodedRow = .ok (parsedLeaves decodedRow) :=
    if_neg (Nat.not_lt_of_le hlen)
  have hrowLevels : trailingZeros (parsedLeaves decodedRow).length = subshardHeight := by
    rw [length_parsedLeaves, trailingZeros_two_pow]
  have hcapLevels : trailingZeros (padCap M broadcast.cap.shardRoots).length =
      shardHeight := by
    rw [length_padCap, trailingZeros_two_pow]
  have hsub8 : subshardHeight = 8 := rfl
  have hshard16 : shardHeight = 16 := rfl
  have hdepth : treeDepth = 32 := rfl
  have hsubBase : subshardHeight ≤ treeDepth := by lia
  have hcapBase : shardHeight ≤ treeDepth := by lia
  rw [reconstructWitness, hparse, ok_bind, Outcome.noPanic_ofPanics_bind]
  rw [Arithmetic.sub_of_le mode 32 hstart]
  simp only [ok_bind, Outcome.noPanic_ofPanics_bind]
  constructor
  · rintro ⟨low, hlow, shard, hshard, middle, hmiddle, siblings, hsiblings, leaf, hleafAt,
      root, hroot, _⟩
    have hrow := (extractSiblings_isSome_iff _ _ _ (Nat.zero_le _)).mp ⟨low, hlow⟩
    have hmid := (extractSiblings_isSome_iff _ _ _ hsubBase).mp ⟨middle, hmiddle⟩
    have hcap := (extractSiblings_isSome_iff _ _ _ hcapBase).mp ⟨siblings, hsiblings⟩
    have hlowLevels := extractSiblings_levels hlow
    have hcapWritten := extractSiblings_levels hsiblings
    rw [hrowLevels] at hrow hlowLevels
    rw [hcapLevels] at hcap hcapWritten
    have hall := (computeRootFromPath_isSome_iff.mp ⟨root, hroot⟩).right
    refine ⟨(allCanonical_parsedLeaves_iff hlen).mp (hrow.right (by lia)),
      ⟨shard, hshard, by lia, hmid.right, ?_⟩,
      allCanonical_padCap_iff.mp (hcap.right (by lia))⟩
    exact (canonical_tiers_iff hlowLevels (extractSiblings_levels hmiddle) hcapWritten
      (fun _ => rfl)).mp hall
  · rintro ⟨hrow, ⟨shard, hshard, hreadable⟩, hcap⟩
    have hlevels := hreadable.levels
    rcases (extractSiblings_isSome_iff (parsedLeaves decodedRow) leafIdx
      (fun _ => ByteVec.zeros 32) (Nat.zero_le _)).mpr
      ⟨by lia, fun _ => allCanonical_parsedLeaves hrow⟩ with ⟨low, hlow⟩
    rcases (extractSiblings_isSome_iff shard.roots subshardIdx low hsubBase).mpr
      ⟨by lia, hreadable.canonical⟩ with ⟨middle, hmiddle⟩
    rcases (extractSiblings_isSome_iff (padCap M broadcast.cap.shardRoots) shardIdx middle
      hcapBase).mpr ⟨by lia, fun _ => allCanonical_padCap_iff.mpr hcap⟩ with
      ⟨siblings, hsiblings⟩
    have hlowLevels := extractSiblings_levels hlow
    have hcapWritten := extractSiblings_levels hsiblings
    rw [hrowLevels] at hlowLevels
    rw [hcapLevels] at hcapWritten
    have hall := (canonical_tiers_iff hlowLevels (extractSiblings_levels hmiddle)
      hcapWritten (fun _ => rfl)).mpr hreadable.unwritten
    rcases computeRootFromPath_isSome_iff.mpr ⟨hrow.right leafIdx hleaf, hall⟩ with
      ⟨root, hroot⟩
    exact ⟨low, hlow, shard, hshard, middle, hmiddle, siblings, hsiblings, _,
      getElem?_parsedLeaves hleaf, root, hroot, Outcome.noPanic_ok _⟩

theorem reconstructWitness_of_short (mode : Arithmetic)
    (position shardIdx subshardIdx leafIdx : Nat) {decodedRow : List UInt8}
    (broadcast : BroadcastData) (hlen : decodedRow.length < subshardRowBytes) :
    Outcome.NoPanic (reconstructWitness M mode position shardIdx subshardIdx leafIdx
      decodedRow broadcast) := by
  rw [reconstructWitness, parseLeaves, if_pos hlen]
  exact Outcome.noPanic_error _

theorem getWitness_noPanic_of_end (mode : Arithmetic) (position : Nat)
    {decodedRow : List UInt8} {broadcast : BroadcastData}
    (hend : broadcast.windowStartShard + broadcast.windowShardCount < 2 ^ 32) :
    Outcome.NoPanic (getWitness M mode position decodedRow broadcast) ↔
      (broadcast.windowStartShard ≤ (decomposePosition position).1 ->
        (decomposePosition position).1 <
          broadcast.windowStartShard + broadcast.windowShardCount ->
        subshardRowBytes ≤ decodedRow.length ->
        CanonicalRow M decodedRow ∧
        (exists shard, broadcast.subshardRoots[
            (decomposePosition position).1 - broadcast.windowStartShard]? = some shard ∧
          ReadableShard M shard.roots) ∧
        AllCanonical M (broadcast.cap.shardRoots.take (2 ^ shardHeight))) := by
  have hleaf : (decomposePosition position).2.2 < subshardLeaves :=
    Nat.mod_lt _ (by decide)
  unfold getWitness
  dsimp only
  rw [Arithmetic.add_of_lt mode hend, ok_bind]
  split
  · next houtside =>
      constructor
      · intro _ hlo hhi
        lia
      · intro _
        exact Outcome.noPanic_error _
  · next hinside =>
      have hlo : broadcast.windowStartShard ≤ (decomposePosition position).1 := by lia
      rw [physicalRowIndex, Arithmetic.sub_of_le mode 32 hlo, ok_bind]
      show Outcome.NoPanic (reconstructWitness M mode position _ _ _ decodedRow broadcast) ↔ _
      by_cases hlen : subshardRowBytes ≤ decodedRow.length
      · rw [reconstructWitness_noPanic_iff mode position hlo hleaf hlen]
        constructor
        · intro h _ _ _
          exact h
        · intro h
          exact h hlo (by lia) hlen
      · constructor
        · intro _ _ _ hlong
          exact absurd hlong hlen
        · intro _
          exact reconstructWitness_of_short mode position _ _ _ broadcast
            (Nat.lt_of_not_le hlen)

theorem windowEnd_of_noPanic {position : Nat} {decodedRow : List UInt8}
    {broadcast : BroadcastData}
    (h : Outcome.NoPanic (getWitness M .checked position decodedRow broadcast)) :
    broadcast.windowStartShard + broadcast.windowShardCount < 2 ^ 32 := by
  by_contra hpast
  apply h
  unfold getWitness
  dsimp only
  rw [Arithmetic.add, Arithmetic.fit, if_neg hpast]
  rfl

/-- The client returns a witness or an error, with no overflow, exactly on what it would
have had to check. -/
theorem getWitness_total_iff (M : MerkleHashOrchard) (position : Nat)
    (decodedRow : List UInt8) (broadcast : BroadcastData) :
    (forall mode, getWitness M mode position decodedRow broadcast ≠ .error .panic) ↔
      ReadableBroadcast M position decodedRow broadcast := by
  constructor
  · intro h
    have hend := windowEnd_of_noPanic (h .checked)
    exact ⟨hend, (getWitness_noPanic_of_end .checked position hend).mp (h .checked)⟩
  · intro h mode
    exact (getWitness_noPanic_of_end mode position h.windowEnd).mpr h.read

/-- With no sub-shard roots for the one shard of the window, every position of it makes
every build of the client panic. -/
theorem getWitness_no_subshardRoots :
    let broadcast : BroadcastData :=
      { cap := { shardRoots := [] }
        subshardRoots := []
        windowStartShard := 0
        windowShardCount := 1
        anchorHeight := 0 }
    forall mode, getWitness sampleHash mode 0 (List.replicate subshardRowBytes 0)
      broadcast = .error .panic := by
  intro broadcast mode
  by_contra hsafe
  have hend : broadcast.windowStartShard + broadcast.windowShardCount < 2 ^ 32 := by decide
  have hread := (getWitness_noPanic_of_end mode 0 hend).mp hsafe (Nat.le_refl 0)
    (by decide) (Nat.le_of_eq List.length_replicate.symm)
  rcases hread.right.left with ⟨shard, hshard, _⟩
  cases hshard

end Witness
end SpendabilityPir
