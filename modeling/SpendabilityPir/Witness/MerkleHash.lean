import SpendabilityPir.Foundation.MerkleTree
import SpendabilityPir.Witness.WitnessTypes

/-!
# The note commitment hash

The hash of the tree comes from outside this repository and is a parameter: nodes,
their canonical 32-byte encodings and a level-dependent combination.  Server and
client hash on encodings and panic on one that is not canonical, so a node of the
tree is an optional encoding here and a panic below a node is a panic at it.
-/

namespace SpendabilityPir
namespace Witness

open Foundation

/-- The node type, its encoding, and the empty subtree roots of each level. -/
structure MerkleHashOrchard where
  Node : Type
  fromBytes : Hash -> Option Node
  toBytes : Node -> Hash
  combine : Nat -> Node -> Node -> Node
  emptyLeaf : Node
  emptyRoot : Nat -> Node
  fromBytes_toBytes : forall n, fromBytes (toBytes n) = some n
  emptyRoot_zero : emptyRoot 0 = emptyLeaf
  emptyRoot_succ : forall level, level < treeDepth ->
    emptyRoot (level + 1) = combine level (emptyRoot level) (emptyRoot level)

variable (M : MerkleHashOrchard)

def hashCombine (level : Nat) (left right : Hash) : Option Hash := do
  let l <- M.fromBytes left
  let r <- M.fromBytes right
  return M.toBytes (M.combine level l r)

def Canonical (hash : Hash) : Prop :=
  exists n, M.fromBytes hash = some n

/-- Combine two subtree roots, where either may already have panicked. -/
def combineRoots (level : Nat) (left right : Option Hash) : Option Hash := do
  let l <- left
  let r <- right
  hashCombine M level l r

@[simp] theorem combineRoots_some (level : Nat) (left right : Hash) :
    combineRoots M level (some left) (some right) = hashCombine M level left right := rfl

@[simp] theorem combineRoots_none_left (level : Nat) (right : Option Hash) :
    combineRoots M level none right = none := rfl

@[simp] theorem combineRoots_none_right (level : Nat) (left : Option Hash) :
    combineRoots M level left none = none := by
  cases left <;> rfl

/-- The root of the subtree of the given height and index over some leaves. -/
abbrev rootAt (base : Nat) (leaf : Nat -> Option Hash) (height index : Nat) :
    Option Hash :=
  MerkleTree.node (combineRoots M) base leaf height index

def emptyHash (level : Nat) : Hash := M.toBytes (M.emptyRoot level)

def precomputeEmptyRoots : Nat -> M.Node
  | 0 => M.emptyLeaf
  | level + 1 =>
      M.combine level (precomputeEmptyRoots level) (precomputeEmptyRoots level)

/-- The server's empty roots are combined from the empty leaf upward. -/
def emptyRoots (level : Nat) : Hash := M.toBytes (precomputeEmptyRoots M level)

variable {M}

theorem canonical_toBytes (n : M.Node) : Canonical M (M.toBytes n) :=
  ⟨n, M.fromBytes_toBytes n⟩

theorem canonical_emptyRoots (level : Nat) : Canonical M (emptyRoots M level) :=
  canonical_toBytes _

theorem precomputeEmptyRoots_eq {level : Nat} (h : level ≤ treeDepth) :
    precomputeEmptyRoots M level = M.emptyRoot level := by
  induction level with
  | zero => exact M.emptyRoot_zero.symm
  | succ level ih =>
      rw [precomputeEmptyRoots, ih (Nat.le_of_succ_le h), M.emptyRoot_succ level h]

theorem emptyRoots_eq_emptyHash {level : Nat} (h : level ≤ treeDepth) :
    emptyRoots M level = emptyHash M level := by
  rw [emptyRoots, emptyHash, precomputeEmptyRoots_eq h]

theorem hashCombine_of_canonical (level : Nat) {left right : Hash}
    (hleft : Canonical M left) (hright : Canonical M right) :
    exists root, hashCombine M level left right = some root ∧ Canonical M root := by
  rcases hleft with ⟨l, hl⟩
  rcases hright with ⟨r, hr⟩
  refine ⟨M.toBytes (M.combine level l r), ?_, canonical_toBytes _⟩
  rw [hashCombine, hl, hr]
  rfl

theorem rootAt_of_canonical {base height index : Nat} {leaf : Nat -> Option Hash}
    (h : forall j, index * 2 ^ height ≤ j -> j < (index + 1) * 2 ^ height ->
      exists hash, leaf j = some hash ∧ Canonical M hash) :
    exists root, rootAt M base leaf height index = some root ∧ Canonical M root := by
  apply MerkleTree.node_induction (combineRoots M)
    (P := fun r => exists root, r = some root ∧ Canonical M root)
  · intro level left right _ hleft hright
    rcases hleft with ⟨l, hl, hlc⟩
    rcases hright with ⟨r, hr, hrc⟩
    rw [hl, hr, combineRoots_some]
    exact hashCombine_of_canonical level hlc hrc
  · exact h

theorem combineRoots_emptyRoots (level : Nat) :
    combineRoots M level (some (emptyRoots M level)) (some (emptyRoots M level)) =
      some (emptyRoots M (level + 1)) := by
  rw [combineRoots_some, hashCombine, emptyRoots, M.fromBytes_toBytes]
  rfl

/-- A subtree of empty leaves has the empty root of its level. -/
theorem rootAt_empty {base height index : Nat} {leaf : Nat -> Option Hash}
    (h : forall j, index * 2 ^ height ≤ j -> j < (index + 1) * 2 ^ height ->
      leaf j = some (emptyRoots M base)) :
    rootAt M base leaf height index = some (emptyRoots M (base + height)) :=
  MerkleTree.node_eq_tower (combineRoots M) (fun l => some (emptyRoots M l))
    (fun l _ => (combineRoots_emptyRoots l).symm) h

/-!
## A sample hash

Its nodes have the encodings of the real ones, field elements in little-endian order,
and its empty leaf is the real one.  Its combination is a toy.
-/

def fieldOrder : Nat :=
  0x40000000000000000000000000000000224698fc094cf91b992d30ed00000001

abbrev FieldNode := { hash : Hash // leNat hash.toList < fieldOrder }

def fieldNode (n : Nat) : FieldNode :=
  ⟨⟨leBytes 32 (n % fieldOrder), length_leBytes _ _⟩, by
    show leNat (leBytes 32 (n % fieldOrder)) < fieldOrder
    have hlt : n % fieldOrder < fieldOrder := Nat.mod_lt _ (by decide)
    have hfits : fieldOrder ≤ 256 ^ 32 := by decide
    rw [leNat_leBytes (Nat.lt_of_lt_of_le hlt hfits)]
    exact hlt⟩

def sampleCombine (level : Nat) (left right : FieldNode) : FieldNode :=
  fieldNode (level + 3 * leNat left.val.toList + 5 * leNat right.val.toList)

def sampleEmptyRoot : Nat -> FieldNode
  | 0 => fieldNode 2
  | level + 1 =>
      sampleCombine level (sampleEmptyRoot level) (sampleEmptyRoot level)

def sampleHash : MerkleHashOrchard where
  Node := FieldNode
  fromBytes hash := if h : leNat hash.toList < fieldOrder then some ⟨hash, h⟩ else none
  toBytes := Subtype.val
  combine := sampleCombine
  emptyLeaf := fieldNode 2
  emptyRoot := sampleEmptyRoot
  fromBytes_toBytes n := dif_pos n.property
  emptyRoot_zero := rfl
  emptyRoot_succ _ _ := rfl

theorem canonical_sampleHash {hash : Hash} (h : leNat hash.toList < fieldOrder) :
    Canonical sampleHash hash :=
  ⟨⟨hash, h⟩, dif_pos h⟩

theorem canonical_zeros : Canonical sampleHash (ByteVec.zeros 32) :=
  canonical_sampleHash (by decide)

end Witness
end SpendabilityPir
