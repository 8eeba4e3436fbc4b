import SpendabilityPir.Shared.CompactBlock

/-!
# Served chains

The chain lightwalletd serves at one time, as the list of its blocks from height 0 on.
An honest chain has consecutive heights and hash links, and a hash names one block; so
two honest chains that agree on a block agree on everything below it.
-/

namespace SpendabilityPir
namespace Shared

open Foundation

/-!
## Numbered lists
-/

theorem take_of_isPrefix {α : Type _} {front xs : List α} (h : front.IsPrefix xs) {n : Nat}
    (hn : n ≤ front.length) : xs.take n = front.take n := by
  rcases h with ⟨rest, rfl⟩
  exact List.take_append_of_le_length hn

theorem getElem?_of_isPrefix {α : Type _} {front xs : List α} (h : front.IsPrefix xs)
    {i : Nat} {x : α} (hx : front[i]? = some x) : xs[i]? = some x := by
  have hlt := (List.getElem?_eq_some_iff.mp hx).1
  rw [List.prefix_iff_getElem?.mp h i hlt, ← hx, List.getElem?_eq_getElem hlt]

def Numbered {α : Type _} (number : α -> Nat) (base : Nat) (xs : List α) : Prop :=
  forall i x, xs[i]? = some x -> number x = base + i

section Numbered

variable {α : Type _} {number : α -> Nat}

theorem Numbered.tail {base : Nat} {x : α} {rest : List α}
    (h : Numbered number base (x :: rest)) : Numbered number (base + 1) rest := by
  intro i y hy
  have hnext := h (i + 1) y hy
  lia

theorem Numbered.head {base : Nat} {x : α} {rest : List α}
    (h : Numbered number base (x :: rest)) : number x = base :=
  h 0 x rfl

theorem Numbered.of_prefix {base : Nat} {front xs : List α}
    (h : Numbered number base xs) (hfront : front.IsPrefix xs) :
    Numbered number base front := by
  intro i x hx
  exact h i x (getElem?_of_isPrefix hfront hx)

theorem Numbered.drop {base : Nat} {xs : List α} (h : Numbered number base xs) (k : Nat) :
    Numbered number (base + k) (xs.drop k) := by
  intro i x hx
  rw [List.getElem?_drop] at hx
  rw [h (k + i) x hx, Nat.add_assoc]

theorem Numbered.map_eq_range' {base : Nat} {xs : List α} (h : Numbered number base xs) :
    xs.map number = List.range' base xs.length := by
  induction xs generalizing base with
  | nil => rfl
  | cons x rest ih =>
      rw [List.map_cons, h.head, ih h.tail, List.length_cons, List.range'_succ]

theorem Numbered.getElem?_of_mem {base : Nat} {xs : List α} (h : Numbered number base xs)
    {x : α} (hx : x ∈ xs) : xs[number x - base]? = some x := by
  rcases List.mem_iff_getElem?.mp hx with ⟨i, hi⟩
  rw [h i x hi, Nat.add_sub_cancel_left, hi]

theorem Numbered.eq_of_mem {base : Nat} {xs : List α} (h : Numbered number base xs)
    {x y : α} (hx : x ∈ xs) (hy : y ∈ xs) (heq : number x = number y) : x = y := by
  have hat := h.getElem?_of_mem hx
  rw [heq, h.getElem?_of_mem hy] at hat
  exact (Option.some.inj hat).symm

theorem Numbered.filter_le {base : Nat} {xs : List α}
    (h : Numbered number base xs) (last : Nat) :
    xs.filter (fun x => decide (number x ≤ last)) = xs.take (last + 1 - base) := by
  induction xs generalizing base with
  | nil => rw [List.take_nil, List.filter_nil]
  | cons x rest ih =>
      have hx := h.head
      by_cases hle : base ≤ last
      · have hcount : last + 1 - base = (last + 1 - (base + 1)) + 1 := by lia
        rw [List.filter_cons_of_pos (by simp [hx, hle]), ih h.tail, hcount,
          List.take_succ_cons]
      · have hcount : last + 1 - base = 0 := by lia
        have hcount' : last + 1 - (base + 1) = 0 := by lia
        rw [List.filter_cons_of_neg (by simp [hx]; lia), ih h.tail, hcount, hcount']
        rfl

theorem Numbered.filter_ge {base : Nat} {xs : List α}
    (h : Numbered number base xs) (first : Nat) :
    xs.filter (fun x => decide (first ≤ number x)) = xs.drop (first - base) := by
  induction xs generalizing base with
  | nil => rw [List.drop_nil, List.filter_nil]
  | cons x rest ih =>
      have hx := h.head
      by_cases hle : first ≤ base
      · have hcount : first - base = 0 := by lia
        have hcount' : first - (base + 1) = 0 := by lia
        rw [List.filter_cons_of_pos (by simp [hx, hle]), ih h.tail, hcount, hcount']
        rfl
      · have hcount : first - base = (first - (base + 1)) + 1 := by lia
        rw [List.filter_cons_of_neg (by simp [hx, hle]), ih h.tail, hcount,
          List.drop_succ_cons]

end Numbered

/-!
## Chains and what they serve
-/

abbrev ChainView := List CompactBlock

namespace ChainView

def heightOf (block : CompactBlock) : Nat := block.height.toNat

/-- The height `get_latest_block` reports. -/
def tipHeight (view : ChainView) : Nat :=
  match view.getLast? with
  | some block => block.height.toNat
  | none => 0

/-- The blocks `get_block_range` streams, both ends included. -/
def getBlockRange (view : ChainView) (start stop : Nat) : List CompactBlock :=
  view.filter (fun block =>
    decide (start ≤ block.height.toNat) && decide (block.height.toNat ≤ stop))

end ChainView

/-- The blocks a lightwalletd ever serves: a 32-byte hash names one block. -/
structure BlockUniverse where
  Served : CompactBlock -> Prop
  hash_length : forall block, Served block -> block.hash.length = 32
  hash_injective : forall a b, Served a -> Served b -> a.hash = b.hash -> a = b

structure HonestView (U : BlockUniverse) (view : ChainView) : Prop where
  nonempty : view ≠ []
  served : forall block, block ∈ view -> U.Served block
  heights : Numbered ChainView.heightOf 0 view
  links : forall i block next, view[i]? = some block -> view[i + 1]? = some next ->
    next.prevHash = block.hash

/-- The last blocks of a chain, fewer than a bound, are replaced and the chain may grow. -/
def ReplacesFewerThan (bound : Nat) (old new : ChainView) : Prop :=
  exists k, k < bound ∧ (old.take (old.length - k)).IsPrefix new

namespace ChainView

theorem getBlockRange_eq {view : ChainView} (h : Numbered heightOf 0 view)
    (start stop : Nat) :
    view.getBlockRange start stop = (view.take (stop + 1)).drop start := by
  have htake := h.filter_le stop
  rw [Nat.sub_zero] at htake
  have hdrop := (h.of_prefix (List.take_prefix (stop + 1) view)).filter_ge start
  rw [Nat.sub_zero] at hdrop
  rw [← hdrop, ← htake, List.filter_filter]
  rfl

end ChainView

namespace HonestView

variable {U : BlockUniverse} {view other : ChainView}

theorem of_prefix (h : HonestView U other) (hnonempty : view ≠ [])
    (hpre : view.IsPrefix other) : HonestView U view where
  nonempty := hnonempty
  served := fun block hblock => h.served block (hpre.mem hblock)
  heights := h.heights.of_prefix hpre
  links := fun i block next hblock hnext =>
    h.links i block next (getElem?_of_isPrefix hpre hblock)
      (getElem?_of_isPrefix hpre hnext)

theorem height_eq (h : HonestView U view) {i : Nat} {block : CompactBlock}
    (hblock : view[i]? = some block) : block.height.toNat = i := by
  have hheight := h.heights i block hblock
  rw [Nat.zero_add] at hheight
  exact hheight

theorem pairwise_heights (h : HonestView U view) :
    view.Pairwise (fun a b => a.height.toNat < b.height.toNat) := by
  rw [List.pairwise_iff_getElem]
  intro i j hi hj hij
  rw [h.height_eq (List.getElem?_eq_getElem hi), h.height_eq (List.getElem?_eq_getElem hj)]
  exact hij

theorem tipHeight_succ (h : HonestView U view) : view.tipHeight + 1 = view.length := by
  have hpos : 0 < view.length := List.length_pos_iff.mpr h.nonempty
  have hlast : view.getLast? = some view[view.length - 1] := by
    rw [List.getLast?_eq_getElem?, List.getElem?_eq_getElem]
  rw [ChainView.tipHeight, hlast]
  show (view[view.length - 1]).height.toNat + 1 = view.length
  rw [h.height_eq (List.getElem?_eq_getElem (by lia))]
  lia

/-- Two honest chains with the same block hash at a height agree up to that height. -/
theorem take_eq (h : HonestView U view) (h' : HonestView U other) {i : Nat}
    {a b : CompactBlock} (ha : view[i]? = some a) (hb : other[i]? = some b)
    (hhash : a.hash = b.hash) : view.take (i + 1) = other.take (i + 1) := by
  induction i generalizing a b with
  | zero =>
      have hsame : a = b :=
        U.hash_injective a b (h.served a (List.mem_of_getElem? ha))
          (h'.served b (List.mem_of_getElem? hb)) hhash
      rw [List.take_add_one, List.take_add_one, ha, hb, hsame]
      rfl
  | succ i ih =>
      have hsame : a = b :=
        U.hash_injective a b (h.served a (List.mem_of_getElem? ha))
          (h'.served b (List.mem_of_getElem? hb)) hhash
      have hi : i < view.length := by
        have hlt := (List.getElem?_eq_some_iff.mp ha).1
        lia
      have hi' : i < other.length := by
        have hlt := (List.getElem?_eq_some_iff.mp hb).1
        lia
      have hbelow : view[i]? = some view[i] := List.getElem?_eq_getElem hi
      have hbelow' : other[i]? = some other[i] := List.getElem?_eq_getElem hi'
      have hlink : (view[i]).hash = (other[i]).hash := by
        rw [← h.links i _ a hbelow ha, ← h'.links i _ b hbelow' hb, hsame]
      have hfront := ih hbelow hbelow' hlink
      rw [List.take_add_one, List.take_add_one (i := i + 1), hfront, ha, hb, hsame]

end HonestView

/-!
## Finite universes
-/

/-- The universe of a list of blocks with distinct 32-byte hashes. -/
def BlockUniverse.ofList (blocks : List CompactBlock)
    (hlength : forall block, block ∈ blocks -> block.hash.length = 32)
    (hdistinct : forall a, a ∈ blocks -> forall b, b ∈ blocks -> a.hash = b.hash -> a = b) :
    BlockUniverse :=
  { Served := fun block => block ∈ blocks
    hash_length := hlength
    hash_injective := fun a b ha hb => hdistinct a ha b hb }

theorem numbered_of_map_eq {α : Type _} {number : α -> Nat} {base : Nat} {xs : List α}
    (h : xs.map number = List.range' base xs.length) : Numbered number base xs := by
  intro i x hx
  have hnumber : (xs.map number)[i]? = some (number x) := by
    rw [List.getElem?_map, hx]
    rfl
  have hlt := (List.getElem?_eq_some_iff.mp hx).1
  rw [h, List.getElem?_range' hlt, Nat.one_mul] at hnumber
  exact (Option.some.inj hnumber).symm

theorem honestView_of_list {U : BlockUniverse} {view : ChainView}
    (hnonempty : view ≠ []) (hserved : forall block, block ∈ view -> U.Served block)
    (hheights : view.map ChainView.heightOf = List.range' 0 view.length)
    (hlinks : view.IsChain (fun block next => next.prevHash = block.hash)) :
    HonestView U view where
  nonempty := hnonempty
  served := hserved
  heights := numbered_of_map_eq hheights
  links := by
    intro i block next hblock hnext
    have hlt := (List.getElem?_eq_some_iff.mp hnext).1
    have hlink := List.isChain_iff_getElem.mp hlinks i hlt
    rw [List.getElem?_eq_getElem (by lia)] at hblock
    rw [List.getElem?_eq_getElem hlt] at hnext
    rw [← Option.some.inj hblock, ← Option.some.inj hnext]
    exact hlink

def sampleBlock (height : UInt64) (tag prevTag : UInt8)
    (actions : List CompactOrchardAction) (treeSize : UInt32) : CompactBlock :=
  { height := height
    hash := List.replicate 32 tag
    prevHash := List.replicate 32 prevTag
    vtx := [{ actions := actions }]
    chainMetadata := some { orchardCommitmentTreeSize := treeSize } }

end Shared
end SpendabilityPir
