import Mathlib.Data.List.Chain
import Mathlib.Data.Set.Basic
import SpendabilityPir.Foundation.SortedList

/-!
# Hash-linked block trees

A block names its parent by hash.  In a tree of blocks hashes are unique and a block is
one above its parent, so the blocks of a path from parent to child have growing heights
and a path is cut at one of its blocks by height.
-/

namespace SpendabilityPir
namespace Foundation

structure LinkedBlock (H : Type _) where
  height : Nat
  hash : H
  prevHash : H

/-- A block whose previous hash is no block's is a root. -/
structure BlockTree (H : Type _) where
  blocks : Set (LinkedBlock H)
  positive : forall b, b ∈ blocks -> 1 ≤ b.height
  unique : forall a b, a ∈ blocks -> b ∈ blocks -> a.hash = b.hash -> a = b
  above : forall a b, a ∈ blocks -> b ∈ blocks -> b.prevHash = a.hash ->
    b.height = a.height + 1

namespace BlockTree

variable {H : Type _} {T : BlockTree H}

def Parent (T : BlockTree H) (a b : LinkedBlock H) : Prop :=
  a ∈ T.blocks ∧ b ∈ T.blocks ∧ b.prevHash = a.hash

/-- Blocks of the tree, each the parent of the next. -/
structure IsPath (T : BlockTree H) (path : List (LinkedBlock H)) : Prop where
  inTree : forall b, b ∈ path -> b ∈ T.blocks
  linked : path.IsChain T.Parent

theorem Parent.height_lt {a b : LinkedBlock H} (h : T.Parent a b) :
    a.height < b.height := by
  rw [T.above a b h.left h.right.left h.right.right]
  exact Nat.lt_succ_self _

namespace IsPath

theorem nil : T.IsPath [] := ⟨fun _ hnone => absurd hnone (List.not_mem_nil), .nil⟩

theorem singleton {b : LinkedBlock H} (hb : b ∈ T.blocks) : T.IsPath [b] := by
  constructor
  · intro a ha
    rw [List.mem_singleton.mp ha]
    exact hb
  · exact .singleton b

theorem suffix {path front back : List (LinkedBlock H)} (h : T.IsPath path)
    (hsplit : path = front ++ back) : T.IsPath back := by
  rw [hsplit] at h
  exact ⟨fun b hb => h.inTree b (List.mem_append_right _ hb), h.linked.right_of_append⟩

/-- A child of the last block goes on the end. -/
theorem snoc {front : List (LinkedBlock H)} {last b : LinkedBlock H}
    (h : T.IsPath (front ++ [last])) (hchild : T.Parent last b) :
    T.IsPath (front ++ [last] ++ [b]) := by
  constructor
  · intro a ha
    rcases List.mem_append.mp ha with hold | hnew
    · exact h.inTree a hold
    · rw [List.mem_singleton.mp hnew]
      exact hchild.right.left
  · apply h.linked.append (.singleton b)
    intro x hx y hy
    rw [List.getLast?_concat] at hx
    cases hx
    cases hy
    exact hchild

theorem growing {path : List (LinkedBlock H)} (h : T.IsPath path) :
    path.Pairwise (fun a b => a.height < b.height) := by
  have hrel : path.IsChain (fun a b => a.height < b.height) :=
    h.linked.imp (fun _ _ hparent => hparent.height_lt)
  have hheights : (path.map LinkedBlock.height).IsChain (fun m n => m < n) :=
    (List.isChain_map _).mpr hrel
  exact List.pairwise_map.mp (List.isChain_iff_pairwise.mp hheights)

theorem cut {path : List (LinkedBlock H)} (h : T.IsPath path) {p : LinkedBlock H}
    (hp : p ∈ path) :
    exists front back, path = front ++ [p] ++ back ∧
      path.filter (fun b => decide (b.height ≤ p.height)) = front ++ [p] := by
  rcases List.append_of_mem hp with ⟨front, back, hsplit⟩
  have hsplit' : path = front ++ [p] ++ back := by
    rw [hsplit, List.append_assoc, List.singleton_append]
  refine ⟨front, back, hsplit', ?_⟩
  have hgrowing := h.growing
  rw [hsplit'] at hgrowing
  rcases List.pairwise_append.mp hgrowing with ⟨hfront, _, hback⟩
  rcases List.pairwise_append.mp hfront with ⟨_, _, hbelow⟩
  have hkept : (front ++ [p]).filter (fun b => decide (b.height ≤ p.height)) =
      front ++ [p] := by
    apply List.filter_eq_self.mpr
    intro b hb
    rcases List.mem_append.mp hb with hfirst | hlast
    · exact decide_eq_true (Nat.le_of_lt (hbelow b hfirst p (List.mem_singleton_self p)))
    · rw [List.mem_singleton.mp hlast]
      exact decide_eq_true (Nat.le_refl _)
  have hdropped : back.filter (fun b => decide (b.height ≤ p.height)) = [] := by
    apply List.filter_eq_nil_iff.mpr
    intro b hb
    have habove := hback p (List.mem_append_right _ (List.mem_singleton_self p)) b hb
    simpa using habove
  rw [hsplit', List.filter_append, hkept, hdropped, List.append_nil]

theorem length_cut_lt {front : List (LinkedBlock H)} {last p : LinkedBlock H}
    (h : T.IsPath (front ++ [last])) (hp : p ∈ front ++ [last]) (hne : p ≠ last) :
    ((front ++ [last]).filter (fun b => decide (b.height ≤ p.height))).length <
      (front ++ [last]).length := by
  have hbelow : p.height < last.height := by
    rcases List.mem_append.mp hp with hfront | hlast
    · exact (List.pairwise_append.mp h.growing).right.right p hfront last
        (List.mem_singleton_self last)
    · exact absurd (List.mem_singleton.mp hlast) hne
  apply List.length_filter_lt_length_iff_exists.mpr
  refine ⟨last, List.mem_append_right _ (List.mem_singleton_self last), ?_⟩
  rw [decide_eq_true_eq]
  exact Nat.not_le_of_lt hbelow

theorem cut_snoc {path : List (LinkedBlock H)} (h : T.IsPath path) {p b : LinkedBlock H}
    (hp : p ∈ path) (hchild : T.Parent p b) :
    T.IsPath (path.filter (fun a => decide (a.height ≤ p.height)) ++ [b]) := by
  rcases h.cut hp with ⟨front, back, hsplit, hcut⟩
  rw [hcut]
  apply snoc _ hchild
  rw [hsplit] at h
  exact ⟨fun a ha => h.inTree a (List.mem_append_left _ ha), h.linked.left_of_append⟩

end IsPath
end BlockTree
end Foundation
end SpendabilityPir
