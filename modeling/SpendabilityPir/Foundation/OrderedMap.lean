import Mathlib.Order.Lattice
import Mathlib.Data.List.Perm.Basic
import Mathlib.Data.List.Nodup
import Mathlib.Data.List.Pairwise
import Mathlib.Data.List.Forall2

/-!
# Ordered finite maps

A map whose entries are listed in strictly increasing key order, as an ordered
tree map iterates over them.  The order is a field of the structure, so lookup,
first entry and last entry need no side condition.
-/

namespace SpendabilityPir
namespace Foundation

/-- A finite map from an ordered key type, listed by increasing key. -/
@[ext] structure OrderedMap (κ ν : Type _) [LinearOrder κ] where
  entries : List (κ × ν)
  sorted : entries.Pairwise (fun a b => a.1 < b.1)

namespace OrderedMap

variable {κ ν : Type _} [LinearOrder κ]

def empty : OrderedMap κ ν :=
  { entries := [], sorted := List.Pairwise.nil }

def find? (m : OrderedMap κ ν) (k : κ) : Option ν :=
  (m.entries.find? (fun e => decide (e.1 = k))).map Prod.snd

/-- Insert into a sorted entry list, replacing the value of an equal key. -/
def insertEntry (k : κ) (v : ν) : List (κ × ν) -> List (κ × ν)
  | [] => [(k, v)]
  | e :: rest =>
      if k < e.1 then (k, v) :: e :: rest
      else if e.1 < k then e :: insertEntry k v rest
      else (k, v) :: rest

theorem mem_insertEntry_fst {k : κ} {v : ν} {entries : List (κ × ν)}
    {e : κ × ν} (h : e ∈ insertEntry k v entries) :
    e = (k, v) ∨ e ∈ entries := by
  induction entries with
  | nil =>
      exact Or.inl (List.mem_singleton.mp h)
  | cons a rest ih =>
      unfold insertEntry at h
      split at h
      · exact List.mem_cons.mp h
      · split at h
        · rcases List.mem_cons.mp h with heq | hrest
          · exact Or.inr (heq ▸ List.mem_cons_self)
          · exact (ih hrest).imp_right (List.mem_cons_of_mem a)
        · exact (List.mem_cons.mp h).imp_right (List.mem_cons_of_mem a)

theorem sorted_insertEntry {k : κ} {v : ν} {entries : List (κ × ν)}
    (h : entries.Pairwise (fun a b => a.1 < b.1)) :
    (insertEntry k v entries).Pairwise (fun a b => a.1 < b.1) := by
  induction entries with
  | nil => exact List.pairwise_singleton _ _
  | cons a rest ih =>
      rcases List.pairwise_cons.mp h with ⟨hhead, htail⟩
      unfold insertEntry
      split
      · next hlt =>
          refine List.pairwise_cons.mpr ⟨?_, h⟩
          intro b hb
          rcases List.mem_cons.mp hb with heq | hrest
          · rw [heq]
            exact hlt
          · exact lt_trans hlt (hhead b hrest)
      · next hnlt =>
          split
          · next hgt =>
              refine List.pairwise_cons.mpr ⟨?_, ih htail⟩
              intro b hb
              rcases mem_insertEntry_fst hb with heq | hrest
              · rw [heq]
                exact hgt
              · exact hhead b hrest
          · next hngt =>
              have hk : k = a.1 := le_antisymm (not_lt.mp hngt) (not_lt.mp hnlt)
              refine List.pairwise_cons.mpr ⟨?_, htail⟩
              intro b hb
              show k < b.1
              rw [hk]
              exact hhead b hb

def insert (m : OrderedMap κ ν) (k : κ) (v : ν) : OrderedMap κ ν :=
  { entries := insertEntry k v m.entries
    sorted := sorted_insertEntry m.sorted }

def erase (m : OrderedMap κ ν) (k : κ) : OrderedMap κ ν :=
  { entries := m.entries.filter (fun e => decide (e.1 ≠ k))
    sorted := m.sorted.filter _ }

def filterValues (m : OrderedMap κ ν) (p : ν -> Bool) : OrderedMap κ ν :=
  { entries := m.entries.filter (fun e => p e.2)
    sorted := m.sorted.filter _ }

def filterKeys (m : OrderedMap κ ν) (p : κ -> Bool) : OrderedMap κ ν :=
  { entries := m.entries.filter (fun e => p e.1)
    sorted := m.sorted.filter _ }

def first? (m : OrderedMap κ ν) : Option (κ × ν) :=
  m.entries.head?

def last? (m : OrderedMap κ ν) : Option (κ × ν) :=
  m.entries.getLast?

def size (m : OrderedMap κ ν) : Nat :=
  m.entries.length

/-!
## Lookup
-/

theorem eq_of_mem_of_fst_eq {m : OrderedMap κ ν} {a b : κ × ν}
    (ha : a ∈ m.entries) (hb : b ∈ m.entries) (h : a.1 = b.1) : a = b := by
  by_contra hne
  have hpair : m.entries.Pairwise (fun x y => x.1 ≠ y.1) :=
    m.sorted.imp (fun hlt => ne_of_lt hlt)
  have hsymm : Std.Symm (fun x y : κ × ν => x.1 ≠ y.1) := ⟨fun _ _ hxy => hxy.symm⟩
  exact hpair.forall ha hb hne h

theorem mem_entries_iff {m : OrderedMap κ ν} {k : κ} {v : ν} :
    (k, v) ∈ m.entries ↔ m.find? k = some v := by
  constructor
  · intro hmem
    cases hfind : m.entries.find? (fun e => decide (e.1 = k)) with
    | none =>
        have hnone := List.find?_eq_none.mp hfind (k, v) hmem
        simp at hnone
    | some e =>
        have hkey : e.1 = k := by simpa using List.find?_some hfind
        have he : e = (k, v) :=
          eq_of_mem_of_fst_eq (List.mem_of_find?_eq_some hfind) hmem hkey
        rw [find?, hfind, he]
        rfl
  · intro hfind
    rcases Option.map_eq_some_iff.mp hfind with ⟨e, he, hv⟩
    have hkey : e.1 = k := by simpa using List.find?_some he
    have hpair : e = (k, v) := Prod.ext hkey hv
    exact hpair ▸ List.mem_of_find?_eq_some he

theorem find?_eq_none_iff {m : OrderedMap κ ν} {k : κ} :
    m.find? k = none ↔ forall v, (k, v) ∉ m.entries := by
  constructor
  · intro hnone v hmem
    rw [mem_entries_iff.mp hmem] at hnone
    cases hnone
  · intro hall
    cases hfind : m.find? k with
    | none => rfl
    | some v => exact absurd (mem_entries_iff.mpr hfind) (hall v)

@[simp] theorem find?_empty (k : κ) : (empty : OrderedMap κ ν).find? k = none := rfl

theorem mem_insertEntry_iff {k k' : κ} {v v' : ν} {entries : List (κ × ν)}
    (hsorted : entries.Pairwise (fun a b => a.1 < b.1)) :
    (k', v') ∈ insertEntry k v entries ↔
      (k' = k ∧ v' = v) ∨ (k' ≠ k ∧ (k', v') ∈ entries) := by
  induction entries with
  | nil => simp [insertEntry]
  | cons a rest ih =>
      rcases List.pairwise_cons.mp hsorted with ⟨hhead, htail⟩
      have hne : forall b, b ∈ rest -> a.1 < b.1 := hhead
      unfold insertEntry
      split
      · next hlt =>
          have hout : (k', v') ∈ a :: rest -> k' ≠ k := by
            intro hmem heq
            rcases List.mem_cons.mp hmem with h | h
            · exact absurd hlt (by rw [← h, heq]; exact lt_irrefl k)
            · exact absurd (lt_trans hlt (hne _ h)) (by rw [← heq]; exact lt_irrefl _)
          constructor
          · intro hmem
            rcases List.mem_cons.mp hmem with h | h
            · exact Or.inl ⟨congrArg Prod.fst h, congrArg Prod.snd h⟩
            · exact Or.inr ⟨hout h, h⟩
          · rintro (⟨rfl, rfl⟩ | ⟨-, h⟩)
            · exact List.mem_cons_self
            · exact List.mem_cons_of_mem _ h
      · next hnlt =>
          split
          · next hgt =>
              rw [List.mem_cons, ih htail, List.mem_cons]
              constructor
              · rintro (h | h | ⟨hk, h⟩)
                · refine Or.inr ⟨?_, Or.inl h⟩
                  intro heq
                  rw [← h, heq] at hgt
                  exact lt_irrefl k hgt
                · exact Or.inl h
                · exact Or.inr ⟨hk, Or.inr h⟩
              · rintro (h | ⟨hk, h | h⟩)
                · exact Or.inr (Or.inl h)
                · exact Or.inl h
                · exact Or.inr (Or.inr ⟨hk, h⟩)
          · next hngt =>
              have hk : k = a.1 := le_antisymm (not_lt.mp hngt) (not_lt.mp hnlt)
              rw [List.mem_cons, List.mem_cons]
              constructor
              · rintro (h | h)
                · exact Or.inl ⟨congrArg Prod.fst h, congrArg Prod.snd h⟩
                · refine Or.inr ⟨?_, Or.inr h⟩
                  intro heq
                  have hlt := hne _ h
                  rw [← hk, heq] at hlt
                  exact lt_irrefl k hlt
              · rintro (⟨rfl, rfl⟩ | ⟨hk', h | h⟩)
                · exact Or.inl rfl
                · exact absurd (by rw [hk, ← h]) hk'
                · exact Or.inr h

theorem mem_insert_iff {m : OrderedMap κ ν} {k k' : κ} {v v' : ν} :
    (k', v') ∈ (m.insert k v).entries ↔
      (k' = k ∧ v' = v) ∨ (k' ≠ k ∧ (k', v') ∈ m.entries) :=
  mem_insertEntry_iff m.sorted

@[simp] theorem find?_insert (m : OrderedMap κ ν) (k k' : κ) (v : ν) :
    (m.insert k v).find? k' = if k' = k then some v else m.find? k' := by
  split
  · next heq =>
      exact mem_entries_iff.mp (mem_insert_iff.mpr (Or.inl ⟨heq, rfl⟩))
  · next hne =>
      apply Option.ext
      intro w
      rw [← mem_entries_iff, ← mem_entries_iff, mem_insert_iff]
      simp [hne]

theorem mem_erase_iff {m : OrderedMap κ ν} {k k' : κ} {v : ν} :
    (k', v) ∈ (m.erase k).entries ↔ k' ≠ k ∧ (k', v) ∈ m.entries := by
  simp only [erase, List.mem_filter, decide_eq_true_eq]
  exact And.comm

@[simp] theorem find?_erase (m : OrderedMap κ ν) (k k' : κ) :
    (m.erase k).find? k' = if k' = k then none else m.find? k' := by
  split
  · next heq =>
      apply find?_eq_none_iff.mpr
      intro v hmem
      exact (mem_erase_iff.mp hmem).left heq
  · next hne =>
      apply Option.ext
      intro w
      rw [← mem_entries_iff, ← mem_entries_iff, mem_erase_iff]
      simp [hne]

@[simp] theorem find?_filterValues (m : OrderedMap κ ν) (p : ν -> Bool) (k : κ) :
    (m.filterValues p).find? k = (m.find? k).filter p := by
  apply Option.ext
  intro v
  rw [← mem_entries_iff, Option.filter_eq_some_iff, ← mem_entries_iff]
  exact List.mem_filter

theorem find?_filterKeys_eq_some_iff {m : OrderedMap κ ν} {p : κ -> Bool} {k : κ} {v : ν} :
    (m.filterKeys p).find? k = some v ↔ m.find? k = some v ∧ p k = true := by
  rw [← mem_entries_iff, ← mem_entries_iff]
  exact List.mem_filter

theorem filterKeys_filterKeys (m : OrderedMap κ ν) (p q : κ -> Bool) :
    (m.filterKeys p).filterKeys q = m.filterKeys (fun k => p k && q k) := by
  apply OrderedMap.ext
  show (m.entries.filter _).filter _ = m.entries.filter _
  rw [List.filter_filter]
  simp only [Bool.and_comm]

theorem filterKeys_of_forall {m : OrderedMap κ ν} {p : κ -> Bool}
    (h : forall k v, m.find? k = some v -> p k = true) : m.filterKeys p = m := by
  apply OrderedMap.ext
  apply List.filter_eq_self.mpr
  rintro ⟨k, v⟩ hmem
  exact h k v (mem_entries_iff.mp hmem)

/-- Removing a key keeps the entries of the other keys. -/
theorem erase_eq_filterKeys (m : OrderedMap κ ν) (k : κ) :
    m.erase k = m.filterKeys (fun k' => decide (k' ≠ k)) := rfl

/-- Two ordered maps with the same lookups have the same entries. -/
theorem ext_find? {m m' : OrderedMap κ ν}
    (h : forall k, m.find? k = m'.find? k) : m = m' := by
  have hnodup : forall x : OrderedMap κ ν, x.entries.Nodup := fun x =>
    x.sorted.imp (fun hlt heq => absurd hlt (by rw [heq]; exact lt_irrefl _))
  have hperm : m.entries.Perm m'.entries := by
    apply (List.perm_ext_iff_of_nodup (hnodup m) (hnodup m')).mpr
    rintro ⟨k, v⟩
    rw [mem_entries_iff, mem_entries_iff, h k]
  have hentries : m.entries = m'.entries :=
    hperm.eq_of_pairwise
      (fun _ _ _ _ hab hba => absurd (lt_trans hab hba) (lt_irrefl _))
      m.sorted m'.sorted
  cases m
  cases m'
  cases hentries
  rfl

/-!
## Entries after an update
-/

theorem entries_insert_perm {m : OrderedMap κ ν} {k : κ} (v : ν)
    (h : m.find? k = none) :
    (m.insert k v).entries.Perm ((k, v) :: m.entries) := by
  have hfresh := find?_eq_none_iff.mp h
  show (insertEntry k v m.entries).Perm _
  generalize m.entries = entries at hfresh
  induction entries with
  | nil => exact List.Perm.refl _
  | cons a rest ih =>
      unfold insertEntry
      split
      · exact List.Perm.refl _
      · next hnlt =>
          split
          · have hrest := ih (fun v hmem => hfresh v (List.mem_cons_of_mem a hmem))
            exact (hrest.cons a).trans (List.Perm.swap (k, v) a rest)
          · next hngt =>
              have hk : k = a.1 := le_antisymm (not_lt.mp hngt) (not_lt.mp hnlt)
              exact absurd (hk ▸ List.mem_cons_self) (hfresh a.2)

theorem entries_perm_erase {m : OrderedMap κ ν} {k : κ} {v : ν}
    (h : m.find? k = some v) :
    m.entries.Perm ((k, v) :: (m.erase k).entries) := by
  have hfresh : (m.erase k).find? k = none := by simp
  have hback : (m.erase k).insert k v = m := by
    apply ext_find?
    intro k'
    rw [find?_insert, find?_erase]
    split
    · next heq => rw [heq, h]
    · rfl
  have hperm := entries_insert_perm v hfresh
  rwa [hback] at hperm

theorem erase_insert {m : OrderedMap κ ν} {k : κ} (v : ν) (h : m.find? k = none) :
    (m.insert k v).erase k = m := by
  apply ext_find?
  intro k'
  rw [find?_erase, find?_insert]
  split
  · next heq => rw [heq, h]
  · rfl

theorem insert_entries_of_lt {m : OrderedMap κ ν} {k : κ} (v : ν)
    (h : forall e, e ∈ m.entries -> e.1 < k) :
    (m.insert k v).entries = m.entries ++ [(k, v)] := by
  show insertEntry k v m.entries = _
  generalize m.entries = entries at h
  induction entries with
  | nil => rfl
  | cons a rest ih =>
      have ha : a.1 < k := h a List.mem_cons_self
      unfold insertEntry
      rw [if_neg (not_lt_of_gt ha), if_pos ha,
        ih (fun e he => h e (List.mem_cons_of_mem a he))]
      rfl

theorem size_erase_lt {m : OrderedMap κ ν} {k : κ} {v : ν}
    (h : m.find? k = some v) : (m.erase k).size < m.size := by
  have hlen := (entries_perm_erase h).length_eq
  simp only [size, hlen, List.length_cons]
  exact Nat.lt_succ_self _

/-!
## First and last entries
-/

theorem find?_of_first? {m : OrderedMap κ ν} {e : κ × ν}
    (h : m.first? = some e) : m.find? e.1 = some e.2 :=
  mem_entries_iff.mp (List.mem_of_head? h)

theorem le_of_first? {m : OrderedMap κ ν} {e : κ × ν} (h : m.first? = some e)
    {k : κ} {v : ν} (hk : m.find? k = some v) : e.1 ≤ k := by
  have hmem := mem_entries_iff.mpr hk
  have hsorted := m.sorted
  unfold first? at h
  cases hentries : m.entries with
  | nil =>
      rw [hentries] at hmem
      cases hmem
  | cons a rest =>
      rw [hentries] at h hmem hsorted
      cases h
      rcases List.mem_cons.mp hmem with heq | hrest
      · rw [← heq]
      · exact le_of_lt ((List.pairwise_cons.mp hsorted).left _ hrest)

theorem find?_of_last? {m : OrderedMap κ ν} {e : κ × ν}
    (h : m.last? = some e) : m.find? e.1 = some e.2 :=
  mem_entries_iff.mp (List.mem_of_getLast? h)

theorem le_of_last? {m : OrderedMap κ ν} {e : κ × ν} (h : m.last? = some e)
    {k : κ} {v : ν} (hk : m.find? k = some v) : k ≤ e.1 := by
  have hmem := mem_entries_iff.mpr hk
  have hsorted := m.sorted
  rcases List.getLast?_eq_some_iff.mp h with ⟨front, hfront⟩
  rw [hfront] at hmem hsorted
  rcases List.mem_append.mp hmem with hin | hlast
  · have hcross := (List.pairwise_append.mp hsorted).right.right
    exact le_of_lt (hcross _ hin _ (List.mem_singleton.mpr rfl))
  · rw [← List.mem_singleton.mp hlast]

theorem entries_erase_first {m : OrderedMap κ ν} {e : κ × ν} {rest : List (κ × ν)}
    (h : m.entries = e :: rest) : (m.erase e.1).entries = rest := by
  have hsorted := m.sorted
  rw [h] at hsorted
  show m.entries.filter (fun a => decide (a.1 ≠ e.1)) = rest
  rw [h, List.filter_cons_of_neg (by simp)]
  apply List.filter_eq_self.mpr
  intro a ha
  have hlt := (List.pairwise_cons.mp hsorted).left a ha
  simp [ne_of_gt hlt]

theorem first?_eq_none_iff {m : OrderedMap κ ν} :
    m.first? = none ↔ forall k, m.find? k = none := by
  constructor
  · intro h k
    have hnil : m.entries = [] := List.head?_eq_none_iff.mp h
    rw [find?_eq_none_iff, hnil]
    simp
  · intro h
    cases hfirst : m.first? with
    | none => rfl
    | some e =>
        have hfind := find?_of_first? hfirst
        rw [h] at hfind
        cases hfind

theorem last?_eq_none_iff {m : OrderedMap κ ν} :
    m.last? = none ↔ forall k, m.find? k = none := by
  rw [← first?_eq_none_iff]
  show m.entries.getLast? = none ↔ m.entries.head? = none
  rw [List.getLast?_eq_none_iff, List.head?_eq_none_iff]

/-!
## Maps with related values
-/

section Related

variable {ν' : Type _} {R : κ -> ν -> ν' -> Prop} {m : OrderedMap κ ν} {m' : OrderedMap κ ν'}

theorem exists_related {k : κ} {v : ν} (h : Option.Rel (R k) (m.find? k) (m'.find? k))
    (hv : m.find? k = some v) : exists v', m'.find? k = some v' ∧ R k v v' := by
  rw [hv] at h
  generalize m'.find? k = found at h
  cases h with
  | some hr => exact ⟨_, rfl, hr⟩

theorem find?_none_iff_of_related {k : κ}
    (h : Option.Rel (R k) (m.find? k) (m'.find? k)) :
    m.find? k = none ↔ m'.find? k = none := by
  generalize m.find? k = found at h
  generalize m'.find? k = found' at h
  cases h <;> simp

theorem first?_related (h : forall k, Option.Rel (R k) (m.find? k) (m'.find? k))
    {e : κ × ν} (hfirst : m.first? = some e) :
    exists v', m'.first? = some (e.1, v') ∧ R e.1 e.2 v' := by
  rcases exists_related (h e.1) (find?_of_first? hfirst) with ⟨v', hv', hr⟩
  cases hfirst' : m'.first? with
  | none =>
      rw [first?_eq_none_iff.mp hfirst' e.1] at hv'
      cases hv'
  | some e' =>
      have hfind' := find?_of_first? hfirst'
      have hle : e'.1 ≤ e.1 := le_of_first? hfirst' hv'
      have hge : e.1 ≤ e'.1 := by
        cases hfind : m.find? e'.1 with
        | none =>
            rw [(find?_none_iff_of_related (h e'.1)).mp hfind] at hfind'
            cases hfind'
        | some v => exact le_of_first? hfirst hfind
      have hkey : e'.1 = e.1 := le_antisymm hle hge
      rw [hkey, hv'] at hfind'
      cases hfind'
      exact ⟨_, congrArg some (Prod.ext hkey rfl), hr⟩

theorem forall₂_entries (h : forall k, Option.Rel (R k) (m.find? k) (m'.find? k)) :
    List.Forall₂ (fun a b => a.1 = b.1 ∧ R a.1 a.2 b.2) m.entries m'.entries := by
  induction hentries : m.entries generalizing m m' with
  | nil =>
      have hnil : m.first? = none := by
        rw [first?, hentries]
        rfl
      have hnil' : m'.first? = none := by
        rw [first?_eq_none_iff] at hnil ⊢
        intro k
        exact (find?_none_iff_of_related (h k)).mp (hnil k)
      rw [List.head?_eq_none_iff.mp hnil']
      exact List.Forall₂.nil
  | cons e rest ih =>
      have hfirst : m.first? = some e := by
        rw [first?, hentries]
        rfl
      rcases first?_related h hfirst with ⟨v', hfirst', hr⟩
      rcases List.head?_eq_some_iff.mp hfirst' with ⟨rest', hentries'⟩
      have herased : forall k, Option.Rel (R k) ((m.erase e.1).find? k)
          ((m'.erase e.1).find? k) := by
        intro k
        rw [find?_erase, find?_erase]
        split
        · exact Option.Rel.none
        · exact h k
      have htail := ih herased (entries_erase_first hentries)
      rw [entries_erase_first hentries'] at htail
      rw [hentries']
      exact List.Forall₂.cons ⟨rfl, hr⟩ htail

end Related

end OrderedMap
end Foundation
end SpendabilityPir
