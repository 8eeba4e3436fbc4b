import Mathlib.Data.Vector.Basic

/-!
# Byte strings

Little-endian numbers, concatenations of fixed-width pieces, and reading at a
position.  Encoders build one list by appending; decoders index into it, so the
lemmas here are stated on `List.drop` and `List.take`.
-/

namespace SpendabilityPir
namespace Foundation

abbrev ByteVec (n : Nat) := List.Vector UInt8 n

namespace ByteVec

def zeros (n : Nat) : ByteVec n := List.Vector.replicate n 0

/-- Copy a byte string into an array of n bytes, zero-padded or cut to fit. -/
def ofBytes (n : Nat) (bytes : List UInt8) : ByteVec n :=
  ⟨(bytes ++ List.replicate n 0).take n, by simp⟩

theorem toList_ofBytes {n : Nat} {bytes : List UInt8} (h : bytes.length = n) :
    (ofBytes n bytes).toList = bytes := by
  show (bytes ++ List.replicate n 0).take n = bytes
  rw [List.take_append_of_le_length (Nat.le_of_eq h.symm),
    List.take_of_length_le (Nat.le_of_eq h)]

theorem ofBytes_toList {n : Nat} (v : ByteVec n) : ofBytes n v.toList = v := by
  apply List.Vector.eq
  exact toList_ofBytes v.toList_length

end ByteVec

/-!
## Little-endian numbers
-/

/-- The w low-order bytes of a number, least significant first. -/
def leBytes : Nat -> Nat -> List UInt8
  | 0, _ => []
  | w + 1, n => UInt8.ofNat n :: leBytes w (n / 256)

def leNat : List UInt8 -> Nat
  | [] => 0
  | b :: rest => b.toNat + 256 * leNat rest

@[simp] theorem length_leBytes (w n : Nat) : (leBytes w n).length = w := by
  induction w generalizing n with
  | zero => rfl
  | succ w ih => simp [leBytes, ih]

theorem leNat_leBytes_mod (w n : Nat) : leNat (leBytes w n) = n % 256 ^ w := by
  induction w generalizing n with
  | zero =>
      show 0 = n % 1
      rw [Nat.mod_one]
  | succ w ih =>
      have hmul : 256 ^ (w + 1) = 256 * 256 ^ w := Nat.pow_succ'
      rw [leBytes, leNat, ih, hmul, Nat.mod_mul]
      rfl

theorem leNat_leBytes {w n : Nat} (h : n < 256 ^ w) :
    leNat (leBytes w n) = n := by
  rw [leNat_leBytes_mod, Nat.mod_eq_of_lt h]

/-!
## Fixed-width pieces
-/

def slice {α : Type _} (xs : List α) (start len : Nat) : List α :=
  (xs.drop start).take len

theorem length_flatMap_const {α β : Type _} {f : α -> List β} {n : Nat}
    (hf : forall a, (f a).length = n) (xs : List α) :
    (xs.flatMap f).length = xs.length * n := by
  induction xs with
  | nil => simp
  | cons x rest ih =>
      rw [List.flatMap_cons, List.length_append, hf, ih, List.length_cons,
        Nat.succ_mul, Nat.add_comm]

theorem drop_flatMap_const {α β : Type _} {f : α -> List β} {n : Nat}
    (hf : forall a, (f a).length = n) (xs : List α) (i : Nat) :
    (xs.flatMap f).drop (i * n) = (xs.drop i).flatMap f := by
  induction i generalizing xs with
  | zero => simp
  | succ i ih =>
      cases xs with
      | nil => simp
      | cons x rest =>
          have hsplit : (i + 1) * n = (f x).length + i * n := by
            rw [hf, Nat.succ_mul, Nat.add_comm]
          rw [List.flatMap_cons, hsplit, List.drop_length_add_append,
            List.drop_succ_cons, ih]

/-- Piece i of a concatenation of n-byte pieces is the i-th piece. -/
theorem slice_flatMap_const {α β : Type _} {f : α -> List β} {n : Nat}
    (hf : forall a, (f a).length = n) (xs : List α) {i : Nat}
    (hi : i < xs.length) :
    slice (xs.flatMap f) (i * n) n = f (xs[i]) := by
  rw [slice, drop_flatMap_const hf, List.drop_eq_getElem_cons hi,
    List.flatMap_cons, List.take_append_of_le_length (Nat.le_of_eq (hf _).symm),
    List.take_of_length_le (Nat.le_of_eq (hf _))]

theorem slice_append_left {α : Type _} (xs ys : List α) {start len : Nat}
    (h : start + len ≤ xs.length) :
    slice (xs ++ ys) start len = slice xs start len := by
  rw [slice, slice, List.drop_append_of_le_length (by lia),
    List.take_append_of_le_length (by rw [List.length_drop]; lia)]

theorem slice_slice {α : Type _} (xs : List α) {a m i n : Nat}
    (h : i + n ≤ m) : slice (slice xs a m) i n = slice xs (a + i) n := by
  rw [slice, slice, slice, List.drop_take, List.drop_drop, List.take_take,
    Nat.min_eq_left (by lia)]

/-- The consecutive full pieces of n elements; a shorter rest is dropped. -/
def chunksExact {α : Type _} (n : Nat) (xs : List α) : List (List α) :=
  (List.range (xs.length / n)).map (fun i => slice xs (i * n) n)

theorem chunksExact_flatMap_const {α β : Type _} {f : α -> List β} {n : Nat}
    (hn : 0 < n) (hf : forall a, (f a).length = n) (xs : List α) :
    chunksExact n (xs.flatMap f) = xs.map f := by
  have hcount : (xs.flatMap f).length / n = xs.length := by
    rw [length_flatMap_const hf, Nat.mul_div_cancel _ hn]
  apply List.ext_getElem
  · rw [chunksExact, List.length_map, List.length_range, List.length_map, hcount]
  · intro i hi hi'
    have hlt : i < xs.length := by simpa using hi'
    simp only [chunksExact, List.getElem_map, List.getElem_range]
    exact slice_flatMap_const hf xs hlt

theorem chunksExact_take {α : Type _} {k : Nat} (hk : 0 < k) (xs : List α) (n : Nat) :
    chunksExact k (xs.take n) = (chunksExact k xs).take (n / k) := by
  rw [chunksExact, chunksExact, ← List.map_take, List.take_range, List.length_take]
  have hcount : min n xs.length / k = min (n / k) (xs.length / k) := by
    rcases Nat.le_total n xs.length with hle | hle
    · rw [Nat.min_eq_left hle, Nat.min_eq_left (Nat.div_le_div_right hle)]
    · rw [Nat.min_eq_right hle, Nat.min_eq_right (Nat.div_le_div_right hle)]
  rw [hcount]
  apply List.map_congr_left
  intro i hi
  have hlt : i < n / k := Nat.lt_of_lt_of_le (List.mem_range.mp hi) (Nat.min_le_left _ _)
  have hend : i * k + k ≤ n := by
    have hmul := Nat.mul_le_of_le_div k (i + 1) n hlt
    rwa [Nat.add_mul, Nat.one_mul] at hmul
  rw [slice, slice, List.drop_take, List.take_take, Nat.min_eq_left (by lia)]

/-!
## Reading at a position

A decoder holds the whole byte string and a position.  Each fact about it starts
from what is left there, `bytes.drop pos`.
-/

/-- The n bytes at a position, when the string has that many left. -/
def bytesAt? (n : Nat) (bytes : List UInt8) (pos : Nat) : Option (ByteVec n) :=
  if h : (slice bytes pos n).length = n then some ⟨slice bytes pos n, h⟩ else none

theorem drop_add_of_drop_eq {α : Type _} {xs front rest : List α} {pos n : Nat}
    (h : xs.drop pos = front ++ rest) (hn : front.length = n) :
    xs.drop (pos + n) = rest := by
  rw [← List.drop_drop, h, ← hn, List.drop_left]

theorem bytesAt?_of_drop_eq {n : Nat} {bytes rest front : List UInt8} {pos : Nat}
    (h : bytes.drop pos = front ++ rest) (hn : front.length = n) :
    bytesAt? n bytes pos = some ⟨front, hn⟩ := by
  have hslice : slice bytes pos n = front := by
    rw [slice, h, List.take_append_of_le_length (Nat.le_of_eq hn.symm),
      List.take_of_length_le (Nat.le_of_eq hn)]
  have hlen : (slice bytes pos n).length = n := by
    rw [hslice, hn]
  rw [bytesAt?, dif_pos hlen]
  congr 1
  exact List.Vector.eq _ _ hslice

theorem toList_of_bytesAt? {n : Nat} {bytes : List UInt8} {pos : Nat} {v : ByteVec n}
    (h : bytesAt? n bytes pos = some v) : v.toList = slice bytes pos n := by
  unfold bytesAt? at h
  split at h
  · cases h
    rfl
  · cases h

theorem bytesAt?_of_le {n : Nat} {bytes : List UInt8} {pos : Nat}
    (h : pos + n ≤ bytes.length) :
    exists v, bytesAt? n bytes pos = some v ∧ v.toList = slice bytes pos n := by
  have hlen : (slice bytes pos n).length = n := by
    rw [slice, List.length_take, List.length_drop]
    lia
  exact ⟨⟨slice bytes pos n, hlen⟩, dif_pos hlen, rfl⟩

theorem bytesAt?_of_gt {n : Nat} (hn : 0 < n) {bytes : List UInt8} {pos : Nat}
    (h : bytes.length < pos + n) : bytesAt? n bytes pos = none := by
  apply dif_neg
  rw [slice, List.length_take, List.length_drop]
  lia

end Foundation
end SpendabilityPir
