import Jbinit.Foundations.LittleEndian
import Mathlib.Algebra.Group.Int.Defs

/-!
# Reads of a buffer

Reads at an offset of a buffer that may be outside of it: the result is then `none`. What is read
inside a part of the buffer is read of that part (`bytesAt_append`).
-/

namespace Foundations.Reads

open LittleEndian

def byteAt (buf : List Byte) (p : ℤ) : Option Byte := if 0 ≤ p then buf[p.toNat]? else none

def bytesAt (buf : List Byte) (p : ℤ) : ℕ → Option (List Byte)
  | 0 => some []
  | n + 1 => do
    let b ← byteAt buf p
    let bs ← bytesAt buf (p + 1) n
    return b :: bs

/-- A little-endian word. -/
def wordAt (buf : List Byte) (p : ℤ) : Option (BitVec 32) :=
  (bytesAt buf p 4).map fun bs => BitVec.ofNat 32 (ofBytes bs)

variable {buf bs : List Byte} {b : Byte} {p : ℤ} {n : ℕ} (pre post : List Byte)

theorem byteAt_append (h : byteAt buf p = some b) :
    byteAt (pre ++ (buf ++ post)) (pre.length + p) = some b := by
  by_cases hp : 0 ≤ p
  · rw [byteAt, if_pos hp] at h
    have hlt : p.toNat < buf.length := (List.getElem?_eq_some_iff.mp h).1
    have hnat : (pre.length + p).toNat = pre.length + p.toNat := by omega
    rw [byteAt, if_pos (by omega), hnat, List.getElem?_append_right (by omega),
      Nat.add_sub_cancel_left, List.getElem?_append_left hlt, h]
  · rw [byteAt, if_neg hp] at h
    cases h

theorem bytesAt_succ : bytesAt buf p (n + 1) = some (b :: bs) ↔
    byteAt buf p = some b ∧ bytesAt buf (p + 1) n = some bs := by
  simp [bytesAt, Option.bind_eq_some_iff]

/-- **The frame of a read.** -/
theorem bytesAt_append (h : bytesAt buf p n = some bs) :
    bytesAt (pre ++ (buf ++ post)) (pre.length + p) n = some bs := by
  induction n generalizing p bs with
  | zero => exact h
  | succ n ih =>
    cases bs with
    | nil => simp [bytesAt, Option.bind_eq_some_iff] at h
    | cons b bs =>
      rw [bytesAt_succ] at h ⊢
      have hnext := ih h.2
      rw [← Int.add_assoc] at hnext
      exact ⟨byteAt_append pre post h.1, hnext⟩

theorem wordAt_append {w : BitVec 32} (h : wordAt buf p = some w) :
    wordAt (pre ++ (buf ++ post)) (pre.length + p) = some w := by
  rw [wordAt, Option.map_eq_some_iff] at h
  obtain ⟨bs, hbs, rfl⟩ := h
  rw [wordAt, bytesAt_append pre post hbs]
  rfl

/-- A list is read where it stands. -/
theorem bytesAt_length (bs : List Byte) :
    bytesAt (pre ++ (bs ++ post)) pre.length bs.length = some bs := by
  induction bs generalizing pre with
  | nil => rfl
  | cons b bs ih =>
    have hrest := ih (pre ++ [b])
    rw [List.append_assoc, List.length_append, Int.natCast_add] at hrest
    rw [List.length_cons, bytesAt_succ]
    refine ⟨?_, hrest⟩
    rw [byteAt, if_pos (by omega), Int.toNat_natCast, List.getElem?_append_right (Nat.le_refl _),
      Nat.sub_self, List.cons_append, List.getElem?_cons_zero]

/-- The words in front of a list. -/
theorem wordAt_words (words : List ℕ) {i x : ℕ} (hi : words[i]? = some x) (hx : x < 2 ^ 32) :
    wordAt (words.flatMap (toBytes 4) ++ post) (4 * i : ℕ) = some (BitVec.ofNat 32 x) := by
  obtain ⟨hlt, hget⟩ := List.getElem?_eq_some_iff.mp hi
  have hsplit : words = words.take i ++ (x :: words.drop (i + 1)) := by
    rw [← hget, List.getElem_cons_drop, List.take_append_drop]
  have hlength : ((words.take i).flatMap (toBytes 4)).length = 4 * i := by
    rw [List.length_flatMap, List.map_congr_left fun w _ => length_toBytes 4 w, List.map_const',
      List.sum_replicate_nat, List.length_take_of_le (Nat.le_of_lt hlt), Nat.mul_comm]
  have hbytes := bytesAt_length ((words.take i).flatMap (toBytes 4))
    ((words.drop (i + 1)).flatMap (toBytes 4) ++ post) (toBytes 4 x)
  rw [hlength, length_toBytes] at hbytes
  rw [hsplit, List.flatMap_append, List.flatMap_cons, List.append_assoc, List.append_assoc, wordAt,
    hbytes, Option.map_some, ofBytes_toBytes (by omega)]

end Foundations.Reads
