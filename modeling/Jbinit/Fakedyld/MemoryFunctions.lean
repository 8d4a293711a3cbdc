import Jbinit.Fakedyld.SystemInfo
import Jbinit.Foundations.LittleEndian
import Jbinit.Foundations.Memory
import Mathlib.Data.BitVec

/-!
# `memset`, `memcpy` and `memmove`

`memset` writes four bytes from each end, whatever the alignment is, and then the aligned words in
between: together they are the bytes that were asked for (`memset_eq`). `memcpy` goes backwards when
the destination is behind the source, with an `int` for the position, so that up to `2 ^ 31` bytes
are copied as they were before the call, whether the two overlap or not (`memmove_eq`).
-/

namespace Jbinit.Fakedyld

open Foundations Memory LittleEndian

/-! ## `memset` -/

/-- `s[i] = s[n - 1 - i] = c`. -/
def setEnds (mem : ℕ → Byte) (s n i : ℕ) (c : Byte) : ℕ → Byte :=
  Function.update (Function.update mem (s + (n - 1 - i)) c) (s + i) c

/-- `for(; n; n--, ws++) *ws = wc`. -/
def setWords (wc : BitVec 32) : ℕ → ℕ → (ℕ → Byte) → ℕ → Byte
  | 0, _, mem => mem
  | n + 1, ws, mem => setWords wc n (ws + 4) (store mem ws (toBytes 4 wc.toNat))

/-- The byte four times. -/
def wordOf (c : BitVec 32) : BitVec 32 :=
  let wc := c &&& 0xFF#32
  wc ||| ((wc <<< 8) ||| (wc <<< 16) ||| (wc <<< 24))

def memset (mem : ℕ → Byte) (dest : ℕ) (c : BitVec 32) (n : BitVec 64) : ℕ → Byte :=
  let b : Byte := c.setWidth 8
  if n.toNat = 0 then mem
  else
    let mem := setEnds mem dest n.toNat 0 b
    if n.toNat ≤ 2 then mem
    else
      let mem := setEnds (setEnds mem dest n.toNat 1 b) dest n.toNat 2 b
      if n.toNat ≤ 6 then mem
      else
        let mem := setEnds mem dest n.toNat 3 b
        if n.toNat ≤ 8 then mem
        else
          let k := -BitVec.ofNat 64 dest &&& 3#64
          setWords (wordOf c) (((n - k) &&& -4#64) / 4#64).toNat (dest + k.toNat) mem

/-! ## `memcpy` -/

variable {α : Type}

/-- `while (n--) { d[pos] = s[pos]; pos += dir; }`. -/
def memcpyLoop (s d : ℕ) (dir : ℤ) : ℕ → ℤ → (ℕ → α) → ℕ → α
  | 0, _, mem => mem
  | n + 1, pos, mem =>
    memcpyLoop s d dir n (toInt (pos + dir))
      (Function.update mem (d + pos).toNat (mem (s + pos).toNat))

def memcpy (mem : ℕ → α) (dst src n : ℕ) : ℕ → α :=
  if src < dst then memcpyLoop src dst (-1) n (toInt (n - 1)) mem
  else memcpyLoop src dst 1 n 0 mem

def memmove (mem : ℕ → α) (dest src n : ℕ) : ℕ → α := memcpy mem dest src n

/-! ## The words of `memset` -/

theorem toBytes_wordOf (c : BitVec 32) :
    toBytes 4 (wordOf c).toNat = List.replicate 4 (c.setWidth 8) := by
  have hbytes : ∀ b : Byte, toBytes 4 (wordOf (b.setWidth 32)).toNat = List.replicate 4 b := by
    decide +kernel
  have hlow : wordOf c = wordOf ((c.setWidth 8).setWidth 32) := by
    have hand : c &&& 0xFF#32 = (c.setWidth 8).setWidth 32 &&& 0xFF#32 := by
      have hmask : (0xFF#32).toNat = 2 ^ 8 - 1 := rfl
      apply BitVec.eq_of_toNat_eq
      rw [BitVec.toNat_and, BitVec.toNat_and, hmask, Nat.and_two_pow_sub_one_eq_mod,
        Nat.and_two_pow_sub_one_eq_mod, BitVec.toNat_setWidth, BitVec.toNat_setWidth]
      omega
    unfold wordOf
    rw [hand]
  rw [hlow, hbytes]

theorem setWords_eq (c : BitVec 32) (n ws : ℕ) (mem : ℕ → Byte) :
    setWords (wordOf c) n ws mem = store mem ws (List.replicate (4 * n) (c.setWidth 8)) := by
  induction n generalizing ws mem with
  | zero => exact (store_nil mem ws).symm
  | succ n ih =>
    have hlength : (List.replicate 4 (c.setWidth 8)).length = 4 := List.length_replicate
    rw [setWords, ih, toBytes_wordOf, show 4 * (n + 1) = 4 + 4 * n by omega, List.replicate_add,
      store_append, hlength]

theorem toNat_alignment (dest : ℕ) :
    (-BitVec.ofNat 64 dest &&& 3#64).toNat = (4 - dest % 4) % 4 := by
  have hmask : (3#64).toNat = 2 ^ 2 - 1 := rfl
  rw [BitVec.toNat_and, hmask, Nat.and_two_pow_sub_one_eq_mod, BitVec.toNat_neg, BitVec.toNat_ofNat]
  omega

theorem toNat_words (n : BitVec 64) : ((n &&& -4#64) / 4#64).toNat = n.toNat / 4 := by
  have hmask : (-4#64).toNat >>> 2 = 2 ^ 62 - 1 := rfl
  have hlt := n.isLt
  have hfour (m : ℕ) : m / 4 = m >>> 2 := by rw [Nat.shiftRight_eq_div_pow]
  rw [BitVec.toNat_udiv, BitVec.toNat_and, show (4#64).toNat = 4 from rfl, hfour,
    Nat.shiftRight_and_distrib, hmask, Nat.and_two_pow_sub_one_eq_mod, ← hfour,
    Nat.mod_eq_of_lt (by omega)]

/-- What is filled. -/
theorem store_replicate_apply {β : Type} (mem : ℕ → β) (i n j : ℕ) (c : β) :
    store mem i (List.replicate n c) j = if i ≤ j ∧ j < i + n then c else mem j := by
  rcases Nat.lt_or_ge j i with hlt | hge
  · rw [store_of_lt hlt, if_neg (by omega)]
  rcases Nat.lt_or_ge j (i + n) with hin | hout
  · obtain ⟨k, rfl⟩ := Nat.exists_eq_add_of_le hge
    rw [store_add (by rw [List.length_replicate]; omega), List.getElem_replicate, if_pos (by omega)]
  · rw [store_of_le (by rw [List.length_replicate]; omega), if_neg (by omega)]

theorem setEnds_apply (mem : ℕ → Byte) (s n i j : ℕ) (c : Byte) :
    setEnds mem s n i c j = if j = s + i ∨ j = s + (n - 1 - i) then c else mem j := by
  unfold setEnds
  rw [Function.update_apply, Function.update_apply]
  split_ifs <;> first | rfl | omega

/-- **`memset` fills `n` bytes**, from any address on, and nothing else. -/
theorem memset_eq (mem : ℕ → Byte) (dest : ℕ) (c : BitVec 32) (n : BitVec 64) :
    memset mem dest c n = store mem dest (List.replicate n.toNat (c.setWidth 8)) := by
  funext j
  rw [store_replicate_apply]
  unfold memset
  dsimp only
  split
  case isTrue => rw [if_neg (by omega)]
  split
  case isTrue =>
    rw [setEnds_apply]
    split_ifs <;> first | rfl | omega
  split
  case isTrue =>
    simp only [setEnds_apply]
    split_ifs <;> first | rfl | omega
  split
  case isTrue =>
    simp only [setEnds_apply]
    split_ifs <;> first | rfl | omega
  -- The words reach from the first four bytes to the last four.
  have hk := toNat_alignment dest
  have hlt := n.isLt
  have hsub : (n - (-BitVec.ofNat 64 dest &&& 3#64)).toNat = n.toNat - (4 - dest % 4) % 4 := by
    rw [BitVec.toNat_sub, hk]
    omega
  rw [setWords_eq, store_replicate_apply, toNat_words, hsub, hk]
  simp only [setEnds_apply]
  split_ifs <;> first | rfl | omega

/-- `bzero`. -/
def bzero (s : ℕ) : ℕ → (ℕ → Byte) → ℕ → Byte
  | 0, mem => mem
  | n + 1, mem => Function.update (bzero s n mem) (s + n) 0#8

theorem bzero_eq (mem : ℕ → Byte) (s n : ℕ) :
    bzero s n mem = store mem s (List.replicate n 0#8) := by
  induction n with
  | zero => exact (store_nil mem s).symm
  | succ n ih =>
    have hlength : (List.replicate n 0#8).length = n := List.length_replicate
    rw [bzero, ih, List.replicate_succ', ← update_store_length, hlength]

/-! ## The direction of `memcpy` -/

/-- Backwards, a byte is read before it is written when the destination is behind the source. -/
theorem memcpyLoop_neg {s d : ℕ} (h : s < d) {n : ℕ} (hn : n ≤ 2 ^ 31) (mem : ℕ → α) :
    memcpyLoop s d (-1) n (toInt (n - 1)) mem = store mem d (load mem s n) := by
  induction n generalizing mem with
  | zero => exact (store_nil mem d).symm
  | succ n ih =>
    have hpos : toInt (((n + 1 : ℕ) : ℤ) - 1) = n := by
      rw [show ((n + 1 : ℕ) : ℤ) - 1 = (n : ℤ) by omega]
      exact toInt_of_lt (by omega)
    have hload : load (Function.update mem (d + n) (mem (s + n))) s n = load mem s n :=
      load_congr fun k hk => Function.update_of_ne (by omega) _ _
    have hlength : (load mem s n).length = n := length_load mem s n
    have hd : ((d : ℤ) + n).toNat = d + n := by omega
    have hs : ((s : ℤ) + n).toNat = s + n := by omega
    rw [memcpyLoop, hpos, hd, hs, ← Int.sub_eq_add_neg, ih (by omega), hload, load_succ,
      store_append', hlength, store_singleton]

/-- Forwards, when it is not. -/
theorem memcpyLoop_one {s d : ℕ} (h : d ≤ s) {n p : ℕ} (hn : p + n ≤ 2 ^ 31) (mem : ℕ → α) :
    memcpyLoop s d 1 n p mem = store mem (d + p) (load mem (s + p) n) := by
  induction n generalizing p mem with
  | zero => exact (store_nil mem (d + p)).symm
  | succ n ih =>
    have hload : load (Function.update mem (d + p) (mem (s + p))) (s + (p + 1)) n =
        load mem (s + (p + 1)) n :=
      load_congr fun k hk => Function.update_of_ne (by omega) _ _
    have hd : ((d : ℤ) + p).toNat = d + p := by omega
    have hs : ((s : ℤ) + p).toNat = s + p := by omega
    rw [memcpyLoop, hd, hs]
    cases n with
    | zero =>
      rw [memcpyLoop, load_succ', ← store_singleton]
      rfl
    | succ n =>
      have hpos : toInt ((p : ℤ) + 1) = ((p + 1 : ℕ) : ℤ) := toInt_of_lt (n := p + 1) (by omega)
      rw [hpos, ih (by omega), hload, load_succ' mem (s + p), ← store_singleton,
        ← Nat.add_assoc, ← Nat.add_assoc, show d + p + 1 = d + p + [mem (s + p)].length from rfl,
        ← store_append]
      rfl

theorem memcpy_eq (mem : ℕ → α) (dst src : ℕ) {n : ℕ} (hn : n ≤ 2 ^ 31) :
    memcpy mem dst src n = store mem dst (load mem src n) := by
  unfold memcpy
  split
  case isTrue h => exact memcpyLoop_neg h hn mem
  case isFalse h => exact memcpyLoop_one (p := 0) (not_lt.mp h) (by omega) mem

/-- **What was there before the call is copied**, whether source and destination overlap or not, and
what is not part of the destination stays. -/
theorem memmove_eq (mem : ℕ → α) (dest src : ℕ) {n : ℕ} (hn : n ≤ 2 ^ 31) :
    (∀ k < n, memmove mem dest src n (dest + k) = mem (src + k)) ∧
      ∀ j, j < dest ∨ dest + n ≤ j → memmove mem dest src n j = mem j := by
  have hlength : (load mem src n).length = n := length_load mem src n
  unfold memmove
  rw [memcpy_eq mem dest src hn]
  constructor
  · intro k hk
    rw [store_add (by omega), getElem_load]
  · rintro j (h | h)
    · exact store_of_lt h
    · exact store_of_le (by omega)

/-- Three characters are moved over two of their own. -/
theorem memmove_eq_overlap :
    let mem := store (fun _ => ' ') 4 ['a', 'b', 'c']
    (∀ k < 3, memmove mem 5 4 3 (5 + k) = mem (4 + k)) ∧
      ∀ j, j < 5 ∨ 5 + 3 ≤ j → memmove mem 5 4 3 j = mem j :=
  memmove_eq _ 5 4 (by decide)

end Jbinit.Fakedyld
