import Jbinit.Foundations.Arm64Machine
import Jbinit.PatchDyld.Redirects
import Mathlib.Algebra.Group.Nat.Defs

/-!
# The shellcode at run time

An image is loaded at a base address and its text is executed. The shellcode compares the platform
in `x1` with 10, replaces it by the platform of the patch if it is another, and makes the branch
that was at the site. For a `blr` it keeps a frame record of 16 bytes while the function that is
called runs; `Resumes` says that execution goes on after the site as the branch would have left it.
This needs a function that leaves the frame record as it is (`shellcode_simulates`); one that writes
to its stack arguments does not (`not_resumes_overwritten`).
-/

namespace Jbinit.PatchDyld

open Foundations Arm64 Words

/-- Where a word of the image is. -/
def address (base : BitVec 64) (i : ℕ) : BitVec 64 := base + 4 * BitVec.ofNat 64 i

/-- The words of the image that is loaded there. -/
def loaded (code : Code) (base : BitVec 64) : Memory 32 := fun i => code (address base i)

/-! ## The property -/

/-- Control is where the branch goes, with the platform in `x1`. -/
structure Transfers (platform : Word) (link : Bool) (r : BitVec 5) (s s' : State) : Prop where
  pc : s'.pc = s.get r
  x1 : s'.get 1 = if s.get 1 = 10 then s.get 1 else platform.setWidth 64
  others : ∀ q, q ≠ 1 → (link = true → q ≠ 29 ∧ q ≠ 30) → s'.get q = s.get q
  sp : s'.sp = if link then s.sp - 16 else s.sp
  memory : ∀ a, (link = true → 16 ≤ (a - (s.sp - 16)).toNat) → s'.memory a = s.memory a

/-- A function that is entered in `s'` returns with the stack and the frame pointer of its
caller. -/
structure Returns (s' t : State) : Prop where
  pc : t.pc = s'.get 30
  sp : t.sp = s'.sp
  x29 : t.get 29 = s'.get 29

/-- The frame record below the stack pointer `sp` is as it was. -/
def KeepsFrame (sp : BitVec 64) (s' t : State) : Prop :=
  ∀ a, (a - (sp - 16)).toNat < 16 → t.memory a = s'.memory a

/-- Execution goes on at the next instruction, with the registers as a `blr` has left them. -/
def Resumes (code : Code) (o t : State) : Prop :=
  ∃ u, Reaches code t u ∧ u.pc = o.get 30 ∧ u.get 29 = o.get 29 ∧ u.get 30 = o.get 30 ∧ u.sp = o.sp

/-! ## The words -/

section

variable {platform w : Word} {link : Bool} {r : BitVec 5}

/-- A platform of 16 bits stays in the immediate of `movz`. -/
theorem shiftLeft_and (h : platform.toNat < 2 ^ 16) {mask : Word}
    (hmask : 0x001fffe0#32 &&& mask = 0#32) : platform <<< 5 &&& mask = 0#32 := by
  have himm : platform <<< 5 = platform <<< 5 &&& 0x001fffe0#32 := by
    have hbits : ∀ i (hi : i < 32), (0x001fffe0#32)[i] = decide (5 ≤ i ∧ i < 21) := by decide
    ext i hi
    rw [BitVec.getElem_and, hbits, BitVec.getElem_shiftLeft]
    by_cases hi' : i < 21
    · by_cases hlow : i < 5
      · simp [hlow]
      · have hle : 5 ≤ i := by omega
        simp [hi', hle]
    · have hlt : platform.toNat < 2 ^ (i - 5) :=
        Nat.lt_of_lt_of_le h (Nat.pow_le_pow_right (by decide) (by omega))
      have hzero : platform[i - 5] = false := by
        rw [← BitVec.getLsbD_eq_getElem, ← BitVec.testBit_toNat, Nat.testBit_lt_two_pow hlt]
      simp [hi', hzero]
  rw [himm, BitVec.and_assoc, hmask, BitVec.and_zero]

theorem movPlatform_and (h : platform.toNat < 2 ^ 16) {mask : Word}
    (hmask : 0x001fffe0#32 &&& mask = 0#32) :
    movPlatform platform &&& mask = 0xd2800001#32 &&& mask := by
  rw [movPlatform, BitVec.and_or_distrib_right, shiftLeft_and h hmask, BitVec.or_zero]

theorem decode_movPlatform (h : platform.toNat < 2 ^ 16) :
    decode (movPlatform platform) = some (.movz 1#5 (platform.setWidth 16)) := by
  have hb : decodeBranch (movPlatform platform) = none := by
    rw [decodeBranch, movPlatform_and h (by decide), if_neg (by decide)]
  have hbr : branchRegister (movPlatform platform) = none :=
    branchRegister_of_odd (movPlatform_odd platform)
  have himm : (movPlatform platform).extractLsb' 5 16 = platform.setWidth 16 := by
    have hconst : (0xd2800001#32).extractLsb' 5 16 = 0#16 := by decide
    rw [movPlatform, BitVec.extractLsb'_or, hconst, BitVec.zero_or]
    ext i hi
    simp
    omega
  have hrd : (movPlatform platform).extractLsb' 0 5 = 1#5 := by
    have hconst : (0xd2800001#32).extractLsb' 0 5 = 1#5 := by decide
    have hlow : (platform <<< 5).extractLsb' 0 5 = 0#5 := by
      ext i hi
      simp [hi]
    rw [movPlatform, BitVec.extractLsb'_or, hconst, hlow, BitVec.or_zero]
  rw [decode, hb, hbr]
  dsimp only
  rw [movPlatform_and h (by decide), if_pos (by decide), himm, hrd]

theorem setWidth_platform (h : platform.toNat < 2 ^ 16) :
    (platform.setWidth 16).setWidth 64 = platform.setWidth 64 := by
  apply BitVec.eq_of_toNat_eq
  simp only [BitVec.toNat_setWidth]
  omega

/-- Whether a branch links is read from one bit. -/
theorem isBr_of_branchRegister (h : branchRegister w = some (link, r)) : isBr w = !link := by
  unfold branchRegister at h
  split at h
  case isFalse => cases h
  case isTrue hword =>
    obtain ⟨rfl, rfl⟩ := Prod.mk.inj (Option.some.inj h)
    have hmask : (0xfffffc1f : Word) = 0xffdffc1f#32 ||| .twoPow 32 21 := by decide
    rw [isBr, pfMaskmatch32, hmask, BitVec.and_or_distrib_left, hword, BitVec.and_twoPow]
    cases w.getLsbD 21 <;> rfl

theorem shellcode_of_br {jmp : Word} (hjmp : branchRegister jmp = some (false, r)) :
    shellcode platform jmp = [0xf100283f, 0x54000040, movPlatform platform, jmp] := by
  rw [shellcode, isBr_of_branchRegister hjmp]
  rfl

theorem shellcode_of_blr {jmp : Word} (hjmp : branchRegister jmp = some (true, r)) :
    shellcode platform jmp = [0xa9bf7bfd, 0x910003fd, 0xf100283f, 0x54000040,
      movPlatform platform, jmp, 0xa8c17bfd, 0xd65f03c0] := by
  rw [shellcode, isBr_of_branchRegister hjmp]
  rfl

/-! ## The comparison -/

variable {code : Code} {a : BitVec 64} {s : State}

/-- What the comparison does to the registers. -/
structure Checks (platform : Word) (a : BitVec 64) (s s' : State) : Prop where
  pc : s'.pc = a
  x1 : s'.get 1 = if s.get 1 = 10 then s.get 1 else platform.setWidth 64
  others : ∀ q, q ≠ 1 → s'.get q = s.get q
  sp : s'.sp = s.sp
  memory : s'.memory = s.memory

/-- The flags of a comparison with 10. -/
theorem holds_sub (a : BitVec 64) : (Flags.sub a 10).holds 0 = decide (a = 10) := by
  have hiff : a - 10 = 0 ↔ a = 10 := by bv_omega
  have hbeq : (a - 10 == 0) = decide (a = 10) := by
    rw [Bool.eq_iff_iff, beq_iff_eq, decide_eq_true_iff, hiff]
  exact hbeq

theorem checks_of_words (hplatform : platform.toNat < 2 ^ 16) (hpc : s.pc = a)
    (hcmp : code a = 0xf100283f) (hbeq : code (a + 4) = 0x54000040)
    (hmov : code (a + 8) = movPlatform platform) :
    ∃ s', Reaches code s s' ∧ Checks platform (a + 12) s s' := by
  let s₁ : State := (Instr.subs 31 1 10).exec s
  have hdecode₁ : decode 0xf100283f = some (.subs 31 1 10) := by decide
  have hdecode₂ : decode 0x54000040 = some (.bCond 0 2) := by decide
  have hpc₁ : s₁.pc = a + 4 := by
    rw [← hpc]
    rfl
  have hholds : s₁.flags.holds 0 = decide (s.get 1 = 10) := holds_sub (s.get 1)
  by_cases hx : s.get 1 = 10
  · refine ⟨(Instr.bCond 0 2).exec s₁, ?_, ?_⟩
    · exact .head (hpc ▸ hcmp) hdecode₁ (.head (hpc₁ ▸ hbeq) hdecode₂ .refl)
    · rw [Instr.exec, hholds, if_pos (decide_eq_true hx)]
      refine ⟨?_, ?_, fun _ _ => rfl, rfl, rfl⟩
      · change s₁.pc + 8 = a + 12
        rw [hpc₁]
        bv_omega
      · rw [if_pos hx]
        rfl
  · have hnext : (Instr.bCond 0 2).exec s₁ = s₁.next := by
      rw [Instr.exec, hholds, if_neg fun h => hx (of_decide_eq_true h)]
    have hpc₂ : s₁.next.pc = a + 8 := by
      rw [next_pc, hpc₁]
      bv_omega
    refine ⟨(Instr.movz 1 (platform.setWidth 16)).exec s₁.next, ?_, ?_⟩
    · refine .head (hpc ▸ hcmp) hdecode₁ (.head (hpc₁ ▸ hbeq) hdecode₂ ?_)
      rw [hnext]
      exact .head (hpc₂ ▸ hmov) (decode_movPlatform hplatform) .refl
    · rw [Instr.exec, setWidth_platform hplatform]
      refine ⟨?_, ?_, ?_, ?_, ?_⟩
      · rw [next_pc, set_pc, hpc₂]
        bv_omega
      · rw [next_get, get_set, if_pos (by decide), if_neg hx]
      · intro q hq
        rw [next_get, get_set_of_ne hq]
        rfl
      · rw [next_sp, set_sp]
        rfl
      · rw [next_memory, set_memory]
        rfl

/-! ## The places -/

variable {base : BitVec 64} {site loc : ℕ}

theorem address_add (base : BitVec 64) (i k : ℕ) :
    address base (i + k) = address base i + 4 * BitVec.ofNat 64 k := by
  rw [address, address, BitVec.ofNat_add, BitVec.mul_add, BitVec.add_assoc]

/-- Where a branch goes in the image that is loaded. -/
theorem address_sub (base : BitVec 64) (site loc : ℕ) :
    address base site + BitVec.ofInt 64 (4 * ((loc : ℤ) - site)) = address base loc := by
  have hoffset : BitVec.ofInt 64 (4 * ((loc : ℤ) - site)) + 4 * BitVec.ofNat 64 site =
      4 * BitVec.ofNat 64 loc := by
    have hbytes (i : ℕ) : 4 * BitVec.ofNat 64 i = BitVec.ofInt 64 (4 * i) := by
      rw [BitVec.ofInt_mul, BitVec.ofInt_natCast]
      rfl
    rw [hbytes, hbytes, ← BitVec.ofInt_add]
    congr 1
    omega
  rw [address, address, ← hoffset]
  bv_omega

/-- A word of the copy. -/
theorem copy_word {jmp x : Word} (h : Holds (loaded code base) loc (shellcode platform jmp)) {k : ℕ}
    (hk : (shellcode platform jmp)[k]? = some x) :
    code (address base loc + 4 * BitVec.ofNat 64 k) = x := by
  obtain ⟨hlt, hget⟩ := List.getElem?_eq_some_iff.mp hk
  rw [← address_add, ← hget]
  exact h k hlt

/-! ## A `br` -/

theorem transfers_br (hplatform : platform.toNat < 2 ^ 16) {jmp : Word}
    (hjmp : branchRegister jmp = some (false, r)) (hr : r ≠ 1)
    (hcopy : Holds (loaded code base) loc (shellcode platform jmp))
    (hpc : s.pc = address base loc) :
    ∃ s', Reaches code s s' ∧ Transfers platform false r s s' := by
  have hword (k : ℕ) (x : Word) (hk : (shellcode platform jmp)[k]? = some x) := copy_word hcopy hk
  rw [shellcode_of_br hjmp] at hword
  have hcmp : code (address base loc) = 0xf100283f := by simpa using hword 0 _ rfl
  obtain ⟨s₁, hreach, hs₁⟩ := checks_of_words hplatform hpc hcmp (hword 1 _ rfl) (hword 2 _ rfl)
  have hbranch : code s₁.pc = jmp := by
    rw [hs₁.pc]
    exact hword 3 _ rfl
  have hjump : Reaches code s₁ ((Instr.br false r).exec s₁) :=
    .head hbranch (decode_of_branchRegister hjmp) .refl
  refine ⟨_, hreach.trans hjump, ?_⟩
  refine ⟨?_, hs₁.x1, fun q hq _ => hs₁.others q hq, hs₁.sp, fun a _ => ?_⟩
  · exact hs₁.others r hr
  · exact congrFun hs₁.memory a

/-! ## A `blr` -/

/-- The frame record of a call. -/
def frame (s : State) : Bytes :=
  store64 (store64 s.memory (s.sp - 16) (s.get 29)) (s.sp - 16 + 8) (s.pc + 4)

/-- The call is made, and the frame record is below the stack pointer. -/
structure Calls (ret : BitVec 64) (s s' : State) : Prop where
  memory : s'.memory = frame s
  x30 : s'.get 30 = ret

theorem frame_of_le {a : BitVec 64} (h : 16 ≤ (a - (s.sp - 16)).toNat) :
    frame s a = s.memory a := by
  rw [frame, store64_of_le (by bv_omega), store64_of_le (by bv_omega)]

/-- The frame record is pushed when the copy is called. -/
structure Pushes (s s' : State) : Prop where
  others : ∀ q, q ≠ 29 → q ≠ 30 → s'.get q = s.get q
  sp : s'.sp = s.sp - 16
  memory : s'.memory = frame s

theorem pushes_of_words (hsite : decodeBranch (code s.pc) = some (true, (loc : ℤ) - site))
    (hpc : s.pc = address base site) (hstp : code (address base loc) = 0xa9bf7bfd)
    (hmov : code (address base loc + 4) = 0x910003fd) :
    ∃ s', Reaches code s s' ∧ s'.pc = address base loc + 8 ∧ Pushes s s' := by
  let e : State := (Instr.b true (loc - site)).exec s
  let e₁ : State := (Instr.stpPre 29 30 31 (-2)).exec e
  let e₂ : State := (Instr.add 29 31 0).exec e₁
  have hpc₀ : e.pc = address base loc := by
    change s.pc + BitVec.ofInt 64 (4 * ((loc : ℤ) - site)) = _
    rw [hpc, address_sub]
  have hpc₁ : e₁.pc = address base loc + 4 := by
    rw [← hpc₀]
    rfl
  have hpc₂ : e₂.pc = address base loc + 8 := by
    change e₁.pc + 4 = _
    rw [hpc₁]
    bv_omega
  have hsp : e₂.sp = s.sp - 16 := by
    change s.sp + BitVec.ofInt 64 (8 * -2) = s.sp - 16
    bv_omega
  have hdecode₁ : decode 0xa9bf7bfd = some (.stpPre 29 30 31 (-2)) := by decide
  have hdecode₂ : decode 0x910003fd = some (.add 29 31 0) := by decide
  refine ⟨e₂, ?_, hpc₂, ?_, hsp, ?_⟩
  · exact .head rfl (decode_of_decodeBranch hsite)
      (.head (hpc₀ ▸ hstp) hdecode₁ (.head (hpc₁ ▸ hmov) hdecode₂ .refl))
  · intro q hq hq'
    change (if q = 31 then 0 else Function.update (Function.update s.x 30 _) 29 _ q) = _
    rw [Function.update_of_ne hq, Function.update_of_ne hq']
    rfl
  · change store64 (store64 s.memory e₂.sp (s.get 29)) (e₂.sp + 8) (s.pc + 4) = _
    rw [hsp]
    rfl

theorem transfers_blr (hplatform : platform.toNat < 2 ^ 16) {jmp : Word}
    (hjmp : branchRegister jmp = some (true, r)) (hr : r ≠ 1 ∧ r ≠ 29 ∧ r ≠ 30)
    (hcopy : Holds (loaded code base) loc (shellcode platform jmp))
    (hsite : decodeBranch (code s.pc) = some (true, (loc : ℤ) - site))
    (hpc : s.pc = address base site) :
    ∃ s', Reaches code s s' ∧ Transfers platform true r s s' ∧
      Calls (address base (loc + 6)) s s' := by
  have hword (k : ℕ) (x : Word) (hk : (shellcode platform jmp)[k]? = some x) := copy_word hcopy hk
  rw [shellcode_of_blr hjmp] at hword
  have hstp : code (address base loc) = 0xa9bf7bfd := by simpa using hword 0 _ rfl
  obtain ⟨s₁, hcall, hpc₁, hs₁⟩ := pushes_of_words hsite hpc hstp (hword 1 _ rfl)
  obtain ⟨s₂, hcheck, hs₂⟩ := checks_of_words hplatform hpc₁ (hword 2 _ rfl)
    (by rw [BitVec.add_assoc]; exact hword 3 _ rfl) (by rw [BitVec.add_assoc]; exact hword 4 _ rfl)
  have hpc₂ : s₂.pc = address base loc + 20 := by
    rw [hs₂.pc]
    bv_omega
  have hblr : code s₂.pc = jmp := hpc₂ ▸ hword 5 _ rfl
  have hjump : Reaches code s₂ ((Instr.br true r).exec s₂) :=
    .head hblr (decode_of_branchRegister hjmp) .refl
  -- the last step sets the program counter and the link register only
  have hset (q : BitVec 5) (hq : q ≠ 30) : ((Instr.br true r).exec s₂).get q = s₂.get q :=
    get_set_of_ne hq
  refine ⟨_, (hcall.trans hcheck).trans hjump, ⟨?_, ?_, ?_, ?_, ?_⟩, ?_, ?_⟩
  · exact (hs₂.others r hr.1).trans (hs₁.others r hr.2.1 hr.2.2)
  · rw [hset 1 (by decide), hs₂.x1, hs₁.others 1 (by decide) (by decide)]
  · intro q hq hlink
    obtain ⟨hq', hq''⟩ := hlink rfl
    rw [hset q hq'', hs₂.others q hq, hs₁.others q hq' hq'']
  · exact hs₂.sp.trans hs₁.sp
  · intro a ha
    exact (congrFun (hs₂.memory.trans hs₁.memory) a).trans (frame_of_le (ha rfl))
  · exact hs₂.memory.trans hs₁.memory
  · change s₂.pc + 4 = _
    rw [hpc₂, address_add]
    bv_omega

/-- **The return**: the frame record gives back the frame pointer and the link register. -/
theorem resumes_of_returns {jmp : Word} (hjmp : branchRegister jmp = some (true, r))
    (hcopy : Holds (loaded code base) loc (shellcode platform jmp)) {s' t : State}
    (hcalls : Calls (address base (loc + 6)) s s') (hsp : s'.sp = s.sp - 16)
    (hreturns : Returns s' t) (hframe : KeepsFrame s.sp s' t) :
    Resumes code ((Instr.br true r).exec s) t := by
  have hword (k : ℕ) (x : Word) (hk : (shellcode platform jmp)[k]? = some x) := copy_word hcopy hk
  rw [shellcode_of_blr hjmp] at hword
  let u : State := (Instr.ldpPost 29 30 31 2).exec t
  have hpc : t.pc = address base loc + 24 := by
    rw [hreturns.pc, hcalls.x30, address_add]
    rfl
  have hpc' : u.pc = address base loc + 28 := by
    change t.pc + 4 = _
    rw [hpc]
    bv_omega
  have htsp : t.sp = s.sp - 16 := hreturns.sp.trans hsp
  have hx29 : load64 t.memory t.sp = s.get 29 := by
    rw [htsp, load64_congr fun b hb => hframe b (by omega), hcalls.memory, frame,
      load64_store64_of_le fun c hc => by bv_omega, load64_store64]
  have hx30 : load64 t.memory (t.sp + 8) = s.pc + 4 := by
    rw [htsp, load64_congr fun b hb => hframe b (by bv_omega), hcalls.memory, frame, load64_store64]
  have hdecode₁ : decode 0xa8c17bfd = some (.ldpPost 29 30 31 2) := by decide
  have hdecode₂ : decode 0xd65f03c0 = some (.ret 30) := by decide
  have hldp : code t.pc = 0xa8c17bfd := hpc ▸ hword 6 _ rfl
  have hret : code u.pc = 0xd65f03c0 := hpc' ▸ hword 7 _ rfl
  refine ⟨_, .head hldp hdecode₁ (.head hret hdecode₂ .refl), ?_, ?_, ?_, ?_⟩
  · exact hx30
  · exact hx29
  · exact hx30
  · change t.sp + BitVec.ofInt 64 (8 * 2) = s.sp
    rw [htsp]
    bv_omega

/-! ## The result -/

/-- **The shellcode stands for the branch it replaces**, when the function that is called keeps the
frame record. -/
theorem shellcode_simulates {jmp : Word}
    (hredirected : Redirected (loaded code base) platform site jmp)
    (hjmp : branchRegister jmp = some (link, r)) (hr : r ≠ 1 ∧ r ≠ 29 ∧ r ≠ 30)
    (hplatform : platform.toNat < 2 ^ 16) (hpc : s.pc = address base site) :
    ∃ s', Reaches code s s' ∧ Transfers platform link r s s' ∧
      (link = true → ∀ t, Returns s' t → KeepsFrame s.sp s' t →
        Resumes code ((Instr.br true r).exec s) t) := by
  obtain ⟨loc, hbranch, hcopy⟩ := hredirected
  rw [isBr_of_branchRegister hjmp, Bool.not_not] at hbranch
  have hsite : decodeBranch (code s.pc) = some (link, (loc : ℤ) - site) := hpc ▸ hbranch
  cases link with
  | false =>
    let e : State := (Instr.b false (loc - site)).exec s
    have he : e.pc = address base loc := by
      change s.pc + BitVec.ofInt 64 (4 * ((loc : ℤ) - site)) = _
      rw [hpc, address_sub]
    obtain ⟨s', hreach, hs'⟩ := transfers_br hplatform hjmp hr.1 hcopy he
    -- the `B` changes the program counter only
    exact ⟨s', .head rfl (decode_of_decodeBranch hsite) hreach,
      ⟨hs'.pc, hs'.x1, hs'.others, hs'.sp, hs'.memory⟩, nofun⟩
  | true =>
    obtain ⟨s', hreach, hs', hcalls⟩ := transfers_blr hplatform hjmp hr hcopy hsite hpc
    exact ⟨s', hreach, hs', fun _ _ => resumes_of_returns hjmp hcopy hcalls hs'.sp⟩

end

/-- A site and the copy for `blr x8`, with nothing after them. -/
def blrCode : Code := fun a =>
  (arm64Branch 0 1 true :: shellcode 2 0xd63f0100).getD (a.toNat / 4) 0

/-- At the site, with a function in `x8`. -/
def blrState : State where
  x r := if r = 8 then 0x1000 else 0
  sp := 0x8000
  pc := 0
  flags := ⟨false, false, false, false⟩
  memory _ := 0

theorem holds_blr : Holds (loaded blrCode 0) 1 (shellcode 2 0xd63f0100) := by
  unfold Holds
  decide

theorem redirected_blr : Redirected (loaded blrCode 0) 2 0 0xd63f0100 :=
  ⟨1, by decide, holds_blr⟩

theorem shellcode_simulates_blr : ∃ s', Reaches blrCode blrState s' ∧
    Transfers 2 true 8 blrState s' ∧
      (true = true → ∀ t, Returns s' t → KeepsFrame blrState.sp s' t →
        Resumes blrCode ((Instr.br true 8).exec blrState) t) :=
  have hpc : blrState.pc = address 0 0 := rfl
  shellcode_simulates redirected_blr (by decide) (by decide) (by decide) hpc

theorem step_blrCode_of_le {s : State} (h : 0x100 ≤ s.pc.toNat) : step blrCode s = none := by
  have hword : blrCode s.pc = 0 := by
    have hlength : (arm64Branch 0 1 true :: shellcode 2 0xd63f0100).length ≤ s.pc.toNat / 4 := by
      change 9 ≤ _
      omega
    rw [blrCode, List.getD_eq_getElem?_getD, List.getElem?_eq_none hlength]
    rfl
  rw [step, hword]
  rfl

/-- The copy loads what the function has written over the frame record. -/
theorem not_resumes_overwritten {t : State} (hpc : t.pc = 28) (hmemory : t.memory = fun _ => 255) :
    ¬Resumes blrCode ((Instr.br true 8).exec blrState) t := by
  rintro ⟨u, hreach, hu, -⟩
  let t₁ : State := (Instr.ldpPost 29 30 31 2).exec t
  let t₂ : State := (Instr.ret 30).exec t₁
  have hpc₁ : t₁.pc = 32 := by
    change t.pc + 4 = 32
    rw [hpc]
    rfl
  have hpc₂ : t₂.pc = -1 := by
    change load64 t.memory _ = -1
    rw [hmemory, load64]
    decide
  have hldp : step blrCode t = some t₁ := step_eq (w := 0xa8c17bfd) (hpc ▸ by decide) (by decide)
  have hret : step blrCode t₁ = some t₂ := step_eq (w := 0xd65f03c0) (hpc₁ ▸ by decide) (by decide)
  change u.pc = 4 at hu
  rcases hreach.of_step hldp with rfl | hreach
  · rw [hpc] at hu
    cases hu
  rcases hreach.of_step hret with rfl | hreach
  · rw [hpc₁] at hu
    cases hu
  have hstuck : step blrCode t₂ = none := step_blrCode_of_le (by rw [hpc₂]; decide)
  rw [← hreach.eq_of_stuck hstuck, hpc₂] at hu
  cases hu

/-- A function that writes to its stack arguments. -/
theorem not_simulates_overwritten : ¬∀ (code : Code) (base : BitVec 64) (site : ℕ)
    (platform jmp : Word) (link : Bool) (r : BitVec 5) (s : State),
    Redirected (loaded code base) platform site jmp → branchRegister jmp = some (link, r) →
    r ≠ 1 ∧ r ≠ 29 ∧ r ≠ 30 → platform.toNat < 2 ^ 16 → s.pc = address base site →
    ∃ s', Reaches code s s' ∧ Transfers platform link r s s' ∧
      (link = true → ∀ t, Returns s' t → Resumes code ((Instr.br true r).exec s) t) := by
  intro hall
  have hpc : blrState.pc = address 0 0 := rfl
  have hjmp : branchRegister 0xd63f0100 = some (true, 8) := by decide
  obtain ⟨s', hreach, htransfers, hresumes⟩ := hall blrCode 0 0 2 0xd63f0100 true 8 blrState
    redirected_blr hjmp (by decide) (by decide) hpc
  obtain ⟨s₁, hreach₁, htransfers₁, hcalls⟩ := transfers_blr (by decide) hjmp (by decide) holds_blr
    (by decide) hpc
  -- no code is where the function is, so there is one such state
  have hstuck {s : State} (h : Transfers 2 true 8 blrState s) : step blrCode s = none :=
    step_blrCode_of_le (by rw [h.pc]; decide)
  have hsame : s' = s₁ := by
    rcases hreach.total hreach₁ with h | h
    · exact h.eq_of_stuck (hstuck htransfers)
    · exact (h.eq_of_stuck (hstuck htransfers₁)).symm
  have hret : s'.get 30 = 28 := by
    rw [hsame, hcalls.x30]
    rfl
  exact not_resumes_overwritten hret rfl
    (hresumes rfl { s' with pc := s'.get 30, memory := fun _ => 255 } ⟨rfl, rfl, rfl⟩)

end Jbinit.PatchDyld
