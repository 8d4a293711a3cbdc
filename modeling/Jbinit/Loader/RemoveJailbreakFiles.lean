import Jbinit.Palera1nd.PrebootPath

/-!
# `remove_jailbreak_files` of the loader

The loader removes the jailbreak before a boot without it. Its paths go through a buffer of 150
bytes; the directory takes at most 113 of them, so the beginning of a name is never cut, and what is
removed is an entry of the directory that begins with `jb-` (`removed_isJailbreak`).
-/

namespace Jbinit.Loader

open Foundations Delimited Palera1nd

/-! ## The hash -/

def hexDigit (d : ℕ) : Char := if d < 10 then Char.ofNat (0x30 + d) else Char.ofNat (0x41 + (d - 10))

/-- `%02X`. -/
def hexByte (b : BitVec 8) : CStr := [hexDigit (b.toNat / 16), hexDigit (b.toNat % 16)]

/-- The loop from byte `i` on: `snprintf(&hash[i * 2], 3, "%02X", bytes[i])`, which ends the string
behind the two digits. -/
def writeHash (hash : CStr) (i : ℕ) : List (BitVec 8) → CStr
  | [] => hash
  | b :: bytes => writeHash (hash.take (i * 2) ++ hexByte b) (i + 1) bytes

/-- `jailbreak_get_bmhash`, for the property `boot-manifest-hash`, with the string that is in the
buffer before; the result is `none` where it returns 1. -/
def jailbreakGetBmhash (manifestHash : Option (List (BitVec 8))) (hash : CStr) : Option CStr :=
  manifestHash.map (writeHash hash 0)

/-- The digits of the bytes from `i` on follow those before. -/
theorem writeHash_of_length {hash : CStr} {i : ℕ} (h : hash.length = i * 2)
    (bytes : List (BitVec 8)) : writeHash hash i bytes = hash ++ bytes.flatMap hexByte := by
  induction bytes generalizing i hash with
  | nil => simp [writeHash]
  | cons b bytes ih =>
    have hnext : (hash ++ hexByte b).length = (i + 1) * 2 := by
      simp only [hexByte, List.length_append, List.length_cons, List.length_nil, h]
      omega
    rw [writeHash, ← h, List.take_length, ih hnext, List.flatMap_cons, List.append_assoc]

/-- The hash is the digits of the bytes. Without bytes the buffer stays as it is. -/
theorem jailbreakGetBmhash_eq (bytes : List (BitVec 8)) (hash : CStr) :
    jailbreakGetBmhash (some bytes) hash =
      some (if bytes = [] then hash else bytes.flatMap hexByte) := by
  cases bytes with
  | nil => rfl
  | cons b bytes =>
    have htwo : (hexByte b).length = 1 * 2 := rfl
    rw [if_neg (List.cons_ne_nil b bytes), jailbreakGetBmhash, Option.map_some, writeHash,
      Nat.zero_mul, List.take_zero, List.nil_append, writeHash_of_length htwo, List.flatMap_cons]

/-! ## The removal -/

/-- An entry of a directory. -/
structure Entry where
  name : CStr
  isComponent : IsComponent '/' name

/-- What the calls find. -/
structure System where
  manifestHash : Option (List (BitVec 8))
  /-- What is in the buffer of the hash before. -/
  stack : CStr
  /-- The entries of a directory that `opendir` opens, in the order that `readdir` has them. -/
  readdir : CStr → Option (List Entry)

def System.bmhash (system : System) : Option CStr :=
  jailbreakGetBmhash system.manifestHash system.stack

/-- `/private/preboot/<hash>`. -/
def hashDirectory (bmhash : CStr) : CStr := "/private/preboot/".toList ++ bmhash

/-- The paths handed to `removefile`, and the value. -/
structure Removal where
  removed : List CStr
  ret : ℤ

/-- The loop over the directory `prebootPath`, and the removal of `/var/jb` after it. -/
def removeJbPaths (prebootPath : CStr) : List Entry → Removal
  | [] => ⟨[varJb], 0⟩
  | d :: entries =>
    if !isJbName d.name then removeJbPaths prebootPath entries
    else
      let jbPaths := CStr.snprintf 150 (prebootPath ++ '/' :: d.name)
      if jbPaths = prebootPath then ⟨[], -1⟩
      else
        let rest := removeJbPaths prebootPath entries
        ⟨jbPaths :: rest.removed, rest.ret⟩

/-- `remove_jailbreak_files`. It does not look at the outcome of a removal. -/
def removeJailbreakFiles (system : System) (pflags : Flags) : Removal :=
  if pflags.has palerainOptionRootful then ⟨["/var/lib".toList, "/var/cache".toList], 0⟩
  else match system.bmhash with
    | none => ⟨[], -1⟩
    | some bmhash =>
      let prebootPath := CStr.snprintf 150 (hashDirectory bmhash)
      match system.readdir prebootPath with
      | none => ⟨[], 0⟩
      | some entries => removeJbPaths prebootPath entries

/-! ## What is removed -/

/-- A direct child of a directory, with a name that begins with `jb-`. -/
def IsJbChild (directory path : CStr) : Prop :=
  ∃ name, isJbName name = true ∧ IsComponent '/' name ∧ path = directory ++ '/' :: name

/-- A path leads to a directory or to one that the directory is in. -/
def IsOrContains (path directory : CStr) : Prop :=
  components '/' path <+: components '/' directory

theorem isComponent_take {name : CStr} {n : ℕ} (h : IsComponent '/' name) (hn : n ≠ 0) :
    IsComponent '/' (name.take n) :=
  ⟨by simp [h.1, hn], fun hmem => h.2 (List.mem_of_mem_take hmem)⟩

theorem isJbName_take {name : CStr} {n : ℕ} (h : isJbName name = true) (hn : 3 ≤ n) :
    isJbName (name.take n) = true := by
  rw [isJbName, List.isPrefixOf_iff_prefix] at h ⊢
  exact List.prefix_take_iff.mpr ⟨h, by simpa using hn⟩

/-- The buffer has room for the directory, a slash and the beginning of a name. -/
theorem isJbChild_snprintf {directory name : CStr} (hdirectory : directory.length ≤ 113)
    (hname : IsComponent '/' name) (hjb : isJbName name = true) :
    IsJbChild directory (CStr.snprintf 150 (directory ++ '/' :: name)) := by
  refine ⟨name.take (148 - directory.length), isJbName_take hjb (by omega),
    isComponent_take hname (by omega), ?_⟩
  have hroom : 149 - directory.length = (148 - directory.length) + 1 := by omega
  rw [CStr.snprintf, List.take_append, List.take_of_length_le (by omega), hroom, List.take_succ_cons]

theorem IsJbChild.ne {directory path : CStr} (h : IsJbChild directory path) : path ≠ directory := by
  obtain ⟨name, -, -, rfl⟩ := h
  intro heq
  have hlength := congrArg List.length heq
  rw [List.length_append, List.length_cons] at hlength
  omega

/-- A child of a directory is below it. -/
theorem IsJbChild.not_isOrContains {directory path : CStr} (h : IsJbChild directory path) :
    ¬IsOrContains path directory := by
  obtain ⟨name, -, hname, rfl⟩ := h
  intro hprefix
  have hlength := hprefix.length_le
  rw [components_append_cons, components_of_isComponent hname, List.length_append] at hlength
  rw [List.length_singleton] at hlength
  omega

theorem length_hashDirectory (bmhash : CStr) :
    (hashDirectory bmhash).length = 17 + bmhash.length := by
  unfold hashDirectory
  rw [List.length_append]
  rfl

theorem varJb_not_isOrContains (bmhash : CStr) : ¬IsOrContains varJb (hashDirectory bmhash) := by
  have hvar : components '/' varJb = ["var".toList, "jb".toList] := by
    decide
  have hdirectory : hashDirectory bmhash = "/private".toList ++ '/' :: ("preboot/".toList ++ bmhash) :=
    rfl
  have hprivate : components '/' "/private".toList = ["private".toList] := by
    decide
  rw [IsOrContains, hvar, hdirectory, components_append_cons, hprivate, List.singleton_append,
    List.cons_prefix_cons]
  exact fun h => absurd h.1 (by decide)

/-- The loop, one entry after the other. -/
theorem removeJbPaths_removed {directory : CStr} (hdirectory : directory.length ≤ 113)
    (entries : List Entry) :
    ∀ path ∈ (removeJbPaths directory entries).removed, path = varJb ∨ IsJbChild directory path := by
  induction entries with
  | nil => simp [removeJbPaths]
  | cons d entries ih =>
    intro path hpath
    rw [removeJbPaths] at hpath
    cases hjb : isJbName d.name with
    | false =>
      rw [hjb] at hpath
      exact ih path hpath
    | true =>
      have hchild := isJbChild_snprintf hdirectory d.isComponent hjb
      simp only [hjb, Bool.not_true, Bool.false_eq_true, if_false, if_neg hchild.ne,
        List.mem_cons] at hpath
      rcases hpath with rfl | hpath
      · exact .inr hchild
      · exact ih path hpath

/-- **Nothing but the jailbreak is removed**, for every hash of at most 96 characters and every
listing of its directory. -/
theorem removed_isJailbreak {system : System} {pflags : Flags}
    (hrootless : pflags.has palerainOptionRootful = false)
    (hhash : ∀ bmhash, system.bmhash = some bmhash → bmhash.length ≤ 96) :
    ∀ path ∈ (removeJailbreakFiles system pflags).removed, ∃ bmhash,
      system.bmhash = some bmhash ∧ (path = varJb ∨ IsJbChild (hashDirectory bmhash) path) ∧
        ¬IsOrContains path (hashDirectory bmhash) := by
  intro path hpath
  rw [removeJailbreakFiles, hrootless] at hpath
  cases hbmhash : system.bmhash with
  | none => simp [hbmhash] at hpath
  | some bmhash =>
    have hlength : (hashDirectory bmhash).length ≤ 113 := by
      have := hhash bmhash hbmhash
      rw [length_hashDirectory]
      omega
    have hpreboot : CStr.snprintf 150 (hashDirectory bmhash) = hashDirectory bmhash :=
      CStr.snprintf_of_lt (by omega)
    simp only [hbmhash, hpreboot, Bool.false_eq_true, if_false] at hpath
    cases hentries : system.readdir (hashDirectory bmhash) with
    | none => simp [hentries] at hpath
    | some entries =>
      simp only [hentries] at hpath
      refine ⟨bmhash, rfl, ?_⟩
      rcases removeJbPaths_removed hlength entries path hpath with rfl | hchild
      · exact ⟨.inl rfl, varJb_not_isOrContains bmhash⟩
      · exact ⟨.inr hchild, hchild.not_isOrContains⟩

/-- A directory with a boot file and the jailbreak. -/
def plainSystem : System where
  manifestHash := some [0x01#8, 0xAB#8]
  stack := []
  readdir path :=
    if path = "/private/preboot/01AB".toList then
      some [⟨"active".toList, by decide⟩, ⟨"jb-abcd".toList, by decide⟩]
    else none

theorem bmhash_plainSystem : plainSystem.bmhash = some "01AB".toList :=
  jailbreakGetBmhash_eq [0x01#8, 0xAB#8] []

theorem removed_isJailbreak_plain : ∃ bmhash, plainSystem.bmhash = some bmhash ∧
    ("/private/preboot/01AB/jb-abcd".toList = varJb ∨
      IsJbChild (hashDirectory bmhash) "/private/preboot/01AB/jb-abcd".toList) ∧
    ¬IsOrContains "/private/preboot/01AB/jb-abcd".toList (hashDirectory bmhash) := by
  have hhash (bmhash : CStr) (h : plainSystem.bmhash = some bmhash) : bmhash.length ≤ 96 := by
    rw [bmhash_plainSystem, Option.some_inj] at h
    rw [← h]
    decide
  have hremoved : "/private/preboot/01AB/jb-abcd".toList ∈
      (removeJailbreakFiles plainSystem palerainOptionRootless).removed := by
    decide +kernel
  exact removed_isJailbreak (by decide) hhash _ hremoved

end Jbinit.Loader
