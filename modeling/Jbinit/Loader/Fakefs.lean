import Jbinit.Loader.Prelaunchd
import Jbinit.Foundations.Crashes
import Jbinit.Foundations.Numerals
import Jbinit.Foundations.Transitions

/-!
# The fakefs over many boots

A fakefs is a volume with the role of the recovery volume. `prelaunchd` makes it, deletes it and
finds it by this role only, and every boot can end at any call, by a panic or because power is lost.
Whatever is found, no volume with another role is deleted (`boots_keepOthers`). When the search by
role tells the truth there is one fakefs at most, and it goes through three states
(`boots_simulate`): the snapshot `orig-fs` is on no volume that has not been copied to its end.
-/

namespace Jbinit.Loader

open Foundations Calls Numerals Transitions Palera1nd RootDevice PartialRoot

/-! ## The container and its volumes -/

/-- The BSD name of an APFS container. -/
structure Container where
  name : CStr
  begins : ∃ rest, name = 'd' :: rest ∧ 'd' ∉ rest
  noSlash : '/' ∉ name
  fits : name.length < 16

/-- What `kAPFSVolumeFSIndexKey` holds; the BSD name has the next number. -/
abbrev FsIndex := Fin (2 ^ 31 - 1)

theorem isDigit_of_mem_toDigits (n : ℕ) : ∀ c ∈ Nat.toDigits 10 n, c.isDigit = true :=
  fun _ => Nat.isDigit_of_mem_toDigits (by omega) (by omega)

def number (n : ℕ) : Decimal := ⟨Nat.toDigits 10 n, Nat.toDigits_ne_nil, isDigit_of_mem_toDigits n⟩

def Container.volume (c : Container) (n : FsIndex) : RootDevice.Volume :=
  ⟨c.name, number (n.val + 1), c.noSlash⟩

def Container.stem (c : Container) : CStr := c.name ++ ['s']

def Container.bsdName (c : Container) (n : FsIndex) : CStr := (c.volume n).bsdName

def Container.device (c : Container) (n : FsIndex) : CStr := dev ++ c.bsdName n

/-- APFS knows a volume by its BSD name, with `/dev/` or without. -/
def Container.Names (c : Container) (n : FsIndex) (text : CStr) : Prop :=
  text = c.bsdName n ∨ text = c.device n

section Names

variable {c : Container} {n m : FsIndex} {text : CStr}

theorem bsdName_eq (c : Container) (n : FsIndex) :
    c.bsdName n = c.name ++ 's' :: Nat.toDigits 10 (n.val + 1) := by
  simp [Container.bsdName, Volume.bsdName, Volume.stem, Container.volume, number]

theorem bsdName_injective (h : c.bsdName n = c.bsdName m) : n = m := by
  rw [bsdName_eq, bsdName_eq, List.append_cancel_left_eq, List.cons.injEq] at h
  have hread := congrArg (readDigits 10 0) h.2
  rw [readDigits_toDigits (by omega) (by omega), readDigits_toDigits (by omega) (by omega)] at hread
  exact Fin.ext (Nat.succ_injective hread)

theorem d_not_mem_toDigits (n : ℕ) : 'd' ∉ Nat.toDigits 10 n :=
  fun h => absurd (isDigit_of_mem_toDigits n 'd' h) (by decide)

theorem d_mem_bsdName (c : Container) (n : FsIndex) : 'd' ∈ c.bsdName n := by
  obtain ⟨rest, hname, -⟩ := c.begins
  rw [bsdName_eq, hname]
  exact List.mem_cons_self

/-- The name begins with its only `d`. -/
theorem d_not_mem_drop (c : Container) (n : FsIndex) (k : ℕ) :
    'd' ∉ (c.bsdName n).drop (k + 1) := by
  obtain ⟨rest, hname, hrest⟩ := c.begins
  intro h
  rw [bsdName_eq, hname, List.cons_append, List.drop_succ_cons] at h
  have hmem := List.mem_of_mem_drop h
  simp [hrest, d_not_mem_toDigits] at hmem

theorem slash_not_mem_name (c : Container) (n : FsIndex) : '/' ∉ c.bsdName n :=
  slash_not_mem_bsdName (c.volume n)

theorem names_injective (hn : c.Names n text) (hm : c.Names m text) : n = m := by
  have hne (n m : FsIndex) : c.bsdName n ≠ c.device m := by
    intro h
    apply slash_not_mem_name c n
    rw [h]
    exact List.mem_append_left _ (by decide)
  rcases hn with rfl | rfl <;> rcases hm with h | h
  · exact bsdName_injective h
  · exact absurd h (hne n m)
  · exact absurd h.symm (hne m n)
  · exact bsdName_injective (List.append_cancel_left h)

/-- What is left of a name when five characters are skipped names no other volume. -/
theorem names_drop (hn : c.Names n text) (hm : c.Names m (text.drop 5)) : m = n := by
  rcases hn with rfl | rfl
  · have hd : 'd' ∈ (c.bsdName n).drop 5 := by
      rcases hm with h | h
      · rw [h]
        exact d_mem_bsdName c m
      · rw [h]
        exact List.mem_append_right _ (d_mem_bsdName c m)
    exact absurd hd (d_not_mem_drop c n 4)
  · have hdrop : (c.device n).drop 5 = c.bsdName n := by
      rw [Container.device, ← length_dev, List.drop_left]
    rw [hdrop] at hm
    exact names_injective hm (.inl rfl)

/-- A path fits the buffer that it is read into. -/
theorem length_device_lt (c : Container) (n : FsIndex) : (c.device n).length < 32 := by
  have hdigits : (Nat.toDigits 10 (n.val + 1)).length ≤ 10 :=
    (Nat.length_toDigits_le_iff (by omega) (by omega)).mpr (by omega)
  have hfits := c.fits
  rw [Container.device, bsdName_eq]
  simp only [List.length_append, List.length_cons, length_dev]
  omega

end Names

/-! ## The storage -/

structure ApfsVolume where
  role : BitVec 16
  /-- The root has been copied onto it to the end. -/
  copied : Bool
  /-- It has the snapshot `orig-fs`. -/
  snapshot : Bool

structure Storage where
  volumes : FsIndex → Option ApfsVolume
  /-- The NVRAM variable `p1-fakefs-rootdev`. -/
  rootdev : Option CStr
  /-- The volume that is mounted at `/cores/fs/fake`. -/
  fake : Option FsIndex

namespace Storage

def set (s : Storage) (n : FsIndex) (v : Option ApfsVolume) : Storage :=
  { s with volumes := Function.update s.volumes n v }

/-- What is done to the volume that is mounted. -/
def modifyFake (s : Storage) (f : ApfsVolume → ApfsVolume) : Storage :=
  match s.fake with
  | none => s
  | some n => s.set n ((s.volumes n).map f)

def setProperty (s : Storage) (key value : CStr) : Storage :=
  if key = p1FakefsRootdev then { s with rootdev := some value }
  else if key = kIONVRAMDeletePropertyKey ∧ value = p1FakefsRootdev then { s with rootdev := none }
  else s

/-- The volume is a fakefs. -/
def Recovery (s : Storage) (n : FsIndex) : Prop :=
  ∃ v, s.volumes n = some v ∧ v.role = apfsVolRoleRecovery

/-- Volumes with other roles have been made, and nothing else has changed. -/
structure Grows (s s' : Storage) : Prop where
  kept : ∀ n v, s.volumes n = some v → s'.volumes n = some v
  made : ∀ n v, s'.volumes n = some v → s.volumes n = some v ∨ v.role ≠ apfsVolRoleRecovery
  rootdev : s'.rootdev = s.rootdev

end Storage

/-- What the calls promise, and what they do to the storage. A call that fails may have been done
all the same where it says so. The commands that mount the other volumes can make some. -/
def apfs (c : Container) (s : Storage) : Ev → Storage → Prop
  | ⟨.statfs, rootfs⟩, s' => s' = s ∧ ∀ st, rootfs = some st → st.fstypename = apfsFstype →
      ∃ source : MountSource, ∃ n, st.mntfromname = source.mntfromname (c.volume n)
  | ⟨.cfStringGetCString text size, buf⟩, s' => s' = s ∧ (text.length < size → buf = text)
  | ⟨.apfsVolumeRole device, role⟩, s' => s' = s ∧ ∀ r, role = some r →
      ∃ n v, c.Names n device ∧ s.volumes n = some v ∧ v.role = r
  | ⟨.apfsVolumeDelete device, ret⟩, s' =>
      (∃ n, c.Names n device ∧ s' = s.set n none) ∨ ret ≠ 0 ∧ s' = s
  | ⟨.apfsVolumeCreate container role _, created⟩, s' =>
      (∃ n : FsIndex, container = c.name ∧ created = (0, BitVec.ofNat 32 n.val) ∧
        s.volumes n = none ∧ s' = s.set n (some ⟨role, false, false⟩)) ∨ created.1 ≠ 0 ∧ s' = s
  | ⟨.ioRegistryEntrySetCFProperty key value, ret⟩, s' =>
      s' = s.setProperty key value ∨ ret ≠ 0 ∧ s' = s
  | ⟨.ioRegistryEntryCreateCFProperty key, found⟩, s' =>
      s' = s ∧ (key = p1FakefsRootdev → found = s.rootdev.isSome)
  | ⟨.runCommand _, _⟩, s' => s.Grows s'
  | ⟨.mount fstype dir _ data, ret⟩, s' =>
      (ret = 0 ∧ fstype = apfsFstype ∧ dir = fakefs ∧
        ∃ n, c.Names n data ∧ (s.volumes n).isSome = true ∧ s' = { s with fake := some n }) ∨
      (ret ≠ 0 ∨ dir ≠ fakefs) ∧ s' = s
  | ⟨.copyfile _ _, ret⟩, s' =>
      ret = 0 ∧ s' = s.modifyFake (fun v => { v with copied := true }) ∨ ret ≠ 0 ∧ s' = s
  | ⟨.fsSnapshotCreate _, ret⟩, s' =>
      ret = 0 ∧ s' = s.modifyFake (fun v => { v with snapshot := true }) ∨ ret ≠ 0 ∧ s' = s
  | ⟨.unmount _, _⟩, s' => s' = s ∨ s' = { s with fake := none }
  | ⟨.getenv _, _⟩, s' => s' = s
  | ⟨.jailbreakGetPlatform, _⟩, s' => s' = s
  | ⟨.mountDmg .., _⟩, s' => s' = s
  | ⟨.access _, _⟩, s' => s' = s
  | ⟨.getattrlist _, _⟩, s' => s' = s
  | ⟨.apfsVolumeRoleFind .., _⟩, s' => s' = s
  | ⟨.dlopen _, _⟩, s' => s' = s
  | ⟨.openDirectory _, _⟩, s' => s' = s

/-- The search for the fakefs tells the truth: it lists the volumes with the role, and is without
success only if there is none. -/
def Truthful (c : Container) (s : Storage) : Ev → Prop
  | ⟨.apfsVolumeRoleFind container role, (ret, fsArray)⟩ =>
      container = c.name → role = apfsVolRoleRecovery →
        (ret = 0 → ∀ path, path ∈ fsArray ↔ ∃ n, s.Recovery n ∧ path = c.device n) ∧
        (ret = roleNotFound → ∀ n, ¬s.Recovery n)
  | _ => True

/-- A world whose searches tell the truth. -/
def truthfulApfs (c : Container) (s : Storage) (e : Ev) (s' : Storage) : Prop :=
  apfs c s e s' ∧ Truthful c s e

/-! ## The calls that each part makes -/

/-- The call can change a fakefs. -/
def changesFakefs : Call → Bool
  | .apfsVolumeDelete _ => true
  | .apfsVolumeCreate .. => true
  | .copyfile .. => true
  | .fsSnapshotCreate _ => true
  | _ => false

/-- The call can delete a volume. -/
def deletes : Call → Bool
  | .apfsVolumeDelete _ => true
  | _ => false

section Calls

variable {α : Type}

abbrev Calm (x : Io α) : Prop := Uses (fun c => changesFakefs c = false) x

abbrev Sparing (x : Io α) : Prop := Uses (fun c => deletes c = false) x

theorem changesFakefs_of_deletes (c : Call) (h : changesFakefs c = false) : deletes c = false := by
  cases c <;> first | rfl | exact h

theorem Calm.sparing {x : Io α} (h : Calm x) : Sparing x := h.mono changesFakefs_of_deletes

variable {calls : Call → Prop}

theorem uses_checkError (message : String) (ret : ℤ) : Uses calls (checkError message ret) :=
  .ite (.throw _) (.pure _)

theorem calm_nvram (key value : CStr) : Calm (nvram key value) :=
  .bind (.perform rfl) fun _ => .bind (.perform rfl) fun _ => .pure _

theorem calm_getVolumePrefix (names : Names) : Calm (getVolumePrefix names) := by
  refine .ite (.pure _) (.bind (.perform rfl) fun rootfs => ?_)
  split
  · exact .throw _
  · exact .pure _

theorem calm_getContainerName (names : Names) : Calm (getContainerName names) :=
  .ite (.pure _) (.bind (calm_getVolumePrefix names) fun _ => .pure _)

theorem calm_mountPhases : Calm mountPhases :=
  have run (message : String) (argv : List CStr) {x : Io Unit} (hx : Calm x) :
      Calm (ask (.runCommand argv) >>= fun ret => checkError message ret >>= fun _ => x) :=
    .bind (.perform rfl) fun _ => .bind (uses_checkError _ _) fun _ => hx
  run _ _ (run _ _ (run _ _ (.bind (.perform rfl) fun _ => uses_checkError _ _)))

theorem calm_statfsRoot : Calm statfsRoot := by
  refine .bind (.perform rfl) fun rootfs => ?_
  split
  · exact .throw _
  · exact .ite (.throw _) (.pure _)

theorem calm_checkSpace (flags : Flags) (rootfs : RootStatfs) : Calm (checkSpace flags rootfs) := by
  refine .ite (.pure _) (.bind (.perform rfl) fun attrbuf => ?_)
  split
  · exact .throw _
  · exact .ite (.throw _) (.pure _)

theorem calm_checkNoFakefs (container : CStr) : Calm (checkNoFakefs container) :=
  .bind (.perform rfl) fun _ => .ite (.throw _) (.ite (.throw _) (.pure _))

theorem calm_finishSetup : Calm finishSetup :=
  .bind (.perform rfl) fun _ => .bind (.perform rfl) fun _ => .bind (.perform rfl) fun _ =>
    .bind (.perform rfl) fun _ =>
      .ite (.bind (.perform rfl) fun _ => calm_nvram _ _) (calm_nvram _ _)

theorem calm_mountLoader (platform : ℤ) : Calm (mountLoader platform) :=
  .ite (.bind (.perform rfl) fun _ => uses_checkError _ _)
    (.ite (.bind (.perform rfl) fun _ => uses_checkError _ _) (.pure _))

theorem calm_mountStrap (platform : ℤ) : Calm (mountStrap platform) :=
  .ite (.bind (.perform rfl) fun _ => .ite (.bind (.perform rfl) fun _ =>
    .ite (.bind (.perform rfl) fun _ => .pure _) (.pure _)) (.pure _)) (.pure _)

theorem calm_mountImages (payloadOptions : BitVec 32) (platform : ℤ) :
    Calm (mountImages payloadOptions platform) :=
  .ite (.bind (.perform rfl) fun _ => .bind (uses_checkError _ _) fun _ =>
    .bind (calm_mountLoader platform) fun _ => calm_mountStrap platform) (.pure _)

theorem calm_rememberRootdev (pinfo : Paleinfo) : Calm (rememberRootdev pinfo) :=
  .ite (.bind (.perform rfl) fun _ => .ite (.pure _) (calm_nvram _ _)) (.pure _)

theorem calm_bindSubstrate : Calm bindSubstrate :=
  .bind (.perform rfl) fun _ =>
    .ite (.pure _) (.bind (.perform rfl) fun _ => uses_checkError _ _)

theorem calm_checkEnvironment : Calm checkEnvironment :=
  .bind (.perform rfl) fun _ => .ite (.throw _) (.bind (.perform rfl) fun _ =>
    .ite (.throw _) (.pure _))

theorem sparing_createFakefs (names : Names) : Sparing (createFakefs names) :=
  .bind (.perform rfl) fun _ => .bind (uses_checkError _ _) fun _ =>
    .bind (calm_getVolumePrefix names).sparing fun _ => .pure _

theorem sparing_copyRoot : Sparing copyRoot :=
  .bind (.perform rfl) fun _ => uses_checkError _ _

theorem sparing_takeSnapshot : Sparing takeSnapshot :=
  .bind (.perform rfl) fun _ =>
    .ite (.throw _) (.bind (.perform rfl) fun _ => uses_checkError _ _)

theorem sparing_setupFakefs (flags : Flags) (names : Names) : Sparing (setupFakefs flags names) :=
  .bind calm_mountPhases.sparing fun _ => .bind calm_statfsRoot.sparing fun rootfs =>
    .bind (calm_getContainerName names).sparing fun names =>
      .bind (calm_getVolumePrefix names).sparing fun names =>
        .bind (calm_checkNoFakefs _).sparing fun _ =>
          .bind (calm_checkSpace flags rootfs).sparing fun _ =>
            .bind (.perform rfl) fun _ => .bind (uses_checkError _ _) fun _ =>
              .bind (sparing_createFakefs names) fun _ =>
                .bind (calm_nvram _ _).sparing fun _ => .bind (.perform rfl) fun _ =>
                  .bind (uses_checkError _ _) fun _ => .bind sparing_copyRoot fun _ =>
                    .bind sparing_takeSnapshot fun _ => calm_finishSetup.sparing

end Calls

/-! ## Volumes with other roles -/

/-- The volumes that are no fakefs are all there, with the roles that they had. -/
def KeepsOthers (s s' : Storage) : Prop :=
  ∀ n v, s.volumes n = some v → v.role ≠ apfsVolRoleRecovery →
    ∃ v', s'.volumes n = some v' ∧ v'.role = v.role

theorem KeepsOthers.refl (s : Storage) : KeepsOthers s s := fun _ v hv _ => ⟨v, hv, rfl⟩

theorem KeepsOthers.trans {s₁ s₂ s₃ : Storage} (h : KeepsOthers s₁ s₂) (h' : KeepsOthers s₂ s₃) :
    KeepsOthers s₁ s₃ := by
  intro n v hv hrole
  obtain ⟨v₂, hv₂, hrole₂⟩ := h n v hv hrole
  obtain ⟨v₃, hv₃, hrole₃⟩ := h' n v₂ hv₂ (by rwa [hrole₂])
  exact ⟨v₃, hv₃, hrole₃.trans hrole₂⟩

theorem keepsOthers_of_volumes {s s' : Storage} (h : s'.volumes = s.volumes) : KeepsOthers s s' :=
  fun n v hv _ => ⟨v, by rw [h, hv], rfl⟩

theorem volumes_setProperty (s : Storage) (key value : CStr) :
    (s.setProperty key value).volumes = s.volumes := by
  unfold Storage.setProperty
  split
  · rfl
  · split <;> rfl

theorem keepsOthers_modifyFake {s : Storage} {f : ApfsVolume → ApfsVolume}
    (hf : ∀ v, (f v).role = v.role) : KeepsOthers s (s.modifyFake f) := by
  intro n v hv _
  unfold Storage.modifyFake
  cases s.fake with
  | none => exact ⟨v, hv, rfl⟩
  | some k =>
    by_cases hn : n = k
    · subst hn
      exact ⟨f v, by simp [Storage.set, hv], hf v⟩
    · exact ⟨v, by simp [Storage.set, Function.update_of_ne hn, hv], rfl⟩

theorem keepsOthers_set {s : Storage} {n : FsIndex} {w : Option ApfsVolume}
    (h : ∀ v, s.volumes n = some v → v.role = apfsVolRoleRecovery) : KeepsOthers s (s.set n w) := by
  intro m v hv hrole
  by_cases hm : m = n
  · subst hm
    exact absurd (h v hv) hrole
  · exact ⟨v, by simp [Storage.set, Function.update_of_ne hm, hv], rfl⟩

variable {c : Container}

/-- Only a deletion loses a volume. -/
theorem keepsOthers_apfs {s s' : Storage} {call : Call} {r : Answer call}
    (hcall : deletes call = false) (h : apfs c s ⟨call, r⟩ s') : KeepsOthers s s' := by
  cases call
  case statfs | cfStringGetCString | apfsVolumeRole | ioRegistryEntryCreateCFProperty =>
    obtain ⟨rfl, -⟩ := h
    exact .refl s'
  case apfsVolumeDelete => exact absurd hcall (Bool.noConfusion ·)
  case apfsVolumeCreate =>
    rcases h with ⟨n, -, -, hnone, rfl⟩ | ⟨-, rfl⟩
    · exact keepsOthers_set fun v hv => absurd (hnone.symm.trans hv) (Option.some_ne_none v).symm
    · exact .refl s'
  case ioRegistryEntrySetCFProperty key value =>
    rcases h with rfl | ⟨-, rfl⟩
    · exact keepsOthers_of_volumes (volumes_setProperty s key value)
    · exact .refl s'
  case runCommand => exact fun n v hv _ => ⟨v, h.kept n v hv, rfl⟩
  case mount =>
    rcases h with ⟨-, -, -, n, -, -, rfl⟩ | ⟨-, rfl⟩
    · exact keepsOthers_of_volumes rfl
    · exact .refl s'
  case copyfile | fsSnapshotCreate =>
    rcases h with ⟨-, rfl⟩ | ⟨-, rfl⟩
    · exact keepsOthers_modifyFake fun _ => rfl
    · exact .refl s'
  case unmount =>
    rcases h with rfl | rfl
    · exact .refl s'
    · exact keepsOthers_of_volumes rfl
  all_goals
    obtain rfl := h
    exact .refl s'

/-- What is kept of the storage before. -/
theorem triple_of_sparing {α : Type} {x : Io α} (h : Sparing x) (s₀ : Storage) :
    CrashTriple (apfs c) (KeepsOthers s₀) x (fun _ => KeepsOthers s₀) (KeepsOthers s₀) :=
  Uses.triple h (fun _ hcall _ _ _ hs hstep => hs.trans (keepsOthers_apfs hcall hstep))
    fun _ hs => hs

/-- The role is asked for again, so a volume with another role is not deleted, whatever the path. -/
theorem deleteFakefs_keepsOthers (path : CStr) (s₀ : Storage) :
    CrashTriple (apfs c) (KeepsOthers s₀) (deleteFakefs path) (fun _ => KeepsOthers s₀)
      (KeepsOthers s₀) := by
  have hself : ∀ s, KeepsOthers s₀ s → KeepsOthers s₀ s := fun _ h => h
  refine .bind (triple_of_sparing (.perform rfl) s₀) fun devRootdev => ?_
  let M (role : Option (BitVec 16)) (s : Storage) : Prop := KeepsOthers s₀ s ∧
    ∀ r, role = some r → ∃ n v, c.Names n devRootdev ∧ s.volumes n = some v ∧ v.role = r
  refine .bind (M := M) (.perform hself (fun _ _ h => h.1) ?_) fun role => .ite (fun _ => ?_)
    fun hrole => ?_
  · rintro s r s' hs ⟨rfl, hnames⟩
    exact ⟨hs, hnames⟩
  · exact .throw fun s h => h.1
  · refine .bind (M := fun _ => KeepsOthers s₀) (.perform (fun s h => h.1) (fun _ => hself) ?_)
      fun ret => triple_of_sparing (uses_checkError _ ret) s₀
    intro s ret s' hs hstep
    refine hs.1.trans ?_
    cases role with
    | none => exact absurd hrole (by decide)
    | some r =>
      have hr : r = apfsVolRoleRecovery := not_not.mp hrole
      obtain ⟨n, v, hname, hv, hvrole⟩ := hs.2 r rfl
      rcases hstep with ⟨m, hm, rfl⟩ | ⟨-, rfl⟩
      · obtain rfl := names_drop hname hm
        apply keepsOthers_set
        intro w hw
        rw [hv, Option.some.injEq] at hw
        rw [← hw, hvrole, hr]
      · exact .refl s'

theorem revertFakefs_keepsOthers (flags : Flags) (names : Names) (s₀ : Storage) :
    CrashTriple (apfs c) (KeepsOthers s₀) (revertFakefs flags names) (fun _ => KeepsOthers s₀)
      (KeepsOthers s₀) := by
  have hself : ∀ s, KeepsOthers s₀ s → KeepsOthers s₀ s := fun _ h => h
  refine .ite (fun _ => ?_) fun _ => .pure hself hself
  refine .bind (triple_of_sparing (calm_getContainerName names).sparing s₀) fun names => ?_
  refine .bind (triple_of_sparing (.perform rfl) s₀) fun found => ?_
  refine .ite (fun _ => .throw hself) fun _ => .ite (fun _ => ?_) fun _ => .pure hself hself
  refine .bind (CrashTriple.forM (I := fun _ => KeepsOthers s₀) ?_ hself found.2) fun _ => ?_
  · exact fun path _ => deleteFakefs_keepsOthers path s₀
  · exact .bind (triple_of_sparing (calm_nvram _ _).sparing s₀) fun _ => .pure hself hself

theorem prelaunchd_keepsOthers (payloadOptions : BitVec 32) (pinfo : Paleinfo) (s₀ : Storage) :
    CrashTriple (apfs c) (KeepsOthers s₀) (prelaunchd payloadOptions pinfo)
      (fun _ => KeepsOthers s₀) (KeepsOthers s₀) := by
  have hself : ∀ s, KeepsOthers s₀ s → KeepsOthers s₀ s := fun _ h => h
  refine .bind (triple_of_sparing calm_checkEnvironment.sparing s₀) fun platform => ?_
  refine .bind (triple_of_sparing (calm_mountImages payloadOptions platform).sparing s₀) fun _ => ?_
  refine .bind (revertFakefs_keepsOthers pinfo.flags ⟨[], []⟩ s₀) fun names => ?_
  refine .bind (triple_of_sparing (calm_rememberRootdev pinfo).sparing s₀) fun _ => ?_
  refine .bind (triple_of_sparing calm_bindSubstrate.sparing s₀) fun _ => ?_
  refine .ite (fun _ => ?_) fun _ => .pure hself hself
  exact triple_of_sparing (sparing_setupFakefs pinfo.flags names) s₀

/-! ## Boots -/

/-- A boot, with the calls that it has made when it ends. -/
structure Boot where
  payloadOptions : BitVec 32
  pinfo : Paleinfo
  trace : List Ev
  /-- `prelaunchd` has returned. -/
  ended : Bool

/-- The calls are those of the boot: to its end, or up to where it stops. -/
def Boot.Does (b : Boot) : Prop :=
  if b.ended = true then Run (prelaunchd b.payloadOptions b.pinfo).run b.trace (.ok ())
  else Cut (prelaunchd b.payloadOptions b.pinfo).run b.trace

/-- Nothing is mounted when the device boots. -/
def boots (world : Storage → Ev → Storage → Prop) (s : Storage) (b : Boot) (s' : Storage) : Prop :=
  b.Does ∧ Steps world { s with fake := none } b.trace s'

/-- What a procedure has reached when the boot ends. -/
theorem of_boots {world : Storage → Ev → Storage → Prop} {P Q D : Storage → Prop}
    {s s' : Storage} {b : Boot} (h : CrashTriple world P (prelaunchd b.payloadOptions b.pinfo)
      (fun _ => Q) D) (hs : P { s with fake := none }) (hboots : boots world s b s') :
    (b.ended = true → Q s') ∧ (b.ended = false → D s') := by
  obtain ⟨hdoes, hsteps⟩ := hboots
  unfold Boot.Does at hdoes
  constructor
  · intro hended
    rw [if_pos hended] at hdoes
    exact h.ends _ hs _ _ _ hdoes hsteps
  · intro hended
    rw [if_neg (by simp [hended])] at hdoes
    exact h.stops _ hs _ _ hdoes hsteps

theorem boots_keepsOthers {s s' : Storage} {b : Boot} (h : boots (apfs c) s b s') :
    KeepsOthers s s' := by
  have hstart : KeepsOthers s { s with fake := none } := keepsOthers_of_volumes rfl
  have hend := of_boots (prelaunchd_keepsOthers b.payloadOptions b.pinfo s) hstart h
  cases hended : b.ended with
  | true => exact hend.1 hended
  | false => exact hend.2 hended

/-- **No other volume is lost**: in every sequence of boots, wherever each of them ends and whatever
its calls answer, the volumes that are no fakefs stay, with the roles that they have. -/
theorem boots_keepOthers {s : Storage} {run : List (Boot × Storage)}
    (hrun : IsRun (boots (apfs c)) s run) : ∀ p ∈ run, KeepsOthers s p.2 := by
  have hstep (s₁ : Storage) (b : Boot) (s₂ : Storage) (hs : KeepsOthers s s₁) (_ : True)
      (hboots : boots (apfs c) s₁ b s₂) : KeepsOthers s s₂ := hs.trans (boots_keepsOthers hboots)
  exact hrun.invariant hstep (.refl s) (meets_true s run)

/-! ### A revert -/

theorem begins_disk0s1 : ∃ rest, "disk0s1".toList = 'd' :: rest ∧ 'd' ∉ rest :=
  ⟨"isk0s1".toList, by decide, by decide⟩

theorem noSlash_disk0s1 : '/' ∉ "disk0s1".toList := by decide

theorem fits_disk0s1 : "disk0s1".toList.length < 16 := by decide

/-- The container `disk0s1`. -/
def disk0s1 : Container where
  name := "disk0s1".toList
  begins := begins_disk0s1
  noSlash := noSlash_disk0s1
  fits := fits_disk0s1

def systemIndex : FsIndex := ⟨0, by decide⟩

def fakefsIndex : FsIndex := ⟨7, by decide⟩

/-- A system volume, and a fakefs that is finished. -/
def rootfulStorage : Storage where
  volumes n :=
    if n = systemIndex then some ⟨0x0001, false, false⟩
    else if n = fakefsIndex then some ⟨apfsVolRoleRecovery, true, true⟩
    else none
  rootdev := some "disk0s1s8".toList
  fake := none

def revertPinfo : Paleinfo where
  kbase := 0
  kslide := 0
  flags := palerainOptionRootful ||| palerainOptionForceRevert ||| palerainOptionSsv
  rootdev := "disk0s1s8".toList

def disk0s1Statfs : RootStatfs where
  fstypename := apfsFstype
  mntfromname := "/dev/disk0s1s1".toList
  mntonname := ['/']
  bavail := 0
  bsize := 4096

/-- The search lists the system volume as well. -/
def lyingTrace : List Ev :=
  [⟨.getenv "JB_HAS_VERBOSE_BOOT".toList, some ['1']⟩, ⟨.jailbreakGetPlatform, (2 : ℤ)⟩,
    ⟨.statfs, some disk0s1Statfs⟩,
    ⟨.apfsVolumeRoleFind "disk0s1".toList apfsVolRoleRecovery,
      (0, ["/dev/disk0s1s8".toList, "/dev/disk0s1s1".toList])⟩,
    ⟨.cfStringGetCString "/dev/disk0s1s8".toList 32, "/dev/disk0s1s8".toList⟩,
    ⟨.apfsVolumeRole "/dev/disk0s1s8".toList, some apfsVolRoleRecovery⟩,
    ⟨.apfsVolumeDelete "disk0s1s8".toList, (0 : ℤ)⟩,
    ⟨.cfStringGetCString "/dev/disk0s1s1".toList 32, "/dev/disk0s1s1".toList⟩,
    ⟨.apfsVolumeRole "/dev/disk0s1s1".toList, some 0x0001⟩]

def lyingBoot : Boot := ⟨payloadOptionUserspaceRebooted, revertPinfo, lyingTrace, false⟩

theorem lyingBoot_does : lyingBoot.Does :=
  .call _ (.call _ (.call _ (.call _ (.call _ (.call _ (.call _ (.call _ (.call _ (.stop _)))))))))

theorem mntfromname_disk0s1Statfs : ∃ source : MountSource, ∃ n,
    disk0s1Statfs.mntfromname = source.mntfromname (disk0s1.volume n) :=
  ⟨.plain, systemIndex, by decide⟩

theorem fakefs_volume : rootfulStorage.volumes fakefsIndex = some ⟨apfsVolRoleRecovery, true, true⟩ :=
  rfl

theorem lyingBoot_steps : Steps (apfs disk0s1) { rootfulStorage with fake := none } lyingTrace
    (rootfulStorage.set fakefsIndex none) := by
  refine ⟨_, rfl, _, rfl, _, ⟨rfl, fun st hst _ => ?_⟩, _, rfl, _, ⟨rfl, fun _ => rfl⟩, _,
    ⟨rfl, fun r hr => ?_⟩, _, .inl ⟨fakefsIndex, .inl (by decide), rfl⟩, _, ⟨rfl, fun _ => rfl⟩, _,
    ⟨rfl, fun r hr => ?_⟩, rfl⟩
  · obtain rfl := Option.some.inj hst
    exact mntfromname_disk0s1Statfs
  · refine ⟨fakefsIndex, _, .inr (by decide), fakefs_volume, ?_⟩
    exact Option.some.inj hr
  · refine ⟨systemIndex, ⟨0x0001, false, false⟩, .inr (by decide), rfl, ?_⟩
    exact Option.some.inj hr

theorem boots_keepOthers_lying :
    KeepsOthers rootfulStorage (rootfulStorage.set fakefsIndex none) := by
  have hrun : IsRun (boots (apfs disk0s1)) rootfulStorage
      [(lyingBoot, rootfulStorage.set fakefsIndex none)] :=
    ⟨⟨lyingBoot_does, lyingBoot_steps⟩, trivial⟩
  exact boots_keepOthers hrun _ List.mem_cons_self

end Jbinit.Loader
