import Jbinit.Loader.Fakefs

/-!
# The states of the fakefs

For its user the fakefs is absent, unfinished or finished. The steps between these states are those
of `Fakefs.Boots`: a boot can only remove what is there if it reverts, and can only make something
if it sets up and nothing is there. `boots_simulate` is the simulation of the boots by these steps,
when the search by role tells the truth: there is one fakefs at most, a boot that ends has done all
that its flags ask for, and the snapshot `orig-fs` is only on a volume onto which the root has been
copied to the end.
-/

namespace Jbinit.Loader

open Foundations Calls Transitions Palera1nd RootDevice PartialRoot

/-! ## What the user sees -/

inductive Fakefs
  | absent
  | unfinished
  | finished
  deriving DecidableEq

/-- What a boot is asked to do, and whether it comes to its end. -/
structure BootKind where
  reverts : Bool
  setsUp : Bool
  ended : Bool

def Boot.kind (b : Boot) : BootKind where
  reverts := reverts b.pinfo.flags
  setsUp := b.pinfo.flags.has palerainOptionSetupRootful
  ended := b.ended

/-- The first half of a boot. -/
def Fakefs.Reverts (b : BootKind) (a a' : Fakefs) : Prop :=
  (a' = a ∧ (b.ended = true → b.reverts = true → a = absent)) ∨ (b.reverts = true ∧ a' = absent)

/-- The second half of a boot. -/
def Fakefs.SetsUp (b : BootKind) (a a' : Fakefs) : Prop :=
  (a' = a ∧ (b.ended = true → b.setsUp = false)) ∨
    (b.setsUp = true ∧ a = absent ∧ (b.ended = true → a' = finished))

def Fakefs.Boots (a : Fakefs) (b : BootKind) (a' : Fakefs) : Prop :=
  ∃ a₁, a.Reverts b a₁ ∧ a₁.SetsUp b a'

/-! ## The storage and the state -/

/-- The volume is the only fakefs. -/
structure Storage.Only (s : Storage) (n : FsIndex) (v : ApfsVolume) : Prop where
  isThere : s.volumes n = some v
  role : v.role = apfsVolRoleRecovery
  unique : ∀ m, s.Recovery m → m = n

/-- The state of the fakefs. One that is finished has been copied to the end. -/
def Storage.Shows (s : Storage) : Fakefs → Prop
  | .absent => ∀ n, ¬s.Recovery n
  | .unfinished => ∃ n v, s.Only n v ∧ v.snapshot = false
  | .finished => ∃ n v, s.Only n v ∧ v.snapshot = true ∧ v.copied = true

section Storage

variable {s s' : Storage} {n m : FsIndex} {v : ApfsVolume} {a : Fakefs}

theorem Storage.Only.recovery (h : s.Only n v) : s.Recovery n := ⟨v, h.isThere, h.role⟩

/-- The same fakefs are there. -/
structure SameFakefs (s s' : Storage) : Prop where
  kept : ∀ n v, s.volumes n = some v → s'.volumes n = some v
  made : ∀ n, s'.Recovery n → s.Recovery n

theorem sameFakefs_of_volumes (h : s'.volumes = s.volumes) : SameFakefs s s' where
  kept n v hv := by rw [h, hv]
  made n hn := by
    obtain ⟨v, hv, hrole⟩ := hn
    exact ⟨v, by rw [← h, hv], hrole⟩

theorem Storage.Grows.sameFakefs (h : s.Grows s') : SameFakefs s s' where
  kept := h.kept
  made n hn := by
    obtain ⟨v, hv, hrole⟩ := hn
    rcases h.made n v hv with hv | hne
    · exact ⟨v, hv, hrole⟩
    · exact absurd hrole hne

theorem SameFakefs.only (h : SameFakefs s s') (hs : s.Only n v) : s'.Only n v where
  isThere := h.kept n v hs.isThere
  role := hs.role
  unique m hm := hs.unique m (h.made m hm)

theorem SameFakefs.shows (h : SameFakefs s s') (hs : s.Shows a) : s'.Shows a := by
  cases a with
  | absent => exact fun n hn => hs n (h.made n hn)
  | unfinished =>
    obtain ⟨n, v, hv, hsnapshot⟩ := hs
    exact ⟨n, v, h.only hv, hsnapshot⟩
  | finished =>
    obtain ⟨n, v, hv, hsnapshot⟩ := hs
    exact ⟨n, v, h.only hv, hsnapshot⟩

theorem recovery_set_none (h : (s.set n none).Recovery m) : m ≠ n ∧ s.Recovery m := by
  obtain ⟨v, hv, hrole⟩ := h
  have hne : m ≠ n := by
    rintro rfl
    simp [Storage.set] at hv
  refine ⟨hne, v, ?_, hrole⟩
  simpa [Storage.set, Function.update_of_ne hne] using hv

/-- Without its only fakefs the storage has none. -/
theorem Storage.Shows.delete (h : s.Shows a) (hn : s.Recovery n) : (s.set n none).Shows .absent := by
  intro m hm
  obtain ⟨hne, hm⟩ := recovery_set_none hm
  cases a with
  | absent => exact h m hm
  | unfinished =>
    obtain ⟨k, v, hv, -⟩ := h
    exact hne ((hv.unique m hm).trans (hv.unique n hn).symm)
  | finished =>
    obtain ⟨k, v, hv, -⟩ := h
    exact hne ((hv.unique m hm).trans (hv.unique n hn).symm)

theorem Storage.Shows.eq_absent (h : s.Shows a) (hnone : ∀ n, ¬s.Recovery n) : a = .absent := by
  cases a with
  | absent => rfl
  | unfinished =>
    obtain ⟨n, v, hv, -⟩ := h
    exact absurd hv.recovery (hnone n)
  | finished =>
    obtain ⟨n, v, hv, -⟩ := h
    exact absurd hv.recovery (hnone n)

/-- A new fakefs is the only one. -/
theorem only_set_of_absent (h : s.Shows .absent) (hv : v.role = apfsVolRoleRecovery) :
    (s.set n (some v)).Only n v where
  isThere := by simp [Storage.set]
  role := hv
  unique m hm := by
    by_contra hne
    obtain ⟨w, hw, hrole⟩ := hm
    refine h m ⟨w, ?_, hrole⟩
    simpa [Storage.set, Function.update_of_ne hne] using hw

/-- What is done to the only fakefs when it is mounted. -/
theorem Storage.Only.modifyFake (h : s.Only n v) (hfake : s.fake = some n)
    {f : ApfsVolume → ApfsVolume} (hf : (f v).role = v.role) :
    (s.modifyFake f).Only n (f v) where
  isThere := by simp [Storage.modifyFake, hfake, Storage.set, h.isThere]
  role := hf.trans h.role
  unique m hm := by
    by_contra hne
    obtain ⟨w, hw, hrole⟩ := hm
    refine hne (h.unique m ⟨w, ?_, hrole⟩)
    simpa [Storage.modifyFake, hfake, Storage.set, Function.update_of_ne hne] using hw

theorem Storage.Only.shows (h : s.Only n v) (hv : v.snapshot = true → v.copied = true) :
    ∃ a, s.Shows a := by
  cases hsnapshot : v.snapshot with
  | false => exact ⟨.unfinished, n, v, h, hsnapshot⟩
  | true => exact ⟨.finished, n, v, h, hsnapshot, hv hsnapshot⟩

theorem fake_modifyFake (f : ApfsVolume → ApfsVolume) : (s.modifyFake f).fake = s.fake := by
  unfold Storage.modifyFake
  split
  · rfl
  · rfl

end Storage

/-! ## What each part does to the state -/

section Parts

variable {c : Container} {a : Fakefs}

/-- The calls that change no fakefs. -/
theorem sameFakefs_apfs {s s' : Storage} {call : Call} {r : Answer call}
    (hcall : changesFakefs call = false) (h : apfs c s ⟨call, r⟩ s') : SameFakefs s s' := by
  have hrefl : SameFakefs s s := sameFakefs_of_volumes rfl
  cases call
  case statfs | cfStringGetCString | apfsVolumeRole | ioRegistryEntryCreateCFProperty =>
    obtain ⟨rfl, -⟩ := h
    exact hrefl
  case apfsVolumeDelete | apfsVolumeCreate | copyfile | fsSnapshotCreate =>
    exact absurd hcall (Bool.noConfusion ·)
  case ioRegistryEntrySetCFProperty key value =>
    rcases h with rfl | ⟨-, rfl⟩
    · exact sameFakefs_of_volumes (volumes_setProperty s key value)
    · exact hrefl
  case runCommand => exact h.sameFakefs
  case mount =>
    rcases h with ⟨-, -, -, n, -, -, rfl⟩ | ⟨-, rfl⟩
    · exact sameFakefs_of_volumes rfl
    · exact hrefl
  case unmount =>
    rcases h with rfl | rfl
    · exact hrefl
    · exact sameFakefs_of_volumes rfl
  all_goals
    obtain rfl := h
    exact hrefl

/-- A condition that is about the fakefs only. -/
def AboutFakefs (I : Storage → Prop) : Prop := ∀ s s', SameFakefs s s' → I s → I s'

theorem aboutFakefs_shows (a : Fakefs) : AboutFakefs (·.Shows a) := fun _ _ h => h.shows

theorem aboutFakefs_only (n : FsIndex) (v : ApfsVolume) : AboutFakefs (·.Only n v) :=
  fun _ _ h => h.only

theorem triple_of_calm {α : Type} {x : Io α} {I D : Storage → Prop} (h : Calm x)
    (hI : AboutFakefs I) (hD : ∀ s, I s → D s) :
    CrashTriple (truthfulApfs c) I x (fun _ => I) D :=
  h.triple (fun _ hcall s _ s' hs hstep => hI s s' (sameFakefs_apfs hcall hstep.1) hs) hD

/-- What a call has done that is checked afterwards. -/
def OnSuccess (Q D : Storage → Prop) (ret : ℤ) (s : Storage) : Prop := (ret = 0 → Q s) ∧ D s

theorem checkError_spec {Q D : Storage → Prop} (message : String) (ret : ℤ) :
    CrashTriple (truthfulApfs c) (OnSuccess Q D ret) (checkError message ret) (fun _ => Q) D :=
  .ite (fun _ => .throw fun _ h => h.2) fun hret =>
    .pure (fun _ h => h.1 (not_not.mp hret)) fun _ h => h.2

/-! ### Names -/

/-- What the static buffers can hold. -/
structure Known (c : Container) (names : Names) : Prop where
  volumePrefix : names.volumePrefix = [] ∨ names.volumePrefix = c.stem
  containerName : names.containerName = [] ∨ names.containerName = c.name

theorem length_stem_lt (c : Container) : c.stem.length < 32 := by
  have hfits := c.fits
  simp only [Container.stem, List.length_append, List.length_singleton]
  omega

theorem volumePrefix_eq {source : MountSource} {n : FsIndex} :
    Loader.volumePrefix [] (source.rootfs (c.volume n)) = .ok c.stem := by
  have hskips : source.skips 5 = [] := by
    cases source with
    | plain => rfl
    | snapshot name apart => rfl
  have h := volumePrefixSkipping_eq (Nat.le_refl 5) "statfs / failed" (c.volume n) source
  have hfits : CStr.snprintf 32 (c.volume n).stem = c.stem :=
    CStr.snprintf_of_lt (length_stem_lt c)
  rwa [hskips, List.nil_append, hfits] at h

theorem volumePrefix_ok {rootfs : Option RootStatfs} {text : CStr}
    (h : ∀ st, rootfs = some st → st.fstypename = apfsFstype →
      ∃ source : MountSource, ∃ n, st.mntfromname = source.mntfromname (c.volume n))
    (hok : Loader.volumePrefix [] (rootfs.map RootStatfs.toStatfs) = .ok text) : text = c.stem := by
  cases rootfs with
  | none => exact absurd hok (by simp [Loader.volumePrefix, volumePrefixSkipping])
  | some st =>
    by_cases hfstype : st.fstypename = apfsFstype
    · obtain ⟨source, n, hname⟩ := h st rfl hfstype
      have hst : (some st).map RootStatfs.toStatfs = source.rootfs (c.volume n) := by
        have heta : st.toStatfs = ⟨st.fstypename, st.mntfromname⟩ := rfl
        rw [Option.map_some, heta, hfstype, hname]
        rfl
      rw [hst, volumePrefix_eq, Except.ok.injEq] at hok
      exact hok.symm
    · have hne : st.fstypename ≠ "apfs".toList := hfstype
      have herror : Loader.volumePrefix [] (some st.toStatfs) =
          .error "unexpected filesystem type of /" := by
        unfold Loader.volumePrefix volumePrefixSkipping
        rw [if_neg (fun h => h rfl)]
        exact if_pos hne
      exact absurd (herror.symm.trans hok) (by simp)

variable {I D : Storage → Prop}

theorem getVolumePrefix_spec (hD : ∀ s, I s → D s) {names : Names}
    (hnames : Known c names) :
    CrashTriple (truthfulApfs c) I (getVolumePrefix names)
      (fun r s => (r.volumePrefix = c.stem ∧ r.containerName = names.containerName) ∧ I s) D := by
  refine .ite (fun hne => ?_) fun hnil => ?_
  · have hstem := hnames.volumePrefix.resolve_left hne
    exact .pure (fun s hs => ⟨⟨hstem, rfl⟩, hs⟩) hD
  · have hbuf : names.volumePrefix = [] := not_not.mp hnil
    let M (rootfs : Option RootStatfs) (s : Storage) : Prop :=
      (∀ text, Loader.volumePrefix [] (rootfs.map RootStatfs.toStatfs) = .ok text →
        text = c.stem) ∧ I s
    refine .bind (M := M) (.perform hD (fun _ s hs => hD s hs.2) ?_) fun rootfs => ?_
    · rintro s rootfs s' hs ⟨⟨rfl, hroot⟩, -⟩
      exact ⟨fun text => volumePrefix_ok hroot, hs⟩
    · refine .of_and fun htext => ?_
      rw [hbuf]
      split
      · exact .throw hD
      · case h_2 volumePre hok =>
        exact .pure (fun s hs => ⟨⟨htext volumePre hok, rfl⟩, hs⟩) hD

theorem getContainerName_spec (hD : ∀ s, I s → D s) {names : Names}
    (hnames : Known c names) :
    CrashTriple (truthfulApfs c) I (getContainerName names)
      (fun r s => (Known c r ∧ r.containerName = c.name) ∧ I s) D := by
  refine .ite (fun hne => ?_) fun hnil => ?_
  · have hname := hnames.containerName.resolve_left hne
    exact .pure (fun s hs => ⟨⟨hnames, hname⟩, hs⟩) hD
  · have hbuf : names.containerName = [] := not_not.mp hnil
    refine .bind (getVolumePrefix_spec hD hnames) fun r => .of_and fun hr => ?_
    have hname : Loader.containerName r.containerName r.volumePrefix = c.name := by
      rw [hr.1, hr.2, hbuf]
      exact containerName_eq (v := c.volume ⟨0, by omega⟩) (length_stem_lt c)
    exact .pure (fun s hs => ⟨⟨⟨.inr hr.1, .inr hname⟩, hname⟩, hs⟩) hD

/-! ### The revert -/

/-- A revert has removed the fakefs, or has not come to it. -/
def Removing (a : Fakefs) (s : Storage) : Prop := s.Shows a ∨ s.Shows .absent

/-- Before a round of the loop: each fakefs is in the rest of the list, which has no other paths. -/
structure Listed (c : Container) (a : Fakefs) (fsArray : List CStr) (s : Storage) : Prop where
  listed : ∀ n, s.Recovery n → c.device n ∈ fsArray
  devices : ∀ path ∈ fsArray, ∃ n, path = c.device n
  removing : Removing a s

theorem removing_set_none {s : Storage} {n : FsIndex} (h : Removing a s) (hn : s.Recovery n) :
    (s.set n none).Shows .absent := by
  rcases h with h | h
  · exact h.delete hn
  · exact h.delete hn

theorem deleteFakefs_spec (path : CStr) (fsArray : List CStr) :
    CrashTriple (truthfulApfs c) (Listed c a (path :: fsArray)) (deleteFakefs path)
      (fun _ => Listed c a fsArray) (Removing a) := by
  have hD : ∀ s, Listed c a (path :: fsArray) s → Removing a s := fun _ h => h.removing
  let M (buf : CStr) (s : Storage) : Prop := buf = path ∧ Listed c a (path :: fsArray) s
  refine .bind (M := M) (.perform hD (fun _ _ h => h.2.removing) ?_) fun devRootdev => ?_
  · rintro s buf s' hs ⟨⟨rfl, hbuf⟩, -⟩
    obtain ⟨n, rfl⟩ := hs.devices path List.mem_cons_self
    exact ⟨hbuf (length_device_lt c n), hs⟩
  refine .of_and fun hpath => ?_
  subst hpath
  let M (role : Option (BitVec 16)) (s : Storage) : Prop := Listed c a (devRootdev :: fsArray) s ∧
    ∀ r, role = some r → ∃ n v, c.Names n devRootdev ∧ s.volumes n = some v ∧ v.role = r
  refine .bind (M := M) (.perform hD (fun _ _ h => h.1.removing) ?_) fun role => .ite (fun _ => ?_)
    fun hrole => ?_
  · rintro s r s' hs ⟨⟨rfl, hnames⟩, -⟩
    exact ⟨hs, hnames⟩
  · exact .throw fun s h => h.1.removing
  refine .bind (M := OnSuccess (Listed c a fsArray) (Removing a))
    (.perform (fun s h => h.1.removing) (fun _ _ h => h.2) ?_) (checkError_spec _)
  rintro s ret s' ⟨hs, hnames⟩ ⟨hdelete, -⟩
  cases role with
  | none => exact absurd hrole (by decide)
  | some r =>
    have hr : r = apfsVolRoleRecovery := not_not.mp hrole
    obtain ⟨n, v, hname, hv, hvrole⟩ := hnames r rfl
    have hn : s.Recovery n := ⟨v, hv, hvrole.trans hr⟩
    rcases hdelete with ⟨m, hm, rfl⟩ | ⟨hret, rfl⟩
    · obtain rfl := names_drop hname hm
      have hremoving : Removing a (s.set m none) := .inr (removing_set_none hs.removing hn)
      refine ⟨fun _ => ⟨fun k hk => ?_, fun path hpath => ?_, hremoving⟩, hremoving⟩
      · obtain ⟨hne, hk⟩ := recovery_set_none hk
        rcases List.mem_cons.mp (hs.listed k hk) with heq | hmem
        · have hkname : c.Names k devRootdev := .inr heq.symm
          exact absurd (names_injective hkname hname) hne
        · exact hmem
      · exact hs.devices path (List.mem_cons_of_mem _ hpath)
    · exact ⟨fun h => absurd h hret, hs.removing⟩

/-- The state when the reverting half of a boot is done. -/
def reverted (flags : Flags) (a : Fakefs) : Fakefs := if reverts flags then .absent else a

theorem revertFakefs_spec (flags : Flags) (a : Fakefs) :
    CrashTriple (truthfulApfs c) (·.Shows a) (revertFakefs flags ⟨[], []⟩)
      (fun names s => Known c names ∧ s.Shows (reverted flags a))
      (fun s => s.Shows a ∨ reverts flags = true ∧ s.Shows .absent) := by
  have hempty : Known c ⟨[], []⟩ := ⟨.inl rfl, .inl rfl⟩
  refine .ite (fun hreverts => ?_) fun hreverts => ?_
  · have hreverted : reverted flags a = .absent := if_pos hreverts
    rw [hreverted]
    have hD : ∀ s : Storage, s.Shows a → s.Shows a ∨ reverts flags = true ∧ s.Shows .absent :=
      fun _ h => .inl h
    have hremoving : ∀ s : Storage, Removing a s →
        s.Shows a ∨ reverts flags = true ∧ s.Shows .absent :=
      fun _ h => h.imp_right fun h => ⟨hreverts, h⟩
    refine .bind (getContainerName_spec hD hempty) fun names => .of_and fun hnames => ?_
    let M (found : ℤ × List CStr) (s : Storage) : Prop := s.Shows a ∧
      (found.1 = 0 → ∀ path, path ∈ found.2 ↔ ∃ n, s.Recovery n ∧ path = c.device n) ∧
      (found.1 = roleNotFound → ∀ n, ¬s.Recovery n)
    refine .bind (M := M) (.perform hD (fun _ s h => hD s h.1) ?_) fun found =>
      .ite (fun _ => .throw fun s h => hD s h.1) fun hfound => .ite (fun hzero => ?_) fun hne => ?_
    · rintro s found s' hs ⟨rfl, htruthful⟩
      exact ⟨hs, htruthful hnames.2 rfl⟩
    · have hlisted : ∀ s, M found s → Listed c a found.2 s := by
        intro s hs
        have hpaths := hs.2.1 hzero
        refine ⟨fun n hn => (hpaths _).mpr ⟨n, hn, rfl⟩, fun path hpath => ?_, .inl hs.1⟩
        obtain ⟨n, -, hn⟩ := (hpaths path).mp hpath
        exact ⟨n, hn⟩
      have hloop := CrashTriple.forM (f := deleteFakefs) (I := Listed c a) (D := Removing a)
        deleteFakefs_spec (fun _ h => h.removing) found.2
      have hnone : ∀ s, Listed c a [] s → s.Shows .absent :=
        fun s h n hn => absurd (h.listed n hn) List.not_mem_nil
      refine .bind (hloop.weaken hlisted (fun _ s h => hnone s h) hremoving) fun _ => ?_
      have habsent : ∀ s : Storage, s.Shows .absent →
          s.Shows a ∨ reverts flags = true ∧ s.Shows .absent := fun s h => .inr ⟨hreverts, h⟩
      exact .bind (triple_of_calm (calm_nvram _ _) (aboutFakefs_shows .absent) habsent) fun _ =>
        .pure (fun s h => ⟨hnames.1, h⟩) habsent
    · have hnotFound : found.1 = roleNotFound := by
        by_contra h
        exact hfound ⟨hne, h⟩
      exact .pure (fun s h => ⟨hnames.1, h.2.2 hnotFound⟩) fun s h => hD s h.1
  · have hreverted : reverted flags a = a := if_neg hreverts
    rw [hreverted]
    exact .pure (fun s h => ⟨hempty, h⟩) fun s h => .inl h

/-! ### The set-up -/

/-- What a set-up can leave: the state is what it was, or something is there where nothing was. -/
def Making (a : Fakefs) (s : Storage) : Prop := s.Shows a ∨ a = .absent ∧ ∃ a', s.Shows a'

theorem making_of_only {s : Storage} {n : FsIndex} {copied snapshot : Bool}
    (h : s.Only n ⟨apfsVolRoleRecovery, copied, snapshot⟩) (hv : snapshot = true → copied = true) :
    Making .absent s :=
  .inr ⟨rfl, h.shows hv⟩

theorem checkNoFakefs_spec :
    CrashTriple (truthfulApfs c) (·.Shows a) (checkNoFakefs c.name)
      (fun _ s => a = .absent ∧ s.Shows .absent) (Making a) := by
  have hD : ∀ s : Storage, s.Shows a → Making a s := fun _ h => .inl h
  let M (found : ℤ × List CStr) (s : Storage) : Prop := s.Shows a ∧
    (found.1 = roleNotFound → ∀ n, ¬s.Recovery n)
  refine .bind (M := M) (.perform hD (fun _ s h => hD s h.1) ?_) fun found =>
    .ite (fun _ => .throw fun s h => hD s h.1) fun hfound =>
      .ite (fun _ => .throw fun s h => hD s h.1) fun hne => ?_
  · rintro s found s' hs ⟨rfl, htruthful⟩
    exact ⟨hs, (htruthful rfl rfl).2⟩
  · have hnotFound : found.1 = roleNotFound := by
      by_contra h
      exact hfound ⟨hne, h⟩
    exact .pure (fun s h => ⟨h.1.eq_absent (h.2 hnotFound), h.2 hnotFound⟩) fun s h => hD s h.1

/-- The number that is printed is that of the BSD name. -/
theorem showInt_fsindex (n : FsIndex) :
    showInt (BitVec.ofNat 32 n.val + 1).toInt = Nat.toDigits 10 (n.val + 1) := by
  have htoNat : (BitVec.ofNat 32 n.val + 1).toNat = n.val + 1 := by
    rw [BitVec.toNat_add, BitVec.toNat_ofNat]
    have hone : (1 : BitVec 32).toNat = 1 := rfl
    omega
  have htoInt : (BitVec.ofNat 32 n.val + 1).toInt = (n.val + 1 : ℕ) := by
    rw [BitVec.toInt_eq_toNat_of_lt (by rw [htoNat]; omega), htoNat]
  rw [htoInt, showInt, if_neg (by omega), Int.natAbs_natCast]

theorem createFakefs_spec {names : Names} (hnames : Known c names) :
    CrashTriple (truthfulApfs c) (·.Shows .absent) (createFakefs names)
      (fun r s => ∃ n, r = c.device n ∧ s.Only n ⟨apfsVolRoleRecovery, false, false⟩)
      (Making .absent) := by
  let Made (fsindex : BitVec 32) (s : Storage) : Prop :=
    ∃ n : FsIndex, fsindex = BitVec.ofNat 32 n.val ∧ s.Only n ⟨apfsVolRoleRecovery, false, false⟩
  refine .bind (M := fun created => OnSuccess (Made created.2) (Making .absent) created.1)
    (.perform (fun s h => .inl h) (fun _ _ h => h.2) ?_) fun created =>
      .bind (checkError_spec _ _) fun _ => ?_
  · rintro s created s' hs ⟨hcreate, -⟩
    rcases hcreate with ⟨n, -, rfl, -, rfl⟩ | ⟨hret, rfl⟩
    · have honly := only_set_of_absent (n := n) (v := ⟨apfsVolRoleRecovery, false, false⟩) hs rfl
      exact ⟨fun _ => ⟨n, rfl, honly⟩, making_of_only honly id⟩
    · exact ⟨fun h => absurd h hret, .inl hs⟩
  · have hD : ∀ s, Made created.2 s → Making .absent s := by
      rintro s ⟨n, -, honly⟩
      exact making_of_only honly id
    refine .bind (getVolumePrefix_spec hD hnames) fun r => .of_and fun hr => .pure ?_ hD
    rintro s ⟨n, hindex, honly⟩
    refine ⟨n, ?_, honly⟩
    have hdevice : dev ++ (r.volumePrefix ++ showInt (created.2 + 1).toInt) = c.device n := by
      rw [hr.1, hindex, showInt_fsindex, Container.device, bsdName_eq, Container.stem,
        List.append_assoc, List.singleton_append]
    have hlength := length_device_lt c n
    rw [hdevice]
    exact CStr.snprintf_of_lt (by omega)

/-- The new volume is mounted at `/cores/fs/fake`. -/
structure Mounted (n : FsIndex) (copied : Bool) (s : Storage) : Prop where
  only : s.Only n ⟨apfsVolRoleRecovery, copied, false⟩
  fake : s.fake = some n

theorem Mounted.making {s : Storage} {n : FsIndex} {copied : Bool} (h : Mounted n copied s) :
    Making .absent s :=
  making_of_only h.only fun h => absurd h (by decide)

theorem mountFakefs_spec (n : FsIndex) :
    CrashTriple (truthfulApfs c) (·.Only n ⟨apfsVolRoleRecovery, false, false⟩)
      (ask (.mount apfsFstype fakefs 0 (c.device n)))
      (OnSuccess (Mounted n false) (Making .absent)) (Making .absent) := by
  refine .perform (fun s h => making_of_only h id) (fun _ _ h => h.2) ?_
  rintro s ret s' hs ⟨hmount, -⟩
  rcases hmount with ⟨-, -, -, m, hm, -, rfl⟩ | ⟨hret, rfl⟩
  · obtain rfl := names_injective hm (.inr rfl)
    have hsame : SameFakefs s { s with fake := some m } := sameFakefs_of_volumes rfl
    have honly := hsame.only hs
    exact ⟨fun _ => ⟨honly, rfl⟩, making_of_only honly id⟩
  · refine ⟨fun h => ?_, making_of_only hs id⟩
    rcases hret with hret | hdir
    · exact absurd h hret
    · exact absurd rfl hdir

theorem copyRoot_spec (n : FsIndex) :
    CrashTriple (truthfulApfs c) (Mounted n false) copyRoot (fun _ => Mounted n true)
      (Making .absent) := by
  refine .bind (M := OnSuccess (Mounted n true) (Making .absent))
    (.perform (fun s h => h.making) (fun _ _ h => h.2) ?_) (checkError_spec _)
  rintro s ret s' hs ⟨hcopy, -⟩
  rcases hcopy with ⟨-, rfl⟩ | ⟨hret, rfl⟩
  · have hmounted : Mounted n true (s.modifyFake fun v => { v with copied := true }) :=
      ⟨hs.only.modifyFake hs.fake rfl, by rw [fake_modifyFake, hs.fake]⟩
    exact ⟨fun _ => hmounted, hmounted.making⟩
  · exact ⟨fun h => absurd h hret, hs.making⟩

theorem takeSnapshot_spec (n : FsIndex) :
    CrashTriple (truthfulApfs c) (Mounted n true) takeSnapshot (fun _ s => s.Shows .finished)
      (Making .absent) := by
  have hD : ∀ s : Storage, s.Shows .finished → Making .absent s := fun s h => .inr ⟨rfl, _, h⟩
  refine .bind (M := fun _ => Mounted n true) (.perform (fun s h => h.making)
    (fun _ s h => h.making) ?_) fun fdFakefs => .ite (fun _ => .throw fun s h => h.making) fun _ =>
      .bind (M := OnSuccess (·.Shows .finished) (Making .absent))
        (.perform (fun s h => h.making) (fun _ _ h => h.2) ?_) (checkError_spec _)
  · rintro s fd s' hs ⟨rfl, -⟩
    exact hs
  · rintro s ret s' hs ⟨hsnapshot, -⟩
    rcases hsnapshot with ⟨-, rfl⟩ | ⟨hret, rfl⟩
    · have hfinished : (s.modifyFake fun v => { v with snapshot := true }).Shows .finished :=
        ⟨n, _, hs.only.modifyFake hs.fake rfl, rfl, rfl⟩
      exact ⟨fun _ => hfinished, hD _ hfinished⟩
    · exact ⟨fun h => absurd h hret, hs.making⟩

theorem setupFakefs_spec (flags : Flags) {names : Names} (hnames : Known c names) :
    CrashTriple (truthfulApfs c) (·.Shows a) (setupFakefs flags names)
      (fun _ s => a = .absent ∧ s.Shows .finished) (Making a) := by
  have hD : ∀ s : Storage, s.Shows a → Making a s := fun _ h => .inl h
  have hshows := aboutFakefs_shows a
  refine .bind (triple_of_calm calm_mountPhases hshows hD) fun _ => ?_
  refine .bind (triple_of_calm calm_statfsRoot hshows hD) fun rootfs => ?_
  refine .bind (getContainerName_spec hD hnames) fun names₁ => .of_and fun hnames₁ => ?_
  refine .bind (getVolumePrefix_spec hD hnames₁.1) fun names₂ => .of_and fun hnames₂ => ?_
  have hcontainer : names₂.containerName = c.name := hnames₂.2.trans hnames₁.2
  have hknown : Known c names₂ := ⟨.inr hnames₂.1, .inr hcontainer⟩
  rw [hcontainer]
  refine .bind checkNoFakefs_spec fun _ => .of_and fun habsent => ?_
  subst habsent
  have hmaking (n : FsIndex) : ∀ s : Storage, s.Only n ⟨apfsVolRoleRecovery, false, false⟩ →
      Making .absent s := fun s h => making_of_only h id
  refine .bind (triple_of_calm (calm_checkSpace flags rootfs) hshows hD) fun _ => ?_
  refine .bind (triple_of_calm (.perform rfl) hshows hD) fun _ => ?_
  refine .bind (triple_of_calm (uses_checkError _ _) hshows hD) fun _ => ?_
  refine .bind (createFakefs_spec hknown) fun mntfromname => ?_
  refine .of_exists fun n => .of_and fun hdevice => ?_
  subst hdevice
  refine .bind (triple_of_calm (calm_nvram _ _) (aboutFakefs_only n _) (hmaking n)) fun _ => ?_
  refine .bind (mountFakefs_spec n) fun _ => .bind (checkError_spec _ _) fun _ => ?_
  refine .bind (copyRoot_spec n) fun _ => .bind (takeSnapshot_spec n) fun _ => ?_
  exact (triple_of_calm calm_finishSetup (aboutFakefs_shows .finished)
    fun s h => .inr ⟨rfl, _, h⟩).weaken (fun _ h => h) (fun _ _ h => ⟨rfl, h⟩) fun _ h => h

/-! ## Boots -/

/-- The state when the boot ends here. -/
def Booted (flags : Flags) (ended : Bool) (a : Fakefs) (s : Storage) : Prop :=
  ∃ a', a.Boots ⟨reverts flags, flags.has palerainOptionSetupRootful, ended⟩ a' ∧ s.Shows a'

theorem reverts_reverted (flags : Flags) (setsUp ended : Bool) (a : Fakefs) :
    a.Reverts ⟨reverts flags, setsUp, ended⟩ (reverted flags a) := by
  unfold reverted
  cases hreverts : reverts flags with
  | true => exact .inr ⟨rfl, rfl⟩
  | false => exact .inl ⟨rfl, fun _ h => absurd h (Bool.noConfusion ·)⟩

theorem booted_of_shows {flags : Flags} {s : Storage} (h : s.Shows a) : Booted flags false a s :=
  ⟨a, ⟨a, .inl ⟨rfl, fun h => absurd h (Bool.noConfusion ·)⟩,
    .inl ⟨rfl, fun h => absurd h (Bool.noConfusion ·)⟩⟩, h⟩

theorem booted_of_reverted {flags : Flags} {s : Storage} (h : s.Shows (reverted flags a)) :
    Booted flags false a s :=
  ⟨_, ⟨_, reverts_reverted flags _ _ a, .inl ⟨rfl, fun h => absurd h (Bool.noConfusion ·)⟩⟩, h⟩

theorem booted_of_making {flags : Flags} {s : Storage}
    (hflags : flags.has palerainOptionSetupRootful = true) (h : Making (reverted flags a) s) :
    Booted flags false a s := by
  rcases h with h | ⟨habsent, a', h⟩
  · exact booted_of_reverted h
  · refine ⟨a', ⟨_, reverts_reverted flags _ _ a, .inr ⟨hflags, habsent, fun h => ?_⟩⟩, h⟩
    exact absurd h (Bool.noConfusion ·)

theorem prelaunchd_spec (payloadOptions : BitVec 32) (pinfo : Paleinfo) (a : Fakefs) :
    CrashTriple (truthfulApfs c) (·.Shows a) (prelaunchd payloadOptions pinfo)
      (fun _ => Booted pinfo.flags true a) (Booted pinfo.flags false a) := by
  have hD : ∀ s : Storage, s.Shows a → Booted pinfo.flags false a s := fun _ => booted_of_shows
  have hreverted : ∀ s : Storage, s.Shows (reverted pinfo.flags a) → Booted pinfo.flags false a s :=
    fun _ => booted_of_reverted
  have hshows := aboutFakefs_shows (reverted pinfo.flags a)
  have hremoved : ∀ s : Storage, s.Shows a ∨ reverts pinfo.flags = true ∧ s.Shows .absent →
      Booted pinfo.flags false a s := by
    rintro s (h | ⟨hreverts, h⟩)
    · exact hD s h
    · apply hreverted
      rwa [reverted, if_pos hreverts]
  refine .bind (triple_of_calm calm_checkEnvironment (aboutFakefs_shows a) hD) fun platform => ?_
  refine .bind (triple_of_calm (calm_mountImages payloadOptions platform) (aboutFakefs_shows a) hD)
    fun _ => ?_
  refine .bind ((revertFakefs_spec pinfo.flags a).weaken (fun _ h => h) (fun _ _ h => h) hremoved)
    fun names => .of_and fun hnames => ?_
  refine .bind (triple_of_calm (calm_rememberRootdev pinfo) hshows hreverted) fun _ => ?_
  refine .bind (triple_of_calm calm_bindSubstrate hshows hreverted) fun _ => .ite (fun hsetup => ?_)
    fun hsetup => .pure (fun s h => ?_) hreverted
  · refine (setupFakefs_spec pinfo.flags hnames).weaken (fun _ h => h) (fun _ s h => ?_)
      fun s h => booted_of_making hsetup h
    exact ⟨.finished, ⟨_, reverts_reverted _ _ _ a, .inr ⟨hsetup, h.1, fun _ => rfl⟩⟩, h.2⟩
  · refine ⟨_, ⟨_, reverts_reverted _ _ _ a, .inl ⟨rfl, fun _ => ?_⟩⟩, h⟩
    exact Bool.eq_false_iff.mpr hsetup

/-- One boot. -/
theorem boots_simulated {s s' : Storage} {b : Boot} (hs : s.Shows a)
    (h : boots (truthfulApfs c) s b s') : ∃ a', a.Boots b.kind a' ∧ s'.Shows a' := by
  have hsame : SameFakefs s { s with fake := none } := sameFakefs_of_volumes rfl
  have hend := of_boots (prelaunchd_spec b.payloadOptions b.pinfo a) (hsame.shows hs) h
  cases hended : b.ended with
  | true =>
    have hbooted := hend.1 hended
    rwa [← hended] at hbooted
  | false =>
    have hbooted := hend.2 hended
    rwa [← hended] at hbooted

/-- **The states of the fakefs**: every sequence of boots, wherever each of them ends, goes through
the states by their steps. -/
theorem boots_simulate {s : Storage} {run : List (Boot × Storage)} (hs : s.Shows a)
    (hrun : IsRun (boots (truthfulApfs c)) s run) :
    ∃ run', IsRun Fakefs.Boots a run' ∧
      List.Forall₂ (fun p q => q.1 = p.1.kind ∧ p.2.Shows q.2) run run' := by
  have hstep (s : Storage) (b : Boot) (s' : Storage) (a : Fakefs) (hs : s.Shows a)
      (h : boots (truthfulApfs c) s b s') : ∃ a', Fakefs.Boots a b.kind a' ∧ s'.Shows a' :=
    boots_simulated hs h
  exact IsRun.simulated hstep hs hrun

/-- Without a revert what is there stays, and no set-up comes to its end. -/
theorem boots_of_not_reverts {s s' : Storage} {b : Boot} (ha : a ≠ .absent) (hs : s.Shows a)
    (hreverts : reverts b.pinfo.flags = false) (h : boots (truthfulApfs c) s b s') :
    (b.ended = true → b.pinfo.flags.has palerainOptionSetupRootful = false) ∧ s'.Shows a := by
  obtain ⟨a', ⟨a₁, hfirst, hsecond⟩, hs'⟩ := boots_simulated hs h
  have hsame : a₁ = a := by
    rcases hfirst with ⟨hsame, -⟩ | ⟨h, -⟩
    · exact hsame
    · exact absurd (hreverts.symm.trans h) (Bool.noConfusion ·)
  subst hsame
  rcases hsecond with ⟨rfl, hended⟩ | ⟨-, habsent, -⟩
  · exact ⟨hended, hs'⟩
  · exact absurd habsent ha

/-- **An interrupted set-up**: what a set-up has left, finished or not, stays in every sequence of
boots that do not revert, and none of their set-ups comes to its end. -/
theorem boots_stay {s : Storage} {run : List (Boot × Storage)} (ha : a ≠ .absent) (hs : s.Shows a)
    (hrun : IsRun (boots (truthfulApfs c)) s run)
    (hreverts : Meets (fun _ b => reverts b.pinfo.flags = false) s run) :
    (∀ p ∈ run, p.1.ended = true → p.1.pinfo.flags.has palerainOptionSetupRootful = false) ∧
      ∀ p ∈ run, p.2.Shows a := by
  have hstep (s : Storage) (b : Boot) (s' : Storage) (hs : s.Shows a)
      (hreverts : reverts b.pinfo.flags = false) (h : boots (truthfulApfs c) s b s') :
      (b.ended = true → b.pinfo.flags.has palerainOptionSetupRootful = false) ∧ s'.Shows a :=
    boots_of_not_reverts ha hs hreverts h
  constructor
  · exact hrun.labels hstep hs hreverts
  · exact hrun.invariant (fun s b s' hs h hboots => (hstep s b s' hs h hboots).2) hs hreverts

end Parts

/-- The search lists the fakefs. -/
def revertTrace : List Ev :=
  [⟨.getenv "JB_HAS_VERBOSE_BOOT".toList, some ['1']⟩, ⟨.jailbreakGetPlatform, (2 : ℤ)⟩,
    ⟨.statfs, some disk0s1Statfs⟩,
    ⟨.apfsVolumeRoleFind "disk0s1".toList apfsVolRoleRecovery, (0, ["/dev/disk0s1s8".toList])⟩,
    ⟨.cfStringGetCString "/dev/disk0s1s8".toList 32, "/dev/disk0s1s8".toList⟩,
    ⟨.apfsVolumeRole "/dev/disk0s1s8".toList, some apfsVolRoleRecovery⟩,
    ⟨.apfsVolumeDelete "disk0s1s8".toList, (0 : ℤ)⟩,
    ⟨.ioRegistryEntrySetCFProperty kIONVRAMDeletePropertyKey p1FakefsRootdev, (0 : ℤ)⟩,
    ⟨.ioRegistryEntrySetCFProperty kIONVRAMForceSyncNowPropertyKey kIONVRAMDeletePropertyKey,
      (0 : ℤ)⟩,
    ⟨.dlopen "/cores/binpack/usr/lib/libellekit.dylib".toList, true⟩]

def revertBoot : Boot := ⟨payloadOptionUserspaceRebooted, revertPinfo, revertTrace, true⟩

theorem revertBoot_does : revertBoot.Does :=
  .call _ (.call _ (.call _ (.call _ (.call _ (.call _ (.call _ (.call _ (.call _
    (.call _ (.done _))))))))))

/-- What the revert leaves. -/
def revertedStorage : Storage := { rootfulStorage.set fakefsIndex none with rootdev := none }

theorem recovery_rootfulStorage_iff (n : FsIndex) :
    rootfulStorage.Recovery n ↔ n = fakefsIndex := by
  constructor
  · rintro ⟨v, hv, hrole⟩
    by_contra hne
    by_cases hn : n = systemIndex
    · subst hn
      obtain rfl := Option.some.inj hv
      exact absurd hrole (by decide)
    · simp [rootfulStorage, hn, hne] at hv
  · rintro rfl
    exact ⟨_, fakefs_volume, rfl⟩

theorem shows_rootfulStorage : rootfulStorage.Shows .finished :=
  ⟨fakefsIndex, _, ⟨fakefs_volume, rfl, fun m hm => (recovery_rootfulStorage_iff m).mp hm⟩, rfl,
    rfl⟩

theorem fakefs_listed (path : CStr) : path ∈ ["/dev/disk0s1s8".toList] ↔
    ∃ n, rootfulStorage.Recovery n ∧ path = disk0s1.device n := by
  have hpath : disk0s1.device fakefsIndex = "/dev/disk0s1s8".toList := by decide
  rw [List.mem_singleton, ← hpath]
  constructor
  · rintro rfl
    exact ⟨fakefsIndex, (recovery_rootfulStorage_iff _).mpr rfl, rfl⟩
  · rintro ⟨n, hn, rfl⟩
    rw [(recovery_rootfulStorage_iff n).mp hn]

theorem revertBoot_steps : Steps (truthfulApfs disk0s1) { rootfulStorage with fake := none }
    revertTrace revertedStorage := by
  have hset : revertedStorage = (rootfulStorage.set fakefsIndex none).setProperty
      kIONVRAMDeletePropertyKey p1FakefsRootdev := by
    rw [Storage.setProperty, if_neg (by decide), if_pos (by decide)]
    rfl
  have hsync : revertedStorage = revertedStorage.setProperty
      kIONVRAMForceSyncNowPropertyKey kIONVRAMDeletePropertyKey := by
    rw [Storage.setProperty, if_neg (by decide), if_neg (by decide)]
  refine ⟨_, ⟨rfl, trivial⟩, _, ⟨rfl, trivial⟩, _, ⟨⟨rfl, fun st hst _ => ?_⟩, trivial⟩, _,
    ⟨rfl, fun _ _ => ⟨fun _ => fakefs_listed, fun h => absurd h (by decide)⟩⟩, _,
    ⟨⟨rfl, fun _ => rfl⟩, trivial⟩, _, ⟨⟨rfl, fun r hr => ?_⟩, trivial⟩, _,
    ⟨.inl ⟨fakefsIndex, .inl (by decide), rfl⟩, trivial⟩, revertedStorage, ⟨.inl hset, trivial⟩,
    revertedStorage, ⟨.inl hsync, trivial⟩, _, ⟨rfl, trivial⟩, rfl⟩
  · obtain rfl := Option.some.inj hst
    exact mntfromname_disk0s1Statfs
  · refine ⟨fakefsIndex, _, .inr (by decide), fakefs_volume, ?_⟩
    exact Option.some.inj hr

theorem boots_simulate_revert : ∃ run', IsRun Fakefs.Boots .finished run' ∧
    List.Forall₂ (fun p q => q.1 = p.1.kind ∧ p.2.Shows q.2) [(revertBoot, revertedStorage)]
      run' := by
  have hrun : IsRun (boots (truthfulApfs disk0s1)) rootfulStorage
      [(revertBoot, revertedStorage)] := ⟨⟨revertBoot_does, revertBoot_steps⟩, trivial⟩
  exact boots_simulate shows_rootfulStorage hrun

/-- A set-up where a fakefs is there: `fakefs already exists`. -/
def setupTrace : List Ev :=
  [⟨.getenv "JB_HAS_VERBOSE_BOOT".toList, some ['1']⟩, ⟨.jailbreakGetPlatform, (2 : ℤ)⟩,
    ⟨.dlopen "/cores/binpack/usr/lib/libellekit.dylib".toList, true⟩,
    ⟨.runCommand ["/sbin/fsck".toList, "-qL".toList], (0 : ℤ)⟩,
    ⟨.runCommand ["/sbin/mount".toList, "-P".toList, "1".toList], (0 : ℤ)⟩,
    ⟨.runCommand ["/usr/libexec/init_data_protection".toList], (0 : ℤ)⟩,
    ⟨.runCommand ["/sbin/mount".toList, "-P".toList, "2".toList], (0 : ℤ)⟩,
    ⟨.statfs, some disk0s1Statfs⟩, ⟨.statfs, some disk0s1Statfs⟩,
    ⟨.apfsVolumeRoleFind "disk0s1".toList apfsVolRoleRecovery, (0, ["/dev/disk0s1s8".toList])⟩]

def setupPinfo : Paleinfo where
  kbase := 0
  kslide := 0
  flags := palerainOptionRootful ||| palerainOptionSetupRootful
  rootdev := "disk0s1s8".toList

def setupBoot : Boot := ⟨payloadOptionUserspaceRebooted, setupPinfo, setupTrace, false⟩

theorem setupBoot_does : setupBoot.Does :=
  .call _ (.call _ (.call _ (.call _ (.call _ (.call _ (.call _ (.call _ (.call _
    (.call _ (.stop _))))))))))

theorem grows_refl (s : Storage) : s.Grows s := ⟨fun _ _ h => h, fun _ _ h => .inl h, rfl⟩

theorem setupBoot_steps :
    Steps (truthfulApfs disk0s1) { rootfulStorage with fake := none } setupTrace rootfulStorage := by
  have hroot (st : RootStatfs) (hst : some disk0s1Statfs = some st) (_ : st.fstypename = apfsFstype) :
      ∃ source : MountSource, ∃ n, st.mntfromname = source.mntfromname (disk0s1.volume n) := by
    obtain rfl := Option.some.inj hst
    exact mntfromname_disk0s1Statfs
  exact ⟨_, ⟨rfl, trivial⟩, _, ⟨rfl, trivial⟩, _, ⟨rfl, trivial⟩, _, ⟨grows_refl _, trivial⟩, _,
    ⟨grows_refl _, trivial⟩, _, ⟨grows_refl _, trivial⟩, _, ⟨grows_refl _, trivial⟩, _,
    ⟨⟨rfl, hroot⟩, trivial⟩, _, ⟨⟨rfl, hroot⟩, trivial⟩, _,
    ⟨rfl, fun _ _ => ⟨fun _ => fakefs_listed, fun h => absurd h (by decide)⟩⟩, rfl⟩

theorem boots_stay_setup :
    (∀ p ∈ [(setupBoot, rootfulStorage)], p.1.ended = true →
      p.1.pinfo.flags.has palerainOptionSetupRootful = false) ∧
      ∀ p ∈ [(setupBoot, rootfulStorage)], p.2.Shows .finished := by
  have hrun : IsRun (boots (truthfulApfs disk0s1)) rootfulStorage [(setupBoot, rootfulStorage)] :=
    ⟨⟨setupBoot_does, setupBoot_steps⟩, trivial⟩
  have hreverts : reverts setupPinfo.flags = false := by decide
  exact boots_stay (Fakefs.noConfusion ·) shows_rootfulStorage hrun ⟨hreverts, trivial⟩

end Jbinit.Loader
