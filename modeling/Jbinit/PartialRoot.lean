import Jbinit.Foundations.FileTree
import Jbinit.Palera1nd.Sys

/-!
# The partial root

`setup_fakefs` can leave directories out of the copy of the root, for `prepare_rootfs` to bind them
from the original at every boot. The directory to bind onto is to be made during the copy, but the
callback looks for it in the original. So no skipped directory is there at boot, and the boot panics
at the first bind, whatever the two lists of directories are: the copy and the binds cover the root
exactly when nothing is skipped and nothing is bound (`covers_iff`).

`copyfile` makes nothing for an entry that the callback skips, and does not go into it. The mounts
of `/cores` and of the original volume are there; a bind mount needs a directory on both sides.
-/

namespace Jbinit.PartialRoot

open Foundations FileTree Delimited Palera1nd

def palerainOptionSetupPartialRoot : Flags := 1#64 <<< 4

def platformIos : ℕ := 2

/-! ## The system -/

/-- Whether a path leads to something. -/
def stat (tree : Tree) (path : CStr) : Bool :=
  match tree.resolve path with
  | .found _ => true
  | _ => false

def directoryAt (tree : Tree) (path : CStr) : Option {l // tree.node l = some .directory} :=
  match tree.resolve path with
  | .found l => if h : tree.node l = some .directory then some ⟨l, h⟩ else none
  | _ => none

/-- The directories that `init_cores` makes. -/
def initCores : Tree := .ofEntries
  [(["usr".toList], .directory), (["usr".toList, "lib".toList], .directory),
    (["binpack".toList], .directory), (["fs".toList], .directory),
    (["fs".toList, "real".toList], .directory), (["fs".toList, "fake".toList], .directory)]
  (by decide +kernel) (by decide +kernel)

def withCores (root : Tree) : Tree := root.graft ["cores".toList] initCores

def realfs : CStr := "/cores/fs/real".toList

/-- `real` is mounted at `/cores/fs/real`. -/
def withReal (root real : Tree) : Tree :=
  (withCores root).graft ["cores".toList, "fs".toList, "real".toList] real

/-! ## `setup_fakefs` -/

inductive CopyfileWhat
  | progress
  | recurseError
  | recurseDirCleanup
  | recurseFile
  | recurseDir
  deriving DecidableEq, Repr

inductive CopyfileResult
  | continue
  | skip
  deriving DecidableEq, Repr

def fseventsd : Name := ".fseventsd".toList

def skippedPaths (platform : ℕ) (volumePrefix : CStr) : List String :=
  if platform = platformIos then
    ["/cores/fs/real/./System/Library/Frameworks",
      "/cores/fs/real/./System/Library/AccessibilityBundles",
      "/cores/fs/real/./System/Library/Assistant",
      "/cores/fs/real/./System/Library/Audio",
      "/cores/fs/real/./System/Library/Fonts",
      "/cores/fs/real/./System/Library/Health",
      "/cores/fs/real/./System/Library/LinguisticData",
      "/cores/fs/real/./System/Library/OnBoardingBundles",
      "/cores/fs/real/./System/Library/Photos",
      "/cores/fs/real/./System/Library/PreferenceBundles",
      "/cores/fs/real/./System/Library/PreinstalledAssetsV2",
      "/cores/fs/real/./usr/standalone/update"] ++
    if volumePrefix = "disk0s1s".toList then
      ["/cores/fs/real/./System/Library/PrivateFrameworks",
        "/cores/fs/real/./System/Library/Caches"]
    else []
  else ["/cores/fs/real/./System", "/cores/fs/real/./usr/standalone/update"]

/-- The callback, with the path at which it makes a directory. -/
def copyfileFakefsCb (what : CopyfileWhat) (flags : Flags) (platform : ℕ) (volumePrefix : CStr)
    (access : CStr → Bool) (src : CStr) : Option CStr × CopyfileResult :=
  match what with
  | .progress | .recurseError | .recurseDirCleanup => (none, .continue)
  | .recurseFile | .recurseDir =>
    if CStr.basenameR src = fseventsd then (none, .skip)
    else if flags.has palerainOptionSetupPartialRoot then
      if src ∈ (skippedPaths platform volumePrefix).map String.toList then
        (if access src then none else some src, .skip)
      else (none, .continue)
    else (none, .continue)

/-- The path of an entry of the original, as `copyfile` walks it. -/
def srcPath (l : Location) : CStr := realfs ++ "/.".toList ++ l.flatMap fun n => '/' :: n

structure Setup where
  flags : Flags
  platform : ℕ
  volumePrefix : CStr
  source : Tree

namespace Setup

variable (s : Setup)

/-- The root itself is bound at `/cores/fs/real`. -/
def access (path : CStr) : Bool := stat (withReal s.source s.source) path

def callback (l : Location) : Option CStr × CopyfileResult :=
  copyfileFakefsCb (if s.source.node l = some .directory then .recurseDir else .recurseFile)
    s.flags s.platform s.volumePrefix s.access (srcPath l)

def keeps (l : Location) : Bool := (s.callback l).2 == .continue

def fakefs : Tree := s.source.restrict s.keeps

/-- `copyfile` comes to the entry. -/
structure Visits (l : Location) : Prop where
  present : (s.source.node l).isSome = true
  above : kept s.keeps l.dropLast = true

/-- The copy is made: nothing is to be made where an entry of the original is, which fails. -/
def Completes : Prop := ∀ l, s.Visits l → (s.callback l).1 = none

end Setup

/-! ## `prepare_rootfs` -/

/-- The root without `/cores`, and the paths that are bound. -/
structure Root where
  view : Tree
  bound : List CStr

/-- A missing directory is only logged, before the mount fails. -/
def fbi (real : Tree) (root : Root) (mnt : String) : Option Root := do
  let seen := withReal root.view real
  let m ← directoryAt seen mnt.toList
  let dir ← directoryAt seen ("/cores/fs/real" ++ mnt).toList
  return ⟨root.view.graft m.1 (seen.below dir.1 dir.2), root.bound ++ [mnt.toList]⟩

def boundPaths (platform darwinMajor : ℕ) : List String :=
  "/usr/standalone/update" ::
    if platform = platformIos then
      ["/System/Library/AccessibilityBundles", "/System/Library/Assistant",
        "/System/Library/Audio", "/System/Library/Fonts", "/System/Library/Frameworks",
        "/System/Library/Health", "/System/Library/LinguisticData",
        "/System/Library/OnBoardingBundles", "/System/Library/Photos",
        "/System/Library/PreferenceBundles", "/System/Library/PreinstalledAssetsV2"] ++
      if darwinMajor < 22 then ["/System/Library/PrivateFrameworks", "/System/Library/Caches"]
      else []
    else ["/System"]

def ioKit : CStr := "/System/Library/Frameworks/IOKit.framework".toList

structure Boot where
  flags : Flags
  darwinMajor : ℕ

/-- `none` is a panic. -/
def prepareRootfs (b : Boot) (platform : ℕ) (real root : Tree) : Option Root :=
  if stat (withCores root) ioKit then some ⟨root, []⟩
  else if !b.flags.has palerainOptionSsv then some ⟨root, []⟩
  else (boundPaths platform b.darwinMajor).foldlM (fbi real) ⟨root, []⟩

/-! ## The property -/

/-- A directory of the lists is left out. -/
structure Setup.SkipsDirectory (s : Setup) (l : Location) : Prop where
  visits : s.Visits l
  directory : s.source.node l = some .directory
  skipped : s.keeps l = false
  listed : l.getLast? ≠ some fseventsd

/-- What has to hold of the root after the boot. -/
structure Covered (s : Setup) (root : Root) : Prop where
  reachable : ∀ l node, s.source.node l = some node → node ≠ .directory → fseventsd ∉ l →
    root.view.node l = some node
  directories : ∀ path, path ∈ root.bound ↔ ∃ l, s.SkipsDirectory l ∧ text l = path
  mountPoints : ∀ path ∈ root.bound, (directoryAt s.fakefs path).isSome = true

/-- The copy and the mounts cover the root. -/
def Covers (s : Setup) (b : Boot) : Prop :=
  s.Completes → ∃ root, prepareRootfs b s.platform s.source s.fakefs = some root ∧ Covered s root

/-- None of the paths is in the original. -/
def NothingListed (s : Setup) : Prop :=
  ∀ l, (s.source.node l).isSome = true →
    srcPath l ∉ (skippedPaths s.platform s.volumePrefix).map String.toList

/-- The root without `.fseventsd`. -/
def withoutEvents (source : Tree) : Tree := source.restrict fun l => l.getLast? != some fseventsd

/-- The boot comes to no mount. -/
def BindsNothing (s : Setup) (b : Boot) : Prop :=
  b.flags.has palerainOptionSsv = false ∨ stat (withCores (withoutEvents s.source)) ioKit = true

/-! ## The callback -/

section

variable {s : Setup} {b : Boot} {l : Location}

theorem srcPath_eq (l : Location) :
    srcPath l = text (["cores".toList, "fs".toList, "real".toList, dot] ++ l) := by
  rw [text_append (by simp)]
  rfl

theorem components_srcPath (h : ∀ n ∈ l, IsName n) :
    components '/' (srcPath l) = ["cores".toList, "fs".toList, "real".toList, dot] ++ l := by
  have hreal : ∀ n ∈ ["cores".toList, "fs".toList, "real".toList, dot], IsComponent '/' n := by
    decide +kernel
  rw [srcPath_eq, components_text]
  intro n hn
  rcases List.mem_append.mp hn with hn | hn
  · exact hreal n hn
  · exact (h n hn).component

theorem basenameR_srcPath (h : ∀ n ∈ l, IsName n) :
    CStr.basenameR (srcPath l) = l.getLast?.getD dot := by
  have hne : srcPath l ≠ [] := by
    rw [srcPath_eq]
    exact List.cons_ne_nil _ _
  rw [CStr.basenameR, if_neg hne, components_srcPath h, List.getLast?_append]
  cases l.getLast? <;> rfl

theorem components_of_listed {platform : ℕ} {volumePrefix path : CStr}
    (h : path ∈ (skippedPaths platform volumePrefix).map String.toList) :
    fseventsd ∉ components '/' path ∧ path ≠ srcPath [] := by
  revert path
  unfold skippedPaths fseventsd
  -- The literals are rewritten, since the kernel is slow at decoding them.
  split
  · split
    · simp only [List.map_cons, List.map_nil, List.cons_append, List.nil_append]
      repeat rw [String.toList_ofList]
      decide +kernel
    · simp only [List.map_cons, List.map_nil, List.append_nil]
      repeat rw [String.toList_ofList]
      decide +kernel
  · simp only [List.map_cons, List.map_nil]
    repeat rw [String.toList_ofList]
    decide +kernel

theorem not_mem_of_listed (h : ∀ n ∈ l, IsName n)
    (hlisted : srcPath l ∈ (skippedPaths s.platform s.volumePrefix).map String.toList) :
    fseventsd ∉ l ∧ l ≠ [] := by
  obtain ⟨hmem, hne⟩ := components_of_listed hlisted
  rw [components_srcPath h] at hmem
  exact ⟨fun hl => hmem (List.mem_append_right _ hl), fun hl => hne (by rw [hl])⟩

theorem callback_eq (hoption : s.flags.has palerainOptionSetupPartialRoot = true) (l : Location) :
    s.callback l =
      if CStr.basenameR (srcPath l) = fseventsd then (none, .skip)
      else if srcPath l ∈ (skippedPaths s.platform s.volumePrefix).map String.toList then
        (if s.access (srcPath l) then none else some (srcPath l), .skip)
      else (none, .continue) := by
  unfold Setup.callback copyfileFakefsCb
  rw [if_pos hoption]
  split <;> rename_i hwhat
  all_goals first | rfl | (split at hwhat <;> cases hwhat)

/-- What the callback keeps: what has another name, and is not listed. -/
theorem keeps_iff (hoption : s.flags.has palerainOptionSetupPartialRoot = true)
    (h : ∀ n ∈ l, IsName n) : s.keeps l = true ↔ l.getLast? ≠ some fseventsd ∧
      srcPath l ∉ (skippedPaths s.platform s.volumePrefix).map String.toList := by
  have hbasename : CStr.basenameR (srcPath l) = fseventsd ↔ l.getLast? = some fseventsd := by
    rw [basenameR_srcPath h]
    cases l.getLast? with
    | none => decide
    | some n => simp
  rw [Setup.keeps, callback_eq hoption]
  by_cases hlast : l.getLast? = some fseventsd
  · rw [if_pos (hbasename.mpr hlast)]
    exact iff_of_false (by decide) fun hkept => hkept.1 hlast
  rw [if_neg (mt hbasename.mp hlast)]
  split
  case isTrue hlisted => exact iff_of_false (by simp) fun hkept => hkept.2 hlisted
  case isFalse hlisted => exact iff_of_true rfl ⟨hlast, hlisted⟩

/-! ## The copy -/

theorem kept_withoutEvents (h : fseventsd ∉ l) :
    kept (fun l => l.getLast? != some fseventsd) l = true := by
  induction l using List.reverseRecOn with
  | nil => rfl
  | append_singleton l n ih =>
    obtain ⟨hl, hn⟩ := not_or.mp (mt List.mem_append.mpr h)
    rw [kept_concat, ih hl]
    simpa using fun heq : n = fseventsd => hn (by simp [heq])

/-- When nothing is listed, all is copied. -/
theorem fakefs_eq (hoption : s.flags.has palerainOptionSetupPartialRoot = true)
    (hnothing : NothingListed s) : s.fakefs = withoutEvents s.source := by
  ext l
  cases hl : s.source.node l with
  | none => simp [Setup.fakefs, withoutEvents, Tree.restrict_node, hl]
  | some node =>
    have hpresent : (s.source.node l).isSome = true := by simp [hl]
    have hkept : kept s.keeps l = kept (fun l => l.getLast? != some fseventsd) l := by
      refine kept_congr fun p hp => ?_
      have hp := s.source.present_of_prefix hp hpresent
      have hkeeps := keeps_iff hoption (s.source.isName hp)
      rw [Bool.eq_iff_iff, hkeeps]
      simp only [bne_iff_ne]
      exact and_iff_left (hnothing p hp)
    rw [Setup.fakefs, withoutEvents, Tree.restrict_node, Tree.restrict_node, hkept]

/-- A path of the lists that is in the original is skipped, or is below one that is. -/
theorem exists_skipped (hoption : s.flags.has palerainOptionSetupPartialRoot = true)
    (hl : (s.source.node l).isSome = true)
    (hlisted : srcPath l ∈ (skippedPaths s.platform s.volumePrefix).map String.toList) :
    ∃ p, s.Visits p ∧ s.keeps p = false ∧ fseventsd ∉ p := by
  have hnames := s.source.isName hl
  obtain ⟨hevents, hne⟩ := not_mem_of_listed hnames hlisted
  have hkeeps : s.keeps l = false :=
    Bool.eq_false_iff.mpr fun hkeeps => ((keeps_iff hoption hnames).mp hkeeps).2 hlisted
  have hnotKept : kept s.keeps l = false := by
    rw [← List.dropLast_append_getLast hne] at hkeeps ⊢
    rw [kept_concat, hkeeps, Bool.and_false]
  obtain ⟨p, n, hpre, hp, hn⟩ := exists_first_of_not_kept hnotKept
  refine ⟨p ++ [n], ⟨s.source.present_of_prefix hpre hl, ?_⟩, hn, fun hmem => ?_⟩
  · rwa [List.dropLast_concat]
  · exact hevents (hpre.subset hmem)

/-! ## The boot -/

theorem bound_of_fbi {real : Tree} {root root' : Root} {mnt : String}
    (h : fbi real root mnt = some root') : root'.bound = root.bound ++ [mnt.toList] := by
  simp only [fbi, Option.bind_eq_bind, Option.bind_eq_some_iff, Option.pure_def] at h
  obtain ⟨m, -, dir, -, heq⟩ := h
  rw [← Option.some.inj heq]

theorem bound_of_foldlM {real : Tree} {paths : List String} {root root' : Root}
    (h : paths.foldlM (fbi real) root = some root') :
    root'.bound = root.bound ++ paths.map String.toList := by
  induction paths generalizing root with
  | nil =>
    obtain rfl : root = root' := Option.some.inj h
    simp
  | cons mnt paths ih =>
    rw [List.foldlM_cons] at h
    obtain ⟨root₁, hfbi, hrest⟩ := Option.bind_eq_some_iff.mp h
    rw [ih hrest, bound_of_fbi hfbi]
    simp

theorem withReal_node {root real : Tree} (h : ¬["cores".toList] <+: l) :
    (withReal root real).node l = root.node l := by
  have hreal : ¬["cores".toList, "fs".toList, "real".toList] <+: l := fun hpre =>
    h (List.IsPrefix.trans (by simp) hpre)
  rw [withReal, Tree.graft_node_of_not_prefix _ hreal, withCores,
    Tree.graft_node_of_not_prefix _ h]

/-- Where the copy has left a directory out, nothing can be mounted. -/
theorem fbi_eq_none {real : Tree} {mnt : String} {n : Name} (hskipped : s.SkipsDirectory (l ++ [n]))
    (htext : text (l ++ [n]) = mnt.toList) (hcores : ¬["cores".toList] <+: l ++ [n]) :
    fbi real ⟨s.fakefs, []⟩ mnt = none := by
  have hl : ¬["cores".toList] <+: l := fun h => hcores (h.trans (List.prefix_append l [n]))
  have hpresent := hskipped.visits.present
  have habove : kept s.keeps l = true := by
    have habove := hskipped.visits.above
    rwa [List.dropLast_concat] at habove
  have hdirectory : (withReal s.fakefs real).node l = some .directory := by
    rw [withReal_node hl, Setup.fakefs, Tree.restrict_node, if_pos habove]
    exact s.source.parent l n hpresent
  have hmissing : (withReal s.fakefs real).node (l ++ [n]) = none := by
    rw [withReal_node hcores, Setup.fakefs, Tree.restrict_node, kept_concat, hskipped.skipped]
    simp
  have hentry : Entry (withReal s.fakefs real) (l ++ [n]) :=
    .concat (canonical_of_directory hdirectory) (s.source.names l n hpresent)
  have hnot : directoryAt (withReal s.fakefs real) mnt.toList = none := by
    rw [directoryAt, ← htext, resolve_text_missing hentry hmissing]
  rw [fbi, hnot]
  rfl

/-- When something is mounted, the directories that are bound are not those that were skipped. -/
theorem not_covered_of_mounts {real : Tree} {platform darwinMajor : ℕ} {root : Root}
    (h : (boundPaths platform darwinMajor).foldlM (fbi real) ⟨s.fakefs, []⟩ = some root) :
    ¬Covered s root := by
  intro hcovered
  have hbound : "/usr/standalone/update".toList ∈ root.bound := by
    rw [bound_of_foldlM h]
    exact List.mem_cons_self
  obtain ⟨l, hskipped, htext⟩ := (hcovered.directories _).mp hbound
  obtain rfl : l = ["usr".toList, "standalone".toList] ++ ["update".toList] := by
    rw [← components_text_names (s.source.isName hskipped.visits.present), htext]
    decide +kernel
  rw [boundPaths, List.foldlM_cons, fbi_eq_none hskipped htext (by decide)] at h
  cases h

theorem prepareRootfs_early {real : Tree} {platform : ℕ} {root : Root}
    (h : prepareRootfs b platform real s.fakefs = some root) (hcovered : Covered s root) :
    (b.flags.has palerainOptionSsv = false ∨ stat (withCores s.fakefs) ioKit = true) ∧
      root = ⟨s.fakefs, []⟩ := by
  unfold prepareRootfs at h
  split at h
  case isTrue hstat => exact ⟨.inr hstat, (Option.some.inj h).symm⟩
  case isFalse =>
    split at h
    case isTrue hssv => exact ⟨.inl (by simpa using hssv), (Option.some.inj h).symm⟩
    case isFalse => exact absurd hcovered (not_covered_of_mounts h)

/-- What is left out and not bound is missing. -/
theorem nothingListed_of_covered (hoption : s.flags.has palerainOptionSetupPartialRoot = true)
    (hcovered : Covered s ⟨s.fakefs, []⟩) : NothingListed s := by
  intro l hl hlisted
  obtain ⟨p, hvisits, hskipped, hevents⟩ := exists_skipped hoption hl hlisted
  obtain ⟨node, hnode⟩ := Option.isSome_iff_exists.mp hvisits.present
  by_cases hdirectory : node = .directory
  · have hlast : p.getLast? ≠ some fseventsd := fun h => hevents (List.mem_of_getLast? h)
    have hbound := (hcovered.directories (text p)).mpr
      ⟨p, ⟨hvisits, by rw [hnode, hdirectory], hskipped, hlast⟩, rfl⟩
    exact List.not_mem_nil hbound
  · have hreach := hcovered.reachable p node hnode hdirectory hevents
    have hne : p ≠ [] := by
      rintro rfl
      exact hdirectory (Option.some.inj (hnode.symm.trans s.source.root))
    rw [← List.dropLast_append_getLast hne] at hreach hskipped
    rw [Setup.fakefs, Tree.restrict_node, kept_concat, hskipped] at hreach
    simp at hreach

theorem covered_of_nothingListed (hoption : s.flags.has palerainOptionSetupPartialRoot = true)
    (hnothing : NothingListed s) : Covered s ⟨s.fakefs, []⟩ where
  reachable l node hnode _ hevents := by
    have hkept := kept_withoutEvents hevents
    simp [fakefs_eq hoption hnothing, withoutEvents, Tree.restrict_node, hkept, hnode]
  directories path := by
    refine iff_of_false List.not_mem_nil ?_
    rintro ⟨l, hskipped, -⟩
    have hpresent := hskipped.visits.present
    have hkeeps := (keeps_iff hoption (s.source.isName hpresent)).mpr
      ⟨hskipped.listed, hnothing l hpresent⟩
    exact absurd (hkeeps.symm.trans hskipped.skipped) (by simp)
  mountPoints := by simp

end

/-- The copy is made when every path of the lists that is in the original leads to something. -/
theorem completes_of_access {s : Setup}
    (hoption : s.flags.has palerainOptionSetupPartialRoot = true)
    (h : ∀ l, (s.source.node l).isSome = true →
      srcPath l ∈ (skippedPaths s.platform s.volumePrefix).map String.toList →
      s.access (srcPath l) = true) : s.Completes := by
  intro l hl
  rw [callback_eq hoption]
  split
  · rfl
  split
  case isTrue hlisted => rw [if_pos (h l hl.present hlisted)]
  case isFalse => rfl

/-- The two lists are of the same directories when the two conditions agree. -/
theorem skippedPaths_perm_iff (platform darwinMajor : ℕ) (volumePrefix : CStr) :
    (skippedPaths platform volumePrefix).Perm
        ((boundPaths platform darwinMajor).map ("/cores/fs/real/." ++ ·)) ↔
      (platform = platformIos → (volumePrefix = "disk0s1s".toList ↔ darwinMajor < 22)) := by
  unfold skippedPaths boundPaths
  by_cases hplatform : platform = platformIos
  · by_cases hpre : volumePrefix = "disk0s1s".toList <;>
      by_cases hdarwin : darwinMajor < 22 <;>
      simp only [hplatform, hpre, hdarwin, if_true, if_false, true_imp_iff] <;>
      decide +kernel
  · simp only [hplatform, if_false, false_imp_iff]
    decide +kernel

def plainEntries : List (Location × Node) :=
  [(["cores".toList], .directory), (["bin".toList], .directory),
    (["bin".toList, "ps".toList], .file)]

def plainSetup : Setup where
  flags := palerainOptionSetupPartialRoot
  platform := platformIos
  volumePrefix := "disk0s1s".toList
  source := .ofEntries plainEntries (by decide +kernel) (by decide +kernel)

/-- **When the partial root is covered**: when the original has none of the directories that are to
be left out, and the boot binds none. -/
theorem covers_iff (s : Setup) (b : Boot)
    (hoption : s.flags.has palerainOptionSetupPartialRoot = true) (hcompletes : s.Completes) :
    Covers s b ↔ NothingListed s ∧ BindsNothing s b := by
  constructor
  · intro hcovers
    obtain ⟨root, hroot, hcovered⟩ := hcovers hcompletes
    obtain ⟨hearly, rfl⟩ := prepareRootfs_early hroot hcovered
    have hnothing := nothingListed_of_covered hoption hcovered
    rw [fakefs_eq hoption hnothing] at hearly
    exact ⟨hnothing, hearly⟩
  · rintro ⟨hnothing, hbinds⟩ -
    refine ⟨⟨s.fakefs, []⟩, ?_, covered_of_nothingListed hoption hnothing⟩
    rcases hbinds with hssv | hstat
    · simp [prepareRootfs, hssv]
    · rw [prepareRootfs, fakefs_eq hoption hnothing, if_pos hstat]

theorem nothingListed_plain : NothingListed plainSetup := by
  have hlisted : ∀ l ∈ [] :: plainEntries.map Prod.fst,
      srcPath l ∉ (skippedPaths platformIos "disk0s1s".toList).map String.toList := by
    unfold plainEntries skippedPaths
    rw [if_pos rfl, if_pos rfl]
    simp only [List.map_cons, List.map_nil, List.cons_append, List.nil_append]
    repeat rw [String.toList_ofList]
    decide +kernel
  exact fun l hl => hlisted l (mem_of_ofEntries hl)

/-- A root with nothing to leave out, at boots that bind nothing. -/
theorem covers_plain : Covers plainSetup ⟨palerainOptionRootful, 21⟩ :=
  (covers_iff _ _ (by decide)
    (completes_of_access (by decide) fun l hl hmem => absurd hmem (nothingListed_plain l hl))).mpr
    ⟨nothingListed_plain, .inl (by decide)⟩

/-! ## A system with all the directories -/

def iosEntries : List (Location × Node) :=
  [(["cores".toList], .directory), (["usr".toList], .directory),
    (["usr".toList, "standalone".toList], .directory), (["System".toList], .directory),
    (["System".toList, "Library".toList], .directory)] ++
  (boundPaths platformIos 21).map (fun path => (components '/' path.toList, .directory)) ++
  [(["System".toList, "Library".toList, "Fonts".toList, "Core.ttc".toList], .file)]

def iosSetup : Setup where
  flags := palerainOptionSetupPartialRoot
  platform := platformIos
  volumePrefix := "disk0s1s".toList
  source := .ofEntries iosEntries (by decide +kernel) (by decide +kernel)

/-- The copy is made, and the boot panics. -/
theorem not_covers_ios :
    iosSetup.flags.has palerainOptionSetupPartialRoot = true ∧ iosSetup.Completes ∧
      prepareRootfs ⟨palerainOptionSsv, 21⟩ platformIos iosSetup.source iosSetup.fakefs = none ∧
      ¬Covers iosSetup ⟨palerainOptionSsv, 21⟩ := by
  have haccess : ∀ l ∈ [] :: iosEntries.map Prod.fst, iosSetup.access (srcPath l) = true := by
    unfold iosEntries
    decide +kernel
  have hcompletes : iosSetup.Completes :=
    completes_of_access (by decide) fun l hl _ => haccess l (mem_of_ofEntries hl)
  have hpanics : prepareRootfs ⟨palerainOptionSsv, 21⟩ platformIos iosSetup.source
      iosSetup.fakefs = none := Option.isNone_iff_eq_none.mp (by decide +kernel)
  refine ⟨by decide, hcompletes, hpanics, fun hcovers => ?_⟩
  obtain ⟨root, hroot, -⟩ := hcovers hcompletes
  exact absurd (hpanics.symm.trans hroot) (by simp)

end Jbinit.PartialRoot
