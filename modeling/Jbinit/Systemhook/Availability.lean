import Mathlib.Algebra.Group.Nat.Defs
import Mathlib.Data.List.Basic
import Mathlib.Tactic.Common

/-!
# The availability check

`_availability_version_check_hook` of systemhook's `main.c` rewrites each requirement for a foreign
platform to one for the running platform, in the array of the caller, and asks the original about
the array. Requirements of one release generation become the same version (`hook_generation`). The
original decides by the first entry for the running platform, which is then the first of the array
(`hook_eq_original_iff`), with the version that `countsAs` reads off its ranges.

Versions have a major number of 16 bits and two numbers of 8 bits.
-/

namespace Jbinit.Systemhook

/-! ## The hook -/

inductive Platform
  | macos
  | ios
  | tvos
  | watchos
  | bridgeos
  | maccatalyst
  | iossimulator
  | tvossimulator
  | watchossimulator
  | visionos
  | visionossimulator
  | other (number : ℕ)
  deriving DecidableEq

structure DyldBuildVersion where
  platform : Platform
  version : ℕ
  deriving DecidableEq

/-- `CONSTRUCT_V`. -/
def constructV (major minor subminor : ℕ) : ℕ :=
  major % 2 ^ 16 * 2 ^ 16 + minor % 2 ^ 8 * 2 ^ 8 + subminor % 2 ^ 8

def currentPlatformMin : Platform → ℕ
  | .ios => 2
  | .bridgeos => 2
  | .tvos => 9
  | _ => 1

/-- The three numbers of a version. -/
structure Numbers where
  major : ℕ
  minor : ℕ
  subminor : ℕ
  deriving DecidableEq

def Numbers.ofVersion (version : ℕ) : Numbers where
  major := version / 2 ^ 16 % 2 ^ 16
  minor := version / 2 ^ 8 % 2 ^ 8
  subminor := version % 2 ^ 8

/-- The `switch` for iOS and tvOS, with their least version. -/
def toIos (least : ℕ) (v : Numbers) : Platform → Numbers
  | .macos =>
    if v.major = 10 then
      ⟨if v.minor > least + 2 then v.minor - 2 else least, v.subminor, 0⟩
    else if v.major > 10 ∧ (v.major < 16 ∨ v.major = 16 ∧ v.minor = 0) then
      { v with major := v.major + 3 }
    else if v.major < 10 then { v with major := least }
    else v
  | .bridgeos =>
    if v.major < 10 ∨ v.major = 10 ∧ v.minor = 0 then { v with major := v.major + 9 }
    else { v with major := v.major + 16 }
  | .watchos | .watchossimulator =>
    if v.major < 12 ∨ v.major = 12 ∧ v.minor = 0 then { v with major := v.major + 7 } else v
  | .visionos | .visionossimulator =>
    if v.major < 3 ∨ v.major = 3 ∧ v.minor = 0 then { v with major := v.major + 16 } else v
  | _ => v

/-- The `switch` for bridgeOS. Version 99 is not available. -/
def toBridgeos (least : ℕ) (v : Numbers) : Platform → Numbers
  | .macos =>
    if v.major = 10 then
      ⟨if v.minor > least + 11 then v.minor - 11 else least, v.subminor, 0⟩
    else if v.major > 10 ∧ (v.major < 16 ∨ v.major = 16 ∧ v.minor = 0) then
      { v with major := if v.major > least + 6 then v.major - 6 else least }
    else if v.major < 10 then { v with major := least }
    else if v.major = 26 then { v with major := v.major - 10 }
    else if v.major > 26 then { v with major := 99 }
    else v
  | .ios | .tvos | .iossimulator | .tvossimulator | .maccatalyst =>
    if v.major < 26 then { v with major := if v.major > least + 9 then v.major - 9 else least }
    else if v.major = 26 then { v with major := 10 }
    else { v with major := 99 }
  | .watchos | .watchossimulator =>
    if v.major < 26 then { v with major := if v.major > least + 2 then v.major - 2 else least }
    else if v.major = 26 then { v with major := 10 }
    else { v with major := 99 }
  | .visionos | .visionossimulator =>
    if v.major < 26 then { v with major := v.major + 7 }
    else if v.major = 26 then { v with major := 10 }
    else { v with major := 99 }
  | _ => v

/-- One pass of the loop. -/
def rewriteVersion (current : Platform) (version : DyldBuildVersion) : DyldBuildVersion :=
  if current = version.platform then version
  else
    let v := Numbers.ofVersion version.version
    let v := match current with
      | .ios | .tvos => toIos (currentPlatformMin current) v version.platform
      | .bridgeos => toBridgeos (currentPlatformMin current) v version.platform
      | _ => v
    ⟨current, constructV v.major v.minor v.subminor⟩

/-- The array afterwards, and the answer; `none` is an original that is not there. -/
def availabilityVersionCheckHook (current : Platform)
    (original : Option (List DyldBuildVersion → Bool)) (versions : List DyldBuildVersion) :
    List DyldBuildVersion × Bool :=
  let versions := versions.map (rewriteVersion current)
  match original with
  | none => (versions, false)
  | some original => (versions, original versions)

/-! ## Release generations -/

/-- The major number on a platform of the generation of macOS `m`, if there is one. -/
def numberOf (platform : Platform) (m : ℕ) : Option ℕ :=
  if 11 ≤ m ∧ m ≤ 15 then
    match platform with
    | .macos => some m
    | .ios | .tvos | .iossimulator | .tvossimulator | .maccatalyst => some (m + 3)
    | .watchos | .watchossimulator => some (m - 4)
    | .visionos | .visionossimulator => if 14 ≤ m then some (m - 13) else none
    | .bridgeos => some (m - 6)
    | .other _ => none
  else if 26 ≤ m then
    match platform with
    | .bridgeos => some (m - 16)
    | .other _ => none
    | _ => some m
  else none

/-- The major number that a requirement of a generation is read as. No foreign version is available
on bridgeOS 11 and later, and bridgeOS 10.0 is the one of the beta numbering, 19.0. -/
def readAs (current platform : Platform) (m minor : ℕ) : Option ℕ :=
  if current = .bridgeos ∧ 27 ≤ m then some 99
  else if current ≠ .bridgeos ∧ platform = .bridgeos ∧ m = 26 ∧ minor = 0 then some 19
  else numberOf current m

variable {current platform : Platform} {m n minor subminor : ℕ}

theorem ofVersion_constructV (hn : n < 2 ^ 16) (hminor : minor < 2 ^ 8)
    (hsubminor : subminor < 2 ^ 8) :
    Numbers.ofVersion (constructV n minor subminor) = ⟨n, minor, subminor⟩ := by
  simp only [Numbers.ofVersion, constructV, Numbers.mk.injEq]
  omega

theorem numberOf_lt (h : numberOf platform m = some n) (hm : m < 2 ^ 16) : n < 2 ^ 16 := by
  cases platform <;> grind [numberOf]

/-- On iOS and tvOS; `least` is for versions before the generations only. -/
theorem toIos_generation (least minor subminor : ℕ) (hn : numberOf platform m = some n) :
    (readAs .ios platform m minor).map (⟨·, minor, subminor⟩) =
      some (toIos least ⟨n, minor, subminor⟩ platform) := by
  cases platform <;> grind [numberOf, toIos, readAs]

/-- On bridgeOS, but for macOS 26. -/
theorem toBridgeos_generation (minor subminor : ℕ) (hn : numberOf platform m = some n)
    (hforeign : platform ≠ .bridgeos) (hlater : ¬(platform = .macos ∧ m = 26)) :
    (readAs .bridgeos platform m minor).map (⟨·, minor, subminor⟩) =
      some (toBridgeos 2 ⟨n, minor, subminor⟩ platform) := by
  cases platform <;> grind [numberOf, toBridgeos, readAs]

theorem readAs_tvos (platform : Platform) (m minor : ℕ) :
    readAs .tvos platform m minor = readAs .ios platform m minor := by
  simp [readAs, numberOf]

section

variable (original : Option (List DyldBuildVersion → Bool)) (versions : List DyldBuildVersion)

theorem hook_versions (current : Platform) :
    (availabilityVersionCheckHook current original versions).1 =
      versions.map (rewriteVersion current) := by
  cases original <;> rfl

/-- One entry of a generation. -/
theorem rewriteVersion_generation
    (hcurrent : current = .ios ∨ current = .tvos ∨ current = .bridgeos)
    (hforeign : platform ≠ current) (hn : numberOf platform m = some n) (hm : m < 2 ^ 16)
    (hminor : minor < 2 ^ 8) (hsubminor : subminor < 2 ^ 8)
    (hlater : ¬(current = .bridgeos ∧ platform = .macos ∧ m = 26)) :
    some (rewriteVersion current ⟨platform, constructV n minor subminor⟩) =
      (readAs current platform m minor).map fun own =>
        ⟨current, constructV own minor subminor⟩ := by
  have hnumbers := ofVersion_constructV (numberOf_lt hn hm) hminor hsubminor
  rw [rewriteVersion, if_neg hforeign.symm]
  dsimp only
  rw [hnumbers]
  -- the numbers that are put together again
  have hown (v : Numbers) (own : Option ℕ) (h : own.map (⟨·, minor, subminor⟩) = some v) :
      some (DyldBuildVersion.mk current (constructV v.major v.minor v.subminor)) =
        own.map fun own => ⟨current, constructV own minor subminor⟩ := by
    obtain ⟨own, rfl, rfl⟩ := Option.map_eq_some_iff.mp h
    rfl
  rcases hcurrent with rfl | rfl | rfl
  · exact hown _ _ (toIos_generation _ minor subminor hn)
  · rw [readAs_tvos]
    exact hown _ _ (toIos_generation _ minor subminor hn)
  · exact hown _ _ (toBridgeos_generation minor subminor hn hforeign fun h => hlater ⟨rfl, h⟩)

/-- **Generations**: the foreign versions of a generation become one version of the running
platform, its own where the hook keeps exact numbers. -/
theorem hook_generation {i : ℕ}
    (hcurrent : current = .ios ∨ current = .tvos ∨ current = .bridgeos)
    (hforeign : platform ≠ current) (hn : numberOf platform m = some n) (hm : m < 2 ^ 16)
    (hminor : minor < 2 ^ 8) (hsubminor : subminor < 2 ^ 8)
    (hlater : ¬(current = .bridgeos ∧ platform = .macos ∧ m = 26))
    (hentry : versions[i]? = some ⟨platform, constructV n minor subminor⟩) :
    (availabilityVersionCheckHook current original versions).1[i]? =
      (readAs current platform m minor).map fun own =>
        ⟨current, constructV own minor subminor⟩ := by
  rw [hook_versions, List.getElem?_map, hentry]
  exact rewriteVersion_generation hcurrent hforeign hn hm hminor hsubminor hlater

end

theorem hook_generation_watchos :
    (availabilityVersionCheckHook .ios none [⟨.watchos, constructV 9 4 1⟩]).1[0]? =
      some ⟨.ios, constructV 16 4 1⟩ :=
  @hook_generation .ios .watchos 13 9 4 1 none _ 0 (.inl rfl) (by decide) rfl (by decide) (by decide)
    (by decide) (by decide) rfl

/-- A requirement of bridgeOS 10.0, which is of the generation of macOS 26, is read as iOS 19.0. -/
theorem not_hook_generation_bridgeos : numberOf .bridgeos 26 = some 10 ∧ numberOf .ios 26 = some 26 ∧
    (availabilityVersionCheckHook .ios none [⟨.bridgeos, constructV 10 0 0⟩]).1 =
      [⟨.ios, constructV 19 0 0⟩] ∧ constructV 19 0 0 ≠ constructV 26 0 0 := by decide

/-! ## What a foreign requirement counts as -/

/-- Versions of some platforms, from one major and minor number on and below another, and what they
count as on the running platform. -/
structure Range where
  platforms : List Platform
  lower : ℕ × ℕ
  upper : ℕ × ℕ
  own : Numbers → Numbers

def Numbers.isFrom (v : Numbers) (bound : ℕ × ℕ) : Bool :=
  bound.1 < v.major || bound.1 == v.major && bound.2 ≤ v.minor

def Range.has (range : Range) (platform : Platform) (v : Numbers) : Bool :=
  range.platforms.contains platform && v.isFrom range.lower && !v.isFrom range.upper

def Numbers.withMajor (major : ℕ) (v : Numbers) : Numbers := { v with major := major }

def iosPlatforms : List Platform := [.ios, .tvos, .iossimulator, .tvossimulator, .maccatalyst]

def watchosPlatforms : List Platform := [.watchos, .watchossimulator]

def visionosPlatforms : List Platform := [.visionos, .visionossimulator]

/-- The ranges on iOS and tvOS. -/
def iosRanges (least : ℕ) : List Range :=
  [⟨[.macos], (0, 0), (10, 0), .withMajor least⟩,
    ⟨[.macos], (10, 0), (10, least + 3), fun v => ⟨least, v.subminor, 0⟩⟩,
    ⟨[.macos], (10, least + 3), (11, 0), fun v => ⟨v.minor - 2, v.subminor, 0⟩⟩,
    ⟨[.macos], (11, 0), (16, 1), fun v => v.withMajor (v.major + 3)⟩,
    ⟨[.bridgeos], (0, 0), (10, 1), fun v => v.withMajor (v.major + 9)⟩,
    ⟨[.bridgeos], (10, 1), (2 ^ 16, 0), fun v => v.withMajor (v.major + 16)⟩,
    ⟨watchosPlatforms, (0, 0), (12, 1), fun v => v.withMajor (v.major + 7)⟩,
    ⟨visionosPlatforms, (0, 0), (3, 1), fun v => v.withMajor (v.major + 16)⟩]

/-- The ranges on bridgeOS. -/
def bridgeosRanges : List Range :=
  [⟨[.macos], (0, 0), (10, 0), .withMajor 2⟩,
    ⟨[.macos], (10, 0), (10, 14), fun v => ⟨2, v.subminor, 0⟩⟩,
    ⟨[.macos], (10, 14), (11, 0), fun v => ⟨v.minor - 11, v.subminor, 0⟩⟩,
    ⟨[.macos], (11, 0), (16, 1), fun v => v.withMajor (v.major - 6)⟩,
    ⟨[.macos], (26, 0), (27, 0), .withMajor 16⟩,
    ⟨iosPlatforms, (0, 0), (12, 0), .withMajor 2⟩,
    ⟨iosPlatforms, (12, 0), (26, 0), fun v => v.withMajor (v.major - 9)⟩,
    ⟨watchosPlatforms, (0, 0), (5, 0), .withMajor 2⟩,
    ⟨watchosPlatforms, (5, 0), (26, 0), fun v => v.withMajor (v.major - 2)⟩,
    ⟨visionosPlatforms, (0, 0), (26, 0), fun v => v.withMajor (v.major + 7)⟩,
    ⟨iosPlatforms ++ watchosPlatforms ++ visionosPlatforms, (26, 0), (27, 0), .withMajor 10⟩,
    ⟨.macos :: iosPlatforms ++ watchosPlatforms ++ visionosPlatforms, (27, 0), (2 ^ 16, 0),
      .withMajor 99⟩]

def ranges (current : Platform) : List Range :=
  match current with
  | .ios => iosRanges 2
  | .tvos => iosRanges 9
  | .bridgeos => bridgeosRanges
  | _ => []

/-- The numbers by the first range that has them; in no range they stay. -/
def ownNumbers (platform : Platform) (v : Numbers) : List Range → Numbers
  | [] => v
  | range :: ranges =>
    if range.has platform v then range.own v else ownNumbers platform v ranges

/-- The version of the running platform that an entry counts as. -/
def countsAs (current : Platform) (entry : DyldBuildVersion) : ℕ :=
  if entry.platform = current then entry.version
  else
    let own := ownNumbers entry.platform (.ofVersion entry.version) (ranges current)
    constructV own.major own.minor own.subminor

theorem has_iff {range : Range} {v : Numbers} :
    range.has platform v = true ↔ range.platforms.contains platform = true ∧
      (range.lower.1 < v.major ∨ range.lower.1 = v.major ∧ range.lower.2 ≤ v.minor) ∧
        (v.major < range.upper.1 ∨ v.major = range.upper.1 ∧ v.minor < range.upper.2) := by
  simp only [Range.has, Numbers.isFrom, Bool.and_eq_true, Bool.or_eq_true, Bool.not_eq_true',
    Bool.or_eq_false_iff, Bool.and_eq_false_iff, decide_eq_true_eq, decide_eq_false_iff_not,
    beq_iff_eq, beq_eq_false_iff_ne]
  grind

theorem major_ofVersion_lt (version : ℕ) : (Numbers.ofVersion version).major < 2 ^ 16 :=
  Nat.mod_lt _ (by decide)

theorem ownNumbers_ios {least : ℕ} (hleast : least = 2 ∨ least = 9) (platform : Platform)
    {v : Numbers} (hv : v.major < 2 ^ 16) :
    ownNumbers platform v (iosRanges least) = toIos least v platform := by
  rcases hleast with rfl | rfl <;> cases platform <;>
    simp only [ownNumbers, has_iff, iosRanges, watchosPlatforms, visionosPlatforms, toIos,
      Numbers.withMajor, List.contains_cons, List.contains_nil] <;>
    grind

theorem ownNumbers_bridgeos (hforeign : platform ≠ .bridgeos) {v : Numbers}
    (hv : v.major < 2 ^ 16) :
    ownNumbers platform v bridgeosRanges = toBridgeos 2 v platform := by
  cases platform <;>
    simp only [ownNumbers, has_iff, bridgeosRanges, iosPlatforms, watchosPlatforms,
      visionosPlatforms, toBridgeos, Numbers.withMajor, List.cons_append, List.nil_append,
      List.contains_cons, List.contains_nil] <;>
    grind

/-- What the hook makes of an entry. -/
theorem version_rewriteVersion (current : Platform) (entry : DyldBuildVersion) :
    (rewriteVersion current entry).version = countsAs current entry := by
  have hv := major_ofVersion_lt entry.version
  rw [rewriteVersion, countsAs]
  by_cases hplatform : current = entry.platform
  · rw [if_pos hplatform, if_pos hplatform.symm]
  · rw [if_neg hplatform, if_neg (Ne.symm hplatform)]
    cases current with
    | ios => simp only [currentPlatformMin, ownNumbers_ios (.inl rfl) _ hv, ranges]
    | tvos => simp only [currentPlatformMin, ownNumbers_ios (.inr rfl) _ hv, ranges]
    | bridgeos =>
      simp only [currentPlatformMin, ownNumbers_bridgeos (Ne.symm hplatform) hv, ranges]
    | _ => rfl

/-! ## The answer -/

/-- The first entry for the running platform decides. -/
def Decides (current : Platform) (available : ℕ → Bool) (original : List DyldBuildVersion → Bool) :
    Prop :=
  ∀ versions v, versions.find? (·.platform = current) = some v → original versions = available v.version

theorem platform_rewriteVersion (current : Platform) (v : DyldBuildVersion) :
    (rewriteVersion current v).platform = current := by
  unfold rewriteVersion
  split
  case isTrue h => exact h.symm
  case isFalse => rfl

/-- **Explicit requirements**: the array's first entry decides, whatever its platform is, so the
answer is that of the original when the version that the first entry counts as is available exactly
when the explicit one is. -/
theorem hook_eq_original_iff {available : ℕ → Bool} {original : List DyldBuildVersion → Bool}
    (horiginal : Decides current available original) {first explicit : DyldBuildVersion}
    {rest : List DyldBuildVersion}
    (hexplicit : (first :: rest).find? (·.platform = current) = some explicit) :
    (availabilityVersionCheckHook current (some original) (first :: rest)).2 =
        original (first :: rest) ↔
      available (countsAs current first) = available explicit.version := by
  have hfirst : ((first :: rest).map (rewriteVersion current)).find? (·.platform = current) =
      some (rewriteVersion current first) := by
    simp [platform_rewriteVersion]
  rw [availabilityVersionCheckHook, horiginal _ _ hfirst, horiginal _ _ hexplicit,
    version_rewriteVersion]

/-- The original on iOS 16.4. -/
def available164 (version : ℕ) : Bool := version ≤ constructV 16 4 0

def original164 (versions : List DyldBuildVersion) : Bool :=
  (versions.find? (·.platform = .ios)).all fun v => available164 v.version

theorem decides_original164 : Decides .ios available164 original164 := by
  intro versions v hfind
  rw [original164, hfind]
  rfl

/-- macOS 12 or iOS 17. -/
def laterVersions : List DyldBuildVersion :=
  [⟨.macos, constructV 12 0 0⟩, ⟨.ios, constructV 17 0 0⟩]

theorem hook_eq_original_iff_later :
    (availabilityVersionCheckHook .ios (some original164) laterVersions).2 =
        original164 laterVersions ↔
      available164 (countsAs .ios ⟨.macos, constructV 12 0 0⟩) =
        available164 (constructV 17 0 0) :=
  @hook_eq_original_iff .ios available164 original164 decides_original164
    ⟨.macos, constructV 12 0 0⟩ ⟨.ios, constructV 17 0 0⟩ [⟨.ios, constructV 17 0 0⟩] rfl

/-- iOS 17 is not available, but the hook answers for macOS 12. -/
theorem hook_ne_original_later :
    (availabilityVersionCheckHook .ios (some original164) laterVersions).2 = true ∧
      original164 laterVersions = false := by decide

end Jbinit.Systemhook
