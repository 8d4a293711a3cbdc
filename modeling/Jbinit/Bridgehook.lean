import Jbinit.CString
import Mathlib.Data.BitVec
import Mathlib.Data.List.Nodup

/-!
# The symbols of bridgehook

`MSGetImageByName` finds an image that is loaded by its name, and `MSFindSymbol` finds it again by
its header. Both keep the place in `file_index`, and the zero it starts with also says that there is
no such image: the main executable, the first image, gets NULL, and NULL asks `MSFindSymbol` for the
first image that has the symbol (`msFindSymbol_main`). The symbol is the one of the image asked for
at any other place, and at the first one if the image has the symbol or no image has it
(`resolvesIn_iff`).
-/

namespace Jbinit.Bridgehook

/-- An address, or NULL, which is zero. -/
abbrev Pointer := BitVec 64

structure Image where
  name : CStr
  header : Pointer

/-- The images that dyld has loaded, the main executable first. -/
structure Loaded where
  images : List Image
  names_nodup : (images.map Image.name).Nodup
  headers_nodup : (images.map Image.header).Nodup
  header_ne : ∀ image ∈ images, image.header ≠ 0#64

/-- `DobbySymbolResolver`, of the name of an image and of a symbol. -/
abbrev Resolver := Option CStr → CStr → Pointer

/-! ## The two functions -/

/-- The `file_index` of both loops: the first place of an image with the key, or the zero it starts
with. The places are those of a `uint32_t`, as dyld counts the images with one. -/
def fileIndex {κ : Type*} [BEq κ] (key : Image → κ) (k : κ) (images : List Image) : ℕ :=
  (images.findIdx? fun image => key image == k).getD 0

namespace Loaded

variable (loaded : Loaded)

/-- `_dyld_get_image_header`. -/
def getImageHeader (i : ℕ) : Pointer := (loaded.images[i]?.map Image.header).getD 0#64

/-- `_dyld_get_image_name`. -/
def getImageName (i : ℕ) : Option CStr := loaded.images[i]?.map Image.name

end Loaded

def msGetImageByName (loaded : Loaded) (file : CStr) : Pointer :=
  let i := fileIndex Image.name file loaded.images
  if i ≠ 0 then loaded.getImageHeader i else 0#64

/-- The loop of `MSFindSymbol` without an image. -/
def firstSymbol (dobbySymbolResolver : Resolver) (name : CStr) : List Image → Pointer
  | [] => 0#64
  | image :: images =>
    let sym := dobbySymbolResolver (some image.name) name
    if sym ≠ 0#64 then sym else firstSymbol dobbySymbolResolver name images

def msFindSymbol (dobbySymbolResolver : Resolver) (loaded : Loaded) (image : Pointer)
    (name : CStr) : Pointer :=
  if image ≠ 0#64 then
    let i := fileIndex Image.header image loaded.images
    if i ≠ 0 then dobbySymbolResolver (loaded.getImageName i) name else 0#64
  else firstSymbol dobbySymbolResolver name loaded.images

/-- `trollstorehelperInit`, with the function found under `_isPlatformVulnerableToExploitType` as
the behaviour `call` of its address. It returns the function that it hooks. -/
def trollstorehelperInit (dobbySymbolResolver : Resolver) (call : Pointer → BitVec 32 → Bool)
    (loaded : Loaded) (executablePath : CStr) : Option Pointer :=
  let trollstorehelper := msGetImageByName loaded executablePath
  let applyCoretrustBypass :=
    msFindSymbol dobbySymbolResolver loaded trollstorehelper "_apply_coretrust_bypass".toList
  let isPlatformVulnerableToExploitType :=
    msFindSymbol dobbySymbolResolver loaded trollstorehelper
      "_isPlatformVulnerableToExploitType".toList
  if isPlatformVulnerableToExploitType ≠ 0#64 ∧ applyCoretrustBypass ≠ 0#64 then
    if !call isPlatformVulnerableToExploitType (BitVec.allOnes 32) then some applyCoretrustBypass
    else none
  else none

/-! ## The place of an image -/

section Place

variable {κ : Type*} [BEq κ] [LawfulBEq κ] {key : Image → κ} {images : List Image}

theorem fileIndex_of_notMem {k : κ} (hk : k ∉ images.map key) : fileIndex key k images = 0 := by
  have hnone : (images.findIdx? fun image => key image == k) = none := by
    rw [List.findIdx?_eq_none_iff]
    intro image himage
    rw [beq_eq_false_iff_ne]
    rintro rfl
    exact hk (List.mem_map_of_mem himage)
  rw [fileIndex, hnone, Option.getD_none]

theorem fileIndex_of_getElem? (hnodup : (images.map key).Nodup) {i : ℕ} {image : Image}
    (hi : images[i]? = some image) : fileIndex key (key image) images = i := by
  obtain ⟨hlt, rfl⟩ := List.getElem?_eq_some_iff.mp hi
  have hsome : (images.findIdx? fun other => key other == key images[i]) = some i := by
    rw [List.findIdx?_eq_some_iff_getElem]
    refine ⟨hlt, beq_self_eq_true _, fun j hji hj => ?_⟩
    have hjlt : j < (images.map key).length := by
      rw [List.length_map]
      omega
    have hilt : i < (images.map key).length := by simpa using hlt
    have hkeys : (images.map key)[j] = (images.map key)[i] := by simpa using hj
    have heq := (List.Nodup.getElem_inj_iff hnodup).mp hkeys
    omega
  rw [fileIndex, hsome, Option.getD_some]

end Place

/-! ## The images by name -/

variable {loaded : Loaded} {dobbySymbolResolver : Resolver}

theorem msGetImageByName_of_notMem {file : CStr} (hfile : file ∉ loaded.images.map Image.name) :
    msGetImageByName loaded file = 0#64 := by
  rw [msGetImageByName, fileIndex_of_notMem hfile]
  simp

theorem msGetImageByName_zero {image : Image} (himage : loaded.images[0]? = some image) :
    msGetImageByName loaded image.name = 0#64 := by
  rw [msGetImageByName, fileIndex_of_getElem? loaded.names_nodup himage]
  simp

theorem msGetImageByName_succ {i : ℕ} {image : Image}
    (himage : loaded.images[i + 1]? = some image) :
    msGetImageByName loaded image.name = image.header := by
  rw [msGetImageByName, fileIndex_of_getElem? loaded.names_nodup himage]
  simp [Loaded.getImageHeader, himage]

/-! ## The symbols -/

/-- An image behind the main executable is found again by its header. -/
theorem msFindSymbol_succ {i : ℕ} {image : Image} (himage : loaded.images[i + 1]? = some image)
    (name : CStr) : msFindSymbol dobbySymbolResolver loaded image.header name =
      dobbySymbolResolver (some image.name) name := by
  have hne := loaded.header_ne image (List.mem_of_getElem? himage)
  rw [msFindSymbol, if_pos hne, fileIndex_of_getElem? loaded.headers_nodup himage]
  simp [Loaded.getImageName, himage]

theorem firstSymbol_eq_zero_iff {name : CStr} {images : List Image} :
    firstSymbol dobbySymbolResolver name images = 0#64 ↔
      ∀ image ∈ images, dobbySymbolResolver (some image.name) name = 0#64 := by
  induction images with
  | nil => simp [firstSymbol]
  | cons image images ih =>
    rw [firstSymbol, List.forall_mem_cons]
    by_cases hsym : dobbySymbolResolver (some image.name) name = 0#64
    · simp [hsym, ih]
    · simp [hsym]

/-- Of an image that comes first, the search takes its symbol, or goes on without it. -/
theorem firstSymbol_cons_eq_iff {name : CStr} {image : Image} {images : List Image} :
    firstSymbol dobbySymbolResolver name (image :: images) =
        dobbySymbolResolver (some image.name) name ↔
      dobbySymbolResolver (some image.name) name ≠ 0#64 ∨
        ∀ other ∈ image :: images, dobbySymbolResolver (some other.name) name = 0#64 := by
  by_cases hsym : dobbySymbolResolver (some image.name) name = 0#64
  · rw [hsym, firstSymbol_eq_zero_iff]
    simp
  · simp [firstSymbol, hsym]

/-- A symbol of the main executable is searched for in all images. -/
theorem msFindSymbol_main {image : Image} (himage : loaded.images[0]? = some image) (name : CStr) :
    msFindSymbol dobbySymbolResolver loaded (msGetImageByName loaded image.name) name =
      firstSymbol dobbySymbolResolver name loaded.images := by
  rw [msGetImageByName_zero himage, msFindSymbol, if_neg (by simp)]

/-! ## The image asked for -/

/-- The symbol is the one of the image with the name, and a name of no image gives NULL. -/
def ResolvesIn (dobbySymbolResolver : Resolver) (loaded : Loaded) (file name : CStr) : Prop :=
  (file ∈ loaded.images.map Image.name →
    msFindSymbol dobbySymbolResolver loaded (msGetImageByName loaded file) name =
      dobbySymbolResolver (some file) name) ∧
  (file ∉ loaded.images.map Image.name → msGetImageByName loaded file = 0#64)

/-- The main executable has the symbol, or no image has it. -/
def MainSettles (dobbySymbolResolver : Resolver) (loaded : Loaded) (file name : CStr) : Prop :=
  dobbySymbolResolver (some file) name ≠ 0#64 ∨
    ∀ other ∈ loaded.images, dobbySymbolResolver (some other.name) name = 0#64

theorem resolves_main_iff {image : Image} (himage : loaded.images[0]? = some image) (name : CStr) :
    msFindSymbol dobbySymbolResolver loaded (msGetImageByName loaded image.name) name =
        dobbySymbolResolver (some image.name) name ↔
      MainSettles dobbySymbolResolver loaded image.name name := by
  have hhead : loaded.images.head? = some image := List.head?_eq_getElem?.trans himage
  obtain ⟨rest, hrest⟩ := List.head?_eq_some_iff.mp hhead
  rw [msFindSymbol_main himage, MainSettles, hrest, firstSymbol_cons_eq_iff]

/-- **When the symbol is that of the image asked for.** -/
theorem resolvesIn_iff (dobbySymbolResolver : Resolver) (loaded : Loaded) (file name : CStr) :
    ResolvesIn dobbySymbolResolver loaded file name ↔
      (loaded.getImageName 0 = some file → MainSettles dobbySymbolResolver loaded file name) := by
  rw [ResolvesIn, and_iff_left msGetImageByName_of_notMem]
  constructor
  · intro h hname
    obtain ⟨main, hmain, rfl⟩ := Option.map_eq_some_iff.mp hname
    have hmem := List.mem_map_of_mem (f := Image.name) (List.mem_of_getElem? hmain)
    exact (resolves_main_iff hmain name).mp (h hmem)
  · intro h hmem
    obtain ⟨image, himage, rfl⟩ := List.mem_map.mp hmem
    obtain ⟨i, hi⟩ := List.mem_iff_getElem?.mp himage
    cases i with
    | zero => exact (resolves_main_iff hi name).mpr (h (by simp [Loaded.getImageName, hi]))
    | succ i => rw [msGetImageByName_succ hi, msFindSymbol_succ hi]

/-- A helper without the symbol, and a library with it. -/
def strippedHelper : Loaded where
  images := [⟨"/var/containers/TrollStore.app/trollstorehelper".toList, 0x100000000#64⟩,
    ⟨"/usr/lib/libchoma.dylib".toList, 0x180000000#64⟩]
  names_nodup := by decide +kernel
  headers_nodup := by decide
  header_ne := by decide

def chomaSymbols : Resolver := fun file name =>
  if file = some "/usr/lib/libchoma.dylib".toList ∧ name = "_apply_coretrust_bypass".toList then
    0x180004000#64
  else 0#64

/-- The symbol of the library is taken for one of the helper. -/
theorem resolvesIn_strippedHelper :
    ¬ResolvesIn chomaSymbols strippedHelper
      "/var/containers/TrollStore.app/trollstorehelper".toList
      "_apply_coretrust_bypass".toList := by
  unfold ResolvesIn
  decide +kernel

/-! ## The caller -/

/-- The helper that has both functions hooks its own one. -/
theorem trollstorehelperInit_own {call : Pointer → BitVec 32 → Bool} {image : Image}
    (himage : loaded.images[0]? = some image)
    (hbypass : dobbySymbolResolver (some image.name) "_apply_coretrust_bypass".toList ≠ 0#64)
    (hvulnerable : dobbySymbolResolver (some image.name)
      "_isPlatformVulnerableToExploitType".toList ≠ 0#64) :
    trollstorehelperInit dobbySymbolResolver call loaded image.name =
      if !call (dobbySymbolResolver (some image.name)
          "_isPlatformVulnerableToExploitType".toList) (BitVec.allOnes 32) then
        some (dobbySymbolResolver (some image.name) "_apply_coretrust_bypass".toList)
      else none := by
  have hown := (resolves_main_iff himage "_apply_coretrust_bypass".toList).mpr (.inl hbypass)
  have hcheck := (resolves_main_iff himage
    "_isPlatformVulnerableToExploitType".toList).mpr (.inl hvulnerable)
  simp only [trollstorehelperInit, hown, hcheck]
  rw [if_pos ⟨hvulnerable, hbypass⟩]

end Jbinit.Bridgehook
