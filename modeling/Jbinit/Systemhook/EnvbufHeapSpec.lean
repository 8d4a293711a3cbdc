import Jbinit.Systemhook.EnvbufHeap

/-!
# What the environment buffer functions do to memory

Readers need an array that ends with NULL and whose strings can be read (`EnvAt`); two of its
pointers may be the same. The functions that write work on a copy that shares no block with the
caller's memory `base` (`OwnsEnv`). `mutcopyMem_total` makes one, `setenvMem_total` and
`unsetenvMem_total` change its strings as the functions on lists do, and `freeMem_total` gives back
`base`. The three loops are `copyFrom_total`, `shiftFrom_total` and `freeFrom_total`.
-/

namespace Jbinit.Systemhook

open Foundations Blocks

variable {A : Allocator Block} {base m : CMem} {own : List (ℕ × Block)} {p q : ℕ}

/-! ## Readers -/

/-- The addresses `addrs` hold the strings `l`. -/
abbrev StringsAt (m : CMem) (addrs : List ℕ) (l : List CStr) : Prop :=
  List.Forall₂ (fun a s => m.lookup a = some (.str s)) addrs l

/-- The slots of an array that ends with NULL; what follows is not looked at. -/
def envSlots (addrs : List ℕ) (rest : List Slot) : List Slot := addrs.map .ptr ++ .null :: rest

/-- The array at `p` holds the strings `l`. -/
def EnvAt (m : CMem) (p : ℕ) (l : List CStr) : Prop :=
  ∃ addrs rest, m.lookup p = some (.arr (envSlots addrs rest)) ∧ StringsAt m addrs l

theorem loadStr_run {a : ℕ} {s : CStr} (h : m.lookup a = some (.str s)) :
    loadStr a m = .ok (s, m) := bind_run (load_run _ h)

theorem loadSlots_run {slots : List Slot} (h : m.lookup p = some (.arr slots)) :
    loadSlots p m = .ok (slots, m) := bind_run (load_run _ h)

theorem loadSlot_run {slots : List Slot} {i : ℕ} {slot : Slot}
    (h : m.lookup p = some (.arr slots)) (hi : slots[i]? = some slot) :
    loadSlot p i m = .ok (slot, m) := by
  unfold loadSlot
  rw [bind_run (loadSlots_run h), hi]
  rfl

theorem lenFrom_run (addrs : List ℕ) (rest : List Slot) (k : ℕ) (m : CMem) :
    lenFrom (envSlots addrs rest) k m = .ok (k + addrs.length + 1, m) := by
  induction addrs generalizing k with
  | nil => rfl
  | cons a addrs ih =>
    have hstep : lenFrom (envSlots (a :: addrs) rest) k m =
        lenFrom (envSlots addrs rest) (k + 1) m := rfl
    rw [hstep, ih, List.length_cons]
    congr 2
    omega

theorem envbufLenMem_run {addrs : List ℕ} {rest : List Slot}
    (h : m.lookup p = some (.arr (envSlots addrs rest))) :
    envbufLenMem (some p) m = .ok (addrs.length + 1, m) := by
  have hlen := lenFrom_run addrs rest 0 m
  rw [Nat.zero_add] at hlen
  exact (bind_run (loadSlots_run h)).trans hlen

theorem findFrom_run {addrs : List ℕ} {l : List CStr} (h : StringsAt m addrs l) (name : CStr)
    (rest : List Slot) (k : ℕ) :
    findFrom name (envSlots addrs rest) k m = .ok (envbufFindFrom name l k, m) := by
  induction h generalizing k with
  | nil => rfl
  | @cons a env addrs l ha _ ih =>
    have hstep : findFrom name (envSlots (a :: addrs) rest) k m =
        (if namedBy name env then (return some k : MemM (Option ℕ))
          else findFrom name (envSlots addrs rest) (k + 1)) m := bind_run (loadStr_run ha)
    rw [hstep, envbufFindFrom]
    split
    · rfl
    · exact ih (k + 1)

theorem envbufFindMem_run {l : List CStr} (h : EnvAt m p l) (name : CStr) :
    envbufFindMem (some p) name m = .ok (envbufFind (some l) name, m) := by
  obtain ⟨addrs, rest, hp, hl⟩ := h
  exact (bind_run (loadSlots_run hp)).trans (findFrom_run hl name rest 0)

theorem envSlots_getElem? (addrs : List ℕ) (rest : List Slot) (i : ℕ) (h : i < addrs.length) :
    (envSlots addrs rest)[i]? = some (.ptr addrs[i]) := by
  rw [envSlots, List.getElem?_append_left (by simpa using h), List.getElem?_map,
    List.getElem?_eq_getElem h]
  rfl

theorem envbufFind_lt {l : List CStr} {name : CStr} {i : ℕ}
    (h : envbufFind (some l) name = some i) : i < l.length := by
  rw [envbufFind_some] at h
  exact (List.findIdx?_eq_some_iff_getElem.mp h).1

/-- A look-up in memory is the look-up in the list of strings. -/
theorem envbufGetenvMem_run {l : List CStr} (h : EnvAt m p l) (name : CStr) :
    envbufGetenvMem (some p) name m = .ok (envbufGetenv (some l) name, m) := by
  have hfind := envbufFindMem_run h name
  obtain ⟨addrs, rest, hp, hl⟩ := h
  refine (bind_run hfind).trans ?_
  rw [envbufGetenv]
  cases hi : envbufFind (some l) name with
  | none => rfl
  | some i =>
    have hlt : i < l.length := envbufFind_lt hi
    have hlt' : i < addrs.length := by rwa [hl.length_eq]
    have hstr := hl.get hlt' hlt
    change (loadSlot p i >>= _) m = _
    rw [bind_run (loadSlot_run hp (envSlots_getElem? addrs rest i hlt'))]
    refine (bind_run (loadStr_run hstr)).trans ?_
    rw [Option.bind_some, List.getElem?_eq_getElem hlt]
    rfl

/-! ## Single writes -/

theorem storeSlot_total {slots : List Slot} {i : ℕ} (hi : i < slots.length) (slot : Slot) :
    Total (Owns base ((p, .arr slots) :: own)) (storeSlot p i slot) fun _ =>
      Owns base ((p, .arr (slots.set i slot)) :: own) := by
  refine Total.read (fun m hm => loadSlots_run (hm.holds (p, .arr slots) (by simp))) ?_
  rw [if_pos hi]
  exact Total.store _ _

theorem realloc_total (slots : List Slot) (n : ℕ) :
    Total (Owns base ((p, .arr slots) :: own)) (realloc A p n) fun q =>
      Owns base ((q, .arr ((slots ++ List.replicate n Slot.undef).take n)) :: own) := by
  refine Total.read (fun m hm => loadSlots_run (hm.holds (p, .arr slots) (by simp))) ?_
  exact Total.bind (Total.free _) fun _ => Total.alloc A _

/-! ## An environment of one's own -/

/-- The strings of an environment, as blocks. -/
def stringBlocks (cells : List (ℕ × CStr)) : List (ℕ × Block) :=
  cells.map fun c => (c.1, .str c.2)

/-- The array of an environment. -/
def cellSlots (cells : List (ℕ × CStr)) : List Slot := cells.map fun c => .ptr c.1

/-- `m` is `base` with an environment beside it that holds the strings `l`. -/
def OwnsEnv (base : CMem) (envp : Option ℕ) (l : Option (List CStr)) (m : CMem) : Prop :=
  match envp, l with
  | none, none => Owns base [] m
  | some p, some l => ∃ cells, cells.map Prod.snd = l ∧
      Owns base ((p, .arr (cellSlots cells ++ [.null])) :: stringBlocks cells) m
  | _, _ => False

@[simp] theorem stringBlocks_append (cells cells' : List (ℕ × CStr)) :
    stringBlocks (cells ++ cells') = stringBlocks cells ++ stringBlocks cells' := by
  simp [stringBlocks]

@[simp] theorem stringBlocks_cons (c : ℕ × CStr) (cells : List (ℕ × CStr)) :
    stringBlocks (c :: cells) = (c.1, .str c.2) :: stringBlocks cells := rfl

@[simp] theorem cellSlots_append (cells cells' : List (ℕ × CStr)) :
    cellSlots (cells ++ cells') = cellSlots cells ++ cellSlots cells' := by
  simp [cellSlots]

@[simp] theorem cellSlots_cons (c : ℕ × CStr) (cells : List (ℕ × CStr)) :
    cellSlots (c :: cells) = .ptr c.1 :: cellSlots cells := rfl

@[simp] theorem length_cellSlots (cells : List (ℕ × CStr)) :
    (cellSlots cells).length = cells.length := by
  simp [cellSlots]

section Cells

variable (pre : List (ℕ × CStr)) (c : ℕ × CStr) (post : List (ℕ × CStr))

theorem getElem?_cellSlots :
    (cellSlots (pre ++ c :: post) ++ [.null])[pre.length]? = some (.ptr c.1) := by
  simp [cellSlots]

theorem set_cellSlots (c' : ℕ × CStr) :
    (cellSlots (pre ++ c :: post) ++ [Slot.null]).set pre.length (.ptr c'.1) =
      cellSlots (pre ++ c' :: post) ++ [.null] := by
  simp [cellSlots]

/-- The block of one string in front of the others. -/
theorem stringBlocks_middle : (stringBlocks (pre ++ c :: post)).Perm
    ((c.1, .str c.2) :: stringBlocks (pre ++ post)) := by
  rw [stringBlocks_append, stringBlocks_cons, stringBlocks_append]
  exact List.perm_middle

theorem eraseIdx_map_snd : ((pre ++ c :: post).map Prod.snd).eraseIdx pre.length =
    (pre ++ post).map Prod.snd := by
  have hlen : (pre.map Prod.snd).length = pre.length := List.length_map _
  rw [List.map_append, ← hlen, List.eraseIdx_append_of_length_le le_rfl, Nat.sub_self,
    List.map_cons, List.eraseIdx_cons_zero, List.map_append]

/-- An array with room for one more element. -/
theorem take_grown (cells : List (ℕ × CStr)) : (cellSlots cells ++ [Slot.null] ++
    List.replicate (cells.length + 1 + 1) Slot.undef).take (cells.length + 1 + 1) =
      cellSlots cells ++ [.null, .undef] := by
  have hsplit : cellSlots cells ++ [Slot.null] ++ List.replicate (cells.length + 1 + 1) Slot.undef =
      cellSlots cells ++ [.null, .undef] ++ List.replicate (cells.length + 1) .undef := by
    simp [List.replicate_succ]
  rw [hsplit, List.take_left' (by simp)]

/-- An array without the element that the others have been moved over. -/
theorem take_shrunk (last : Slot) : (cellSlots pre ++ (cellSlots post ++ [Slot.null]) ++ [last] ++
    List.replicate ((pre ++ c :: post).length + 1 - 1) Slot.undef).take
      ((pre ++ c :: post).length + 1 - 1) = cellSlots (pre ++ post) ++ [.null] := by
  have hjoin : cellSlots pre ++ (cellSlots post ++ [Slot.null]) ++ [last] ++
      List.replicate ((pre ++ c :: post).length + 1 - 1) Slot.undef =
      cellSlots (pre ++ post) ++ [.null] ++
        ([last] ++ List.replicate ((pre ++ c :: post).length + 1 - 1) .undef) := by
    simp
  rw [hjoin, List.take_left' (by simp)]

end Cells

theorem envSlots_fst (cells : List (ℕ × CStr)) (rest : List Slot) :
    envSlots (cells.map Prod.fst) rest = cellSlots cells ++ .null :: rest := by
  simp [envSlots, cellSlots]

/-- Owned blocks can be read. -/
theorem envAt_of_owns {cells : List (ℕ × CStr)} (rest : List Slot) (h : Owns base own m)
    (hp : (p, .arr (cellSlots cells ++ .null :: rest)) ∈ own)
    (hcells : ∀ b ∈ stringBlocks cells, b ∈ own) : EnvAt m p (cells.map Prod.snd) := by
  refine ⟨cells.map Prod.fst, rest, ?_, ?_⟩
  · rw [envSlots_fst]
    exact h.holds _ hp
  · rw [StringsAt, List.forall₂_map_left_iff, List.forall₂_map_right_iff, List.forall₂_same]
    intro c hc
    exact h.holds (c.1, .str c.2) (hcells _ (List.mem_map_of_mem hc))

/-! ## Copying -/

/-- The loop of `envbuf_mutcopy`: the strings `cells` are copied, the strings at `todo` are left. -/
theorem copyFrom_total {slots rest : List Slot} (hp : base.lookup p = some (.arr slots))
    {todo : List ℕ} {l : List CStr} (h : StringsAt base todo l) (cells : List (ℕ × CStr))
    (hdrop : slots.drop cells.length = envSlots todo rest) :
    Total (Owns base ((q, .arr (cellSlots cells ++ List.replicate (todo.length + 1) .undef)) ::
        stringBlocks cells))
      (copyFrom A p q todo.length cells.length)
      (fun _ m => ∃ cells', cells'.map Prod.snd = cells.map Prod.snd ++ l ∧
        Owns base ((q, .arr (cellSlots cells' ++ [.undef])) :: stringBlocks cells') m) := by
  induction h generalizing cells with
  | nil => exact Total.pure fun m hm => ⟨cells, by simp, hm⟩
  | @cons a s todo l ha _ ih =>
    have hslot : slots[cells.length]? = some (.ptr a) := by
      have hhead := congrArg (fun t => t[0]?) hdrop
      simpa [envSlots] using hhead
    refine Total.read (fun m hm => loadSlot_run (hm.lookup_base hp) hslot) ?_
    refine Total.bind (Total.read (fun m hm => loadStr_run (hm.lookup_base ha))
      (Total.alloc A (.str s))) ?_
    intro c
    refine Total.perm (List.Perm.swap ..) ?_
    refine Total.bind (storeSlot_total (by simp) (.ptr c)) ?_
    intro _
    have hset : (cellSlots cells ++ List.replicate (todo.length + 2) Slot.undef).set cells.length
        (.ptr c) = cellSlots (cells ++ [(c, s)]) ++ List.replicate (todo.length + 1) .undef := by
      rw [List.set_append_right _ _ (by simp), length_cellSlots, Nat.sub_self,
        List.replicate_succ, List.set_cons_zero]
      simp [cellSlots]
    have hdrop' : slots.drop (cells ++ [(c, s)]).length = envSlots todo rest := by
      have htail := congrArg List.tail hdrop
      rw [List.tail_drop] at htail
      simpa [envSlots] using htail
    have hstep := ih (cells ++ [(c, s)]) hdrop'
    rw [List.length_append, List.length_singleton] at hstep
    rw [List.length_cons, hset]
    refine Total.perm ?_ (hstep.weaken (fun _ hm => hm) ?_)
    · rw [stringBlocks_append]
      exact (List.perm_append_singleton _ _).symm.cons _
    · rintro _ m ⟨cells', hcells', hown⟩
      exact ⟨cells', by simpa using hcells', hown⟩

/-- A pointer that is NULL, or points to an array that holds the strings. -/
def EnvPtr (m : CMem) (envp : Option ℕ) (l : Option (List CStr)) : Prop :=
  match envp, l with
  | none, none => True
  | some p, some l => EnvAt m p l
  | _, _ => False

theorem mutcopyMem_total {envp : Option ℕ} {l : Option (List CStr)} (h : EnvPtr base envp l) :
    Total (Owns base []) (envbufMutcopyMem A envp) fun q => OwnsEnv base q (envbufMutcopy l) := by
  match envp, l, h with
  | none, none, _ => exact Total.pure fun m hm => hm
  | some p, some l, h =>
    obtain ⟨addrs, rest, hp, hl⟩ := h
    refine Total.read (fun m hm => envbufLenMem_run (hm.lookup_base hp)) ?_
    refine Total.bind (Total.alloc A _) ?_
    intro q
    rw [Nat.add_sub_cancel]
    refine Total.bind (copyFrom_total hp hl [] rfl) fun _ => Total.of_exists fun cells => ?_
    refine Total.of_and fun hcells => ?_
    have hlen : cells.length = addrs.length := by
      rw [hl.length_eq, ← List.length_map (f := Prod.snd), hcells]
      rfl
    refine Total.bind (storeSlot_total (by simp [hlen]) .null) ?_
    intro _
    refine Total.pure fun m hm => ⟨cells, by simpa using hcells, ?_⟩
    rwa [List.set_append_right _ _ (by simp [hlen]), length_cellSlots, hlen, Nat.sub_self,
      List.set_cons_zero] at hm

/-! ## Freeing -/

theorem freeFrom_total {slots rest : List Slot} (cells : List (ℕ × CStr)) (i : ℕ)
    (hdrop : slots.drop i = cellSlots cells ++ rest) :
    Total (Owns base ((p, .arr slots) :: stringBlocks cells)) (freeFrom p cells.length i)
      fun _ => Owns base [(p, .arr slots)] := by
  induction cells generalizing i with
  | nil => exact Total.pure fun m hm => hm
  | cons c cells ih =>
    have hslot : slots[i]? = some (.ptr c.1) := by
      have hhead := congrArg (fun t => t[0]?) hdrop
      simpa using hhead
    have hdrop' : slots.drop (i + 1) = cellSlots cells ++ rest := by
      have htail := congrArg List.tail hdrop
      rwa [List.tail_drop] at htail
    refine Total.read (fun m hm => loadSlot_run (hm.holds (p, .arr slots) (by simp)) hslot) ?_
    refine Total.perm (List.Perm.swap ..) ?_
    exact Total.bind (Total.free _) fun _ => ih (i + 1) hdrop'

/-- `envbuf_free` gives the memory back as it was. -/
theorem freeMem_total (envp : Option ℕ) (l : Option (List CStr)) :
    Total (OwnsEnv base envp l) (envbufFreeMem envp) fun _ m => m = base := by
  match envp, l with
  | none, none => exact Total.pure fun m hm => Owns.eq_base hm
  | some p, some l =>
    refine Total.of_exists fun cells => Total.of_and fun _ => ?_
    have hlen : ∀ m, Owns base ((p, .arr (cellSlots cells ++ [.null])) :: stringBlocks cells) m →
        envbufLenMem (some p) m = .ok (cells.length + 1, m) := by
      intro m hm
      have hp := hm.holds (p, .arr (cellSlots cells ++ [.null])) (by simp)
      rw [← envSlots_fst] at hp
      simpa using envbufLenMem_run hp
    refine Total.read hlen ?_
    rw [Nat.add_sub_cancel]
    refine Total.bind (freeFrom_total cells 0 rfl) ?_
    intro _
    exact (Total.free _).weaken (fun _ hm => hm) fun _ m hm => hm.eq_base
  | none, some _ => exact fun m hm => hm.elim
  | some _, none => exact fun m hm => hm.elim

/-! ## Setting a variable -/

theorem buildEntry_eq (name value : CStr) : buildEntry name value = .ok (name ++ '=' :: value) := by
  have h₁ : name.length < name.length + value.length + 2 := by omega
  have h₂ : (name ++ ['=']).length < name.length + value.length + 2 := by
    simp only [List.length_append, List.length_singleton]
    omega
  have h₃ : ((name ++ ['=']) ++ value).length < name.length + value.length + 2 := by
    simp only [List.length_append, List.length_singleton]
    omega
  simp only [buildEntry, CStr.strcat, checked_strcpy, if_pos h₁, if_pos h₂, if_pos h₃, ok_bind]
  simp

/-- The cell of an index that was found. -/
theorem exists_cell_of_find {cells : List (ℕ × CStr)} {name : CStr} {i : ℕ}
    (h : envbufFind (some (cells.map Prod.snd)) name = some i) :
    ∃ pre c post, cells = pre ++ c :: post ∧ pre.length = i := by
  have hlt : i < cells.length := by simpa using envbufFind_lt h
  exact ⟨cells.take i, cells[i], cells.drop (i + 1), by simp, by simp; omega⟩

/-- The array of an environment of one's own is read while other blocks are owned as well. -/
theorem findMem_run_of_owns (cells : List (ℕ × CStr)) (h : Owns base own m)
    (hp : (p, .arr (cellSlots cells ++ [.null])) ∈ own)
    (hcells : ∀ b ∈ stringBlocks cells, b ∈ own) (name : CStr) :
    envbufFindMem (some p) name m = .ok (envbufFind (some (cells.map Prod.snd)) name, m) :=
  envbufFindMem_run (envAt_of_owns [] h hp hcells) name

theorem lenMem_run_of_owns (cells : List (ℕ × CStr)) (rest : List Slot) (h : Owns base own m)
    (hp : (p, .arr (cellSlots cells ++ .null :: rest)) ∈ own) :
    envbufLenMem (some p) m = .ok (cells.length + 1, m) := by
  have hslots := h.holds _ hp
  rw [← envSlots_fst] at hslots
  simpa using envbufLenMem_run hslots

theorem setEntry_total {envp : Option ℕ} {l : List CStr} (henvp : l ≠ [] → envp = some p)
    (name value : CStr) :
    Total (OwnsEnv base (some p) (some l)) (setEntry A envp p name value) fun q =>
      OwnsEnv base q (envbufSetenv (some l) name value) := by
  refine Total.of_exists fun cells => Total.of_and ?_
  rintro rfl
  refine Total.read
    (fun m _ => congrArg (fun r => r.map fun s => (s, m)) (buildEntry_eq name value)) ?_
  refine Total.bind (Total.alloc A _) ?_
  intro e
  refine Total.read (fun m hm =>
    findMem_run_of_owns cells hm (by simp) (fun b hb => by simp [hb]) name) ?_
  rw [envbufSetenv, Option.getD_some]
  cases hfind : envbufFind (some (cells.map Prod.snd)) name with
  | some i =>
    obtain ⟨pre, c, post, rfl, rfl⟩ := exists_cell_of_find hfind
    refine Total.read (fun m hm =>
      loadSlot_run (hm.holds (p, _) (by simp)) (getElem?_cellSlots pre c post)) ?_
    -- the block of the old entry is freed, the array now points to the new one
    have hperm : List.Perm
        ((e, .str (name ++ '=' :: value)) :: (p, .arr (cellSlots (pre ++ c :: post) ++ [.null])) ::
          stringBlocks (pre ++ c :: post))
        ((c.1, .str c.2) :: (p, .arr (cellSlots (pre ++ c :: post) ++ [.null])) ::
          (e, .str (name ++ '=' :: value)) :: stringBlocks (pre ++ post)) :=
      (((stringBlocks_middle pre c post).cons _).cons _).trans
        ((List.reverse_perm [_, _, _]).symm.append_right _)
    refine Total.perm hperm ?_
    refine Total.bind (Total.free _) fun _ => ?_
    refine Total.bind (storeSlot_total (by simp) (.ptr e)) fun _ => ?_
    rw [henvp (by simp)]
    refine Total.pure fun m hm => ⟨pre ++ (e, name ++ '=' :: value) :: post, by simp, ?_⟩
    have hset := set_cellSlots pre c post (e, name ++ '=' :: value)
    rw [hset] at hm
    exact hm.perm ((stringBlocks_middle pre (e, name ++ '=' :: value) post).symm.cons _)
  | none =>
    refine Total.read (fun m hm => lenMem_run_of_owns cells [] hm (by simp)) ?_
    refine Total.perm (List.Perm.swap ..) ?_
    refine Total.bind (realloc_total _ _) ?_
    intro q
    rw [Nat.add_sub_cancel]
    rw [take_grown]
    refine Total.bind (storeSlot_total (by simp) (.ptr e)) fun _ => ?_
    refine Total.bind (storeSlot_total (by simp) .null) fun _ => ?_
    refine Total.pure fun m hm => ⟨cells ++ [(e, name ++ '=' :: value)], by simp, ?_⟩
    have hslots : ((cellSlots cells ++ [Slot.null, .undef]).set cells.length (.ptr e)).set
        (cells.length + 1) .null = cellSlots (cells ++ [(e, name ++ '=' :: value)]) ++ [.null] := by
      simp [cellSlots]
    rw [hslots] at hm
    refine hm.perm ?_
    rw [stringBlocks_append]
    exact (List.perm_append_singleton _ _).symm.cons _

theorem setenvMem_total (envp : Option ℕ) (l : Option (List CStr)) (name value : CStr) :
    Total (OwnsEnv base envp l) (envbufSetenvMem A envp name value) fun q =>
      OwnsEnv base q (envbufSetenv l name value) := by
  match envp, l with
  | some p, some l => exact setEntry_total (fun _ => rfl) name value
  | none, none =>
    refine Total.bind (Total.alloc A _) ?_
    intro p
    refine Total.bind (storeSlot_total (by simp) .null) fun _ => ?_
    have hset : Total (OwnsEnv base (some p) (some [])) (setEntry A none p name value) fun q =>
        OwnsEnv base q (envbufSetenv (some []) name value) :=
      setEntry_total (fun h => absurd rfl h) name value
    exact hset.weaken (fun m hm => ⟨[], rfl, hm⟩) fun _ _ hr => hr
  | none, some _ => exact fun m hm => hm.elim
  | some _, none => exact fun m hm => hm.elim

/-! ## Removing a variable -/

/-- The loop of `envbuf_unsetenv`: the elements after `x` move down, the last one stays as well. -/
theorem shiftFrom_total (pre : List Slot) (x : Slot) (rest : List Slot) :
    Total (Owns base ((p, .arr (pre ++ x :: rest)) :: own)) (shiftFrom p rest.length pre.length)
      fun _ m => ∃ last, Owns base ((p, .arr (pre ++ rest ++ [last])) :: own) m := by
  induction rest generalizing pre x with
  | nil => exact Total.pure fun m hm => ⟨x, by simpa using hm⟩
  | cons y rest ih =>
    have hslot : (pre ++ x :: y :: rest)[pre.length + 1]? = some y := by simp
    refine Total.read (fun m hm => loadSlot_run (hm.holds (p, _) (by simp)) hslot) ?_
    refine Total.bind (storeSlot_total (by simp) y) fun _ => ?_
    have hset : (pre ++ x :: y :: rest).set pre.length y = (pre ++ [y]) ++ y :: rest := by simp
    have hstep := ih (pre ++ [y]) y
    rw [List.length_append, List.length_singleton] at hstep
    rw [hset]
    refine hstep.weaken (fun _ hm => hm) ?_
    rintro _ m ⟨last, hm⟩
    exact ⟨last, by simpa using hm⟩

theorem unsetenvMem_total (envp : Option ℕ) (l : Option (List CStr)) (name : CStr) :
    Total (OwnsEnv base envp l) (envbufUnsetenvMem A envp name) fun q =>
      OwnsEnv base q (envbufUnsetenv l name) := by
  match envp, l with
  | none, none => exact Total.pure fun m hm => hm
  | none, some _ => exact fun m hm => hm.elim
  | some _, none => exact fun m hm => hm.elim
  | some p, some l =>
    refine Total.of_exists fun cells => Total.of_and ?_
    rintro rfl
    refine Total.read (fun m hm =>
      findMem_run_of_owns cells hm (by simp) (fun b hb => by simp [hb]) name) ?_
    rw [envbufUnsetenv]
    cases hfind : envbufFind (some (cells.map Prod.snd)) name with
    | none => exact Total.pure fun m hm => ⟨cells, rfl, hm⟩
    | some i =>
      obtain ⟨pre, c, post, rfl, rfl⟩ := exists_cell_of_find hfind
      refine Total.read (fun m hm =>
        loadSlot_run (hm.holds (p, _) (by simp)) (getElem?_cellSlots pre c post)) ?_
      have hperm : List.Perm
          ((p, .arr (cellSlots (pre ++ c :: post) ++ [.null])) :: stringBlocks (pre ++ c :: post))
          ((c.1, .str c.2) :: (p, .arr (cellSlots (pre ++ c :: post) ++ [.null])) ::
            stringBlocks (pre ++ post)) :=
        ((stringBlocks_middle pre c post).cons _).trans (List.Perm.swap ..)
      refine Total.perm hperm ?_
      refine Total.bind (Total.free _) fun _ => ?_
      refine Total.read (fun m hm =>
        lenMem_run_of_owns (pre ++ c :: post) [] hm (by simp)) ?_
      -- the elements from the freed one on, the first of which is overwritten
      have hsplit : cellSlots (pre ++ c :: post) ++ [.null] =
          cellSlots pre ++ .ptr c.1 :: (cellSlots post ++ [.null]) := by simp
      have hcount : (pre ++ c :: post).length + 1 - 1 - pre.length =
          (cellSlots post ++ [Slot.null]).length := by
        simp only [List.length_append, List.length_cons, length_cellSlots, List.length_nil]
        omega
      have hshift : Total (Owns base ((p, .arr (cellSlots pre ++ .ptr c.1 ::
          (cellSlots post ++ [.null]))) :: stringBlocks (pre ++ post))) _ _ :=
        shiftFrom_total (cellSlots pre) (.ptr c.1) (cellSlots post ++ [.null])
      rw [length_cellSlots] at hshift
      rw [hsplit, hcount]
      refine Total.bind hshift fun _ => Total.of_exists fun last => ?_
      refine Total.bind (realloc_total _ _) ?_
      intro q
      rw [take_shrunk]
      exact Total.pure fun m hm => ⟨pre ++ post, (eraseIdx_map_snd pre c post).symm, hm⟩

/-! ## Reading one's own environment -/

theorem OwnsEnv.envPtr {envp : Option ℕ} {l : Option (List CStr)} (h : OwnsEnv base envp l m) :
    EnvPtr m envp l := by
  match envp, l, h with
  | none, none, _ => exact trivial
  | some p, some l, ⟨cells, hcells, h⟩ =>
    subst hcells
    exact envAt_of_owns [] h (by simp) fun b hb => by simp [hb]

theorem OwnsEnv.lookup_base {envp : Option ℕ} {l : Option (List CStr)}
    (h : OwnsEnv base envp l m) {a : ℕ} {b : Block} (hb : base.lookup a = some b) :
    m.lookup a = some b := by
  match envp, l, h with
  | none, none, h => exact Owns.lookup_base h hb
  | some p, some l, ⟨_, _, h⟩ => exact h.lookup_base hb

theorem getenvMem_run {envp : Option ℕ} {l : Option (List CStr)} (h : EnvPtr m envp l)
    (name : CStr) : envbufGetenvMem envp name m = .ok (envbufGetenv l name, m) := by
  match envp, l, h with
  | none, none, _ => rfl
  | some p, some l, h => exact envbufGetenvMem_run h name

end Jbinit.Systemhook
