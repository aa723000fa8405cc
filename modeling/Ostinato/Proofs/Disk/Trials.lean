import Mathlib
import Ostinato.Disk.FileSystem

/-!
# Disks that fail

A program runs on a disk where anything may go wrong at any step: the operating system refuses it, the program panics
in it, or the process stops before or after it, and what is written reaches the file in pieces of any sizes.  A trial
keeps the file system after every step.

* `Fate`: what becomes of a step.
* `Trial.disk`: the operations on a disk with given fates.
* `Safe`: what holds after every step of a program and at its end, whatever becomes of its steps.
* `Attempts`: the same for a program that may return an error.
-/

namespace Ostinato

/-! ### Fates -/

/-- How a step ends. -/
inductive Ending where
  | done
  /-- Nothing more is done, and the program is told so. -/
  | refused (cause : OsError)
  /-- Nothing more is done, since the program panics. -/
  | panicked
  /-- Nothing more is done, since the process stops. -/
  | stopped
  /-- The step is done, and the process stops after it. -/
  | last

/-- What becomes of a step. -/
structure Fate where
  /-- The sizes of the pieces that are written, if the step writes, before it ends with the rest. -/
  pieces : List Nat := []
  ending : Ending := .done
  /-- The number of bytes behind the buffer, if writing fails: those that have not come to it yet. -/
  behind : Nat := 0

/-- Why a program does not get to its end. -/
inductive Halt where
  | panicked
  | stopped

structure Trial where
  fs : FileSystem
  /-- The fates of the steps to come; those after them are done. -/
  fates : List Fate := []
  /-- The file systems after all steps so far, the last one first. -/
  seen : List FileSystem := []

/-- Programs on disks that fail. -/
abbrev TrialM := ExceptT Halt (StateM Trial)

namespace Trial

/-- An operation whose outcome is seen. -/
def observe (operation : FileSystem → Except OsError FileSystem) : TrialM (Except OsError Unit) :=
  fun trial =>
    let (result, fs) := FileSystem.perform operation trial.fs
    (.ok result, { trial with fs := fs, seen := fs :: trial.seen })

def nextFate : TrialM Fate :=
  fun trial => (.ok (trial.fates.headD {}), { trial with fates := trial.fates.tail })

/-- An operation that ends in the given way. -/
def finish (operation : FileSystem → Except OsError FileSystem) : Ending → TrialM (Except OsError Unit)
  | .done => observe operation
  | .refused cause => observe fun _ => .error cause
  | .panicked => throw .panicked
  | .stopped => throw .stopped
  | .last => do
    let _ ← observe operation
    throw .stopped

def step (operation : FileSystem → Except OsError FileSystem) : TrialM (Except OsError Unit) := do
  finish operation (← nextFate).ending

/-- Adds bytes to a file in pieces of the given sizes; the rest of them ends in the given way.  If that fails, what is
left is in the buffer, but for the given number of bytes at its end. -/
def appendPieces (path : String) (ending : Ending) (behind : Nat) :
    List Nat → List UInt8 → TrialM (Except Unwritten Unit)
  | [], bytes => Except.mapError (⟨·, bytes.rdrop behind⟩) <$> finish (·.append path bytes) ending
  | size :: sizes, bytes => do
    match ← observe (·.append path (bytes.take size)) with
    | .error e => return .error ⟨e, bytes.rdrop behind⟩
    | .ok () => appendPieces path ending behind sizes (bytes.drop size)

def disk : Disk TrialM where
  read path := do
    match ← step fun fs => (fs.read path).map fun _ => fs with
    | .error e => return .error e
    | .ok () => return (← get).fs.read path
  create path := step (·.create path)
  append path bytes := do
    let fate ← nextFate
    appendPieces path fate.ending fate.behind fate.pieces bytes
  sync path := step fun fs => (fs.read path).map fun _ => fs
  rename source target := step (·.rename source target)
  remove path := step (·.remove path)

end Trial

/-! ### Safety -/

section

variable {α β ε : Type} {kept replaced pre : FileSystem → Prop}

/-- What a program that comes to the given end may leave, where `post` is asked of what it returns. -/
def Leaves (kept replaced : FileSystem → Prop) (post : α → FileSystem → Prop) :
    Except Halt α → FileSystem → Prop
  | .ok a => post a
  | .error .panicked => kept
  | .error .stopped => fun fs => kept fs ∨ replaced fs

/-- Started where `pre` holds, a program shows only file systems that are `kept` or `replaced`, leaves one that is
`kept` where it panics, and returns with `post`, whatever becomes of its steps. -/
def Safe (kept replaced pre : FileSystem → Prop) (program : TrialM α) (post : α → FileSystem → Prop) : Prop :=
  ∀ trial : Trial, pre trial.fs → (∀ fs ∈ trial.seen, kept fs ∨ replaced fs) →
    (∀ fs ∈ (program trial).2.seen, kept fs ∨ replaced fs) ∧
      Leaves kept replaced post (program trial).1 (program trial).2.fs

theorem safe_pure {post : α → FileSystem → Prop} {a : α} (h : ∀ fs, pre fs → post a fs) :
    Safe kept replaced pre (pure a) post :=
  fun trial hpre hseen => ⟨hseen, h trial.fs hpre⟩

private theorem safe_panicked {post : α → FileSystem → Prop} (h : ∀ fs, pre fs → kept fs) :
    Safe kept replaced pre (throw .panicked) post :=
  fun trial hpre hseen => ⟨hseen, h trial.fs hpre⟩

private theorem safe_stopped {post : α → FileSystem → Prop} (h : ∀ fs, pre fs → kept fs ∨ replaced fs) :
    Safe kept replaced pre (throw .stopped) post :=
  fun trial hpre hseen => ⟨hseen, h trial.fs hpre⟩

theorem bind_apply (program : TrialM α) (next : α → TrialM β) (trial : Trial) :
    (program >>= next) trial =
      match program trial with
      | (.ok a, later) => next a later
      | (.error halt, later) => (.error halt, later) := by
  simp only [Bind.bind, ExceptT.bind, ExceptT.mk, StateT.bind, ExceptT.bindCont]
  rcases program trial with ⟨_ | _, _⟩ <;> rfl

theorem Safe.bind {program : TrialM α} {next : α → TrialM β} {mid : α → FileSystem → Prop}
    {post : β → FileSystem → Prop} (h : Safe kept replaced pre program mid)
    (hnext : ∀ a, Safe kept replaced (mid a) (next a) post) : Safe kept replaced pre (program >>= next) post := by
  intro trial hpre hseen
  obtain ⟨hseen, hend⟩ := h trial hpre hseen
  rw [bind_apply]
  rcases hrun : program trial with ⟨halt | a, later⟩ <;> rw [hrun] at hseen hend
  · cases halt <;> exact ⟨hseen, hend⟩
  · exact hnext a later hend hseen

theorem Safe.of_imp {program : TrialM α} {pre' : FileSystem → Prop} {post : α → FileSystem → Prop}
    (h : Safe kept replaced pre' program post) (himp : ∀ fs, pre fs → pre' fs) :
    Safe kept replaced pre program post :=
  fun trial hpre hseen => h trial (himp _ hpre) hseen

/-- A program is safe if it is safe from every file system where it may start. -/
theorem safe_of_forall {program : TrialM α} {post : α → FileSystem → Prop}
    (h : ∀ fs, pre fs → Safe kept replaced (· = fs) program post) : Safe kept replaced pre program post :=
  fun trial hpre hseen => h trial.fs hpre trial rfl hseen

private theorem Safe.imp {program : TrialM α} {post post' : α → FileSystem → Prop}
    (h : Safe kept replaced pre program post) (himp : ∀ a fs, post a fs → post' a fs) :
    Safe kept replaced pre program post' := by
  have hbind := h.bind fun a => safe_pure (himp a)
  rwa [bind_pure] at hbind

/-- Started where `pre` holds, a program is safe and returns a value with `post`, or it returns an error and what was
there is `kept`. -/
def Attempts (kept replaced pre : FileSystem → Prop) (program : TrialM (Except ε α))
    (post : α → FileSystem → Prop) : Prop :=
  Safe kept replaced pre program fun
    | .ok a => post a
    | .error _ => kept

theorem Attempts.bind {program : ExceptT ε TrialM α} {next : α → ExceptT ε TrialM β}
    {mid : α → FileSystem → Prop} {post : β → FileSystem → Prop} (h : Attempts kept replaced pre program.run mid)
    (hnext : ∀ a, Attempts kept replaced (mid a) (next a).run post) :
    Attempts kept replaced pre (program >>= next).run post := by
  refine Safe.bind h fun result => ?_
  cases result with
  | error e => exact safe_pure fun fs hfs => hfs
  | ok a => exact hnext a

/-- A program that returns no error in a program that may. -/
theorem Safe.lift {program : TrialM α} {post : α → FileSystem → Prop} (h : Safe kept replaced pre program post) :
    Attempts kept replaced pre (ExceptT.lift program : ExceptT ε TrialM α).run post := by
  change Safe kept replaced pre (Except.ok <$> program) _
  rw [map_eq_pure_bind]
  exact h.bind fun a => safe_pure fun fs hfs => hfs

theorem Attempts.imp {program : TrialM (Except ε α)} {post post' : α → FileSystem → Prop}
    (h : Attempts kept replaced pre program post) (himp : ∀ a fs, post a fs → post' a fs) :
    Attempts kept replaced pre program post' := by
  refine Safe.imp h fun result fs hfs => ?_
  cases result with
  | error e => exact hfs
  | ok a => exact himp a fs hfs

theorem Attempts.mapError {ε' : Type} {program : TrialM (Except ε α)} {post : α → FileSystem → Prop}
    (h : Attempts kept replaced pre program post) (f : ε → ε') :
    Attempts kept replaced pre (Except.mapError f <$> program) post := by
  rw [map_eq_pure_bind]
  refine Safe.bind h fun result => ?_
  cases result <;> exact safe_pure fun fs hfs => hfs

/-! ### Steps -/

variable {operation : FileSystem → Except OsError FileSystem} {post : FileSystem → Prop}

/-- What an operation leads to is what it leads to where its outcome is seen. -/
theorem safe_observe {post : Except OsError Unit → FileSystem → Prop}
    (hkept : ∀ result fs, post result fs → kept fs ∨ replaced fs)
    (hok : ∀ fs fs', pre fs → operation fs = .ok fs' → post (.ok ()) fs')
    (herror : ∀ fs e, pre fs → operation fs = .error e → post (.error e) fs) :
    Safe kept replaced pre (Trial.observe operation) post := by
  intro trial hpre hseen
  cases hrun : operation trial.fs with
  | error e =>
    have hobserve : Trial.observe operation trial =
        (.ok (.error e), ⟨trial.fs, trial.fates, trial.fs :: trial.seen⟩) := by
      rw [Trial.observe, FileSystem.perform, hrun]
    have hfs := herror _ e hpre hrun
    rw [hobserve]
    exact ⟨List.forall_mem_cons.2 ⟨hkept _ _ hfs, hseen⟩, hfs⟩
  | ok fs =>
    have hobserve : Trial.observe operation trial = (.ok (.ok ()), ⟨fs, trial.fates, fs :: trial.seen⟩) := by
      rw [Trial.observe, FileSystem.perform, hrun]
    have hfs := hok _ _ hpre hrun
    rw [hobserve]
    exact ⟨List.forall_mem_cons.2 ⟨hkept _ _ hfs, hseen⟩, hfs⟩

private theorem safe_finish {post : Except OsError Unit → FileSystem → Prop} (hkept : ∀ fs, pre fs → kept fs)
    (hpost : ∀ result fs, post result fs → kept fs ∨ replaced fs)
    (hok : ∀ fs fs', pre fs → operation fs = .ok fs' → post (.ok ()) fs')
    (herror : ∀ fs e, pre fs → post (.error e) fs) (ending : Ending) :
    Safe kept replaced pre (Trial.finish operation ending) post := by
  have hobserve : Safe kept replaced pre (Trial.observe operation) post :=
    safe_observe hpost hok fun fs e hpre _ => herror fs e hpre
  cases ending with
  | done => exact hobserve
  | refused cause => exact safe_observe hpost (fun _ _ _ h => nomatch h) fun fs e hpre _ => herror fs e hpre
  | panicked => exact safe_panicked hkept
  | stopped => exact safe_stopped fun fs hfs => .inl (hkept fs hfs)
  | last => exact hobserve.bind fun result => safe_stopped (hpost result)

private theorem safe_nextFate : Safe kept replaced pre Trial.nextFate fun _ => pre :=
  fun _ hpre hseen => ⟨hseen, hpre⟩

theorem safe_step {post : Except OsError Unit → FileSystem → Prop} (hkept : ∀ fs, pre fs → kept fs)
    (hpost : ∀ result fs, post result fs → kept fs ∨ replaced fs)
    (hok : ∀ fs fs', pre fs → operation fs = .ok fs' → post (.ok ()) fs')
    (herror : ∀ fs e, pre fs → post (.error e) fs) : Safe kept replaced pre (Trial.step operation) post :=
  safe_nextFate.bind fun fate => safe_finish hkept hpost hok herror fate.ending

/-- If an operation leads from `pre` to `post`, so it does as a step, which may also do nothing. -/
private theorem attempts_finish (hkept : ∀ fs, pre fs → kept fs) (hpost : ∀ fs, post fs → kept fs ∨ replaced fs)
    (hoperation : ∀ fs fs', pre fs → operation fs = .ok fs' → post fs') (ending : Ending) :
    Attempts kept replaced pre (Trial.finish operation ending) fun _ => post := by
  refine safe_finish hkept (fun result fs hfs => ?_) hoperation (fun fs e hpre => hkept fs hpre) ending
  cases result with
  | error e => exact .inl hfs
  | ok done => exact hpost fs hfs

private theorem attempts_observe (hkept : ∀ fs, pre fs → kept fs) (hpost : ∀ fs, post fs → kept fs ∨ replaced fs)
    (hoperation : ∀ fs fs', pre fs → operation fs = .ok fs' → post fs') :
    Attempts kept replaced pre (Trial.observe operation) fun _ => post :=
  attempts_finish hkept hpost hoperation .done

theorem attempts_step (hkept : ∀ fs, pre fs → kept fs) (hpost : ∀ fs, post fs → kept fs ∨ replaced fs)
    (hoperation : ∀ fs fs', pre fs → operation fs = .ok fs' → post fs') :
    Attempts kept replaced pre (Trial.step operation) fun _ => post :=
  safe_nextFate.bind fun fate => attempts_finish hkept hpost hoperation fate.ending

/-- What holds whenever some of the bytes are added holds when they are all added in pieces. -/
private theorem attempts_appendPieces {path : String} {holding : List UInt8 → FileSystem → Prop}
    (hkept : ∀ bytes fs, holding bytes fs → kept fs)
    (happend : ∀ old bytes fs fs', holding old fs → fs.append path bytes = .ok fs' → holding (old ++ bytes) fs')
    (ending : Ending) (behind : Nat) (sizes : List Nat) (old bytes : List UInt8) :
    Attempts kept replaced (holding old) (Trial.appendPieces path ending behind sizes bytes) fun _ =>
      holding (old ++ bytes) := by
  induction sizes generalizing old bytes with
  | nil =>
    have hrest : Attempts kept replaced (holding old) (Trial.finish (·.append path bytes) ending) fun _ =>
        holding (old ++ bytes) :=
      attempts_finish (hkept old) (fun fs hfs => .inl (hkept _ fs hfs)) (happend old bytes) ending
    exact hrest.mapError _
  | cons size sizes ih =>
    refine Safe.bind (attempts_observe (hkept old) (fun fs hfs => .inl (hkept _ fs hfs))
      (happend old (bytes.take size))) fun result => ?_
    cases result with
    | error e => exact safe_pure fun fs hfs => hfs
    | ok done =>
      have hrest := ih (old ++ bytes.take size) (bytes.drop size)
      rwa [List.append_assoc, List.take_append_drop] at hrest

theorem attempts_append {path : String} {holding : List UInt8 → FileSystem → Prop}
    (hkept : ∀ bytes fs, holding bytes fs → kept fs)
    (happend : ∀ old bytes fs fs', holding old fs → fs.append path bytes = .ok fs' → holding (old ++ bytes) fs')
    (old bytes : List UInt8) :
    Attempts kept replaced (holding old) (Trial.disk.append path bytes) fun _ => holding (old ++ bytes) :=
  safe_nextFate.bind fun fate => attempts_appendPieces hkept happend fate.ending fate.behind fate.pieces old bytes

theorem eq_of_sync {path : String} {fs fs' : FileSystem} (h : ((fs.read path).map fun _ => fs) = .ok fs') :
    fs' = fs := by
  cases hbytes : fs.read path with
  | error e =>
    rw [hbytes] at h
    cases h
  | ok bytes =>
    rw [hbytes] at h
    exact (Except.ok.inj h).symm

theorem attempts_sync {path : String} (hkept : ∀ fs, pre fs → kept fs) :
    Attempts kept replaced pre (Trial.disk.sync path) fun _ => pre :=
  attempts_step hkept (fun fs hfs => .inl (hkept fs hfs)) fun _ _ hfs hread => eq_of_sync hread ▸ hfs

/-- What is read stands in the file, and nothing changes. -/
theorem attempts_read {path : String} (hkept : ∀ fs, pre fs → kept fs) :
    Attempts kept replaced pre (Trial.disk.read path) fun bytes fs => pre fs ∧ fs.read path = .ok bytes := by
  refine Safe.bind (attempts_sync hkept) fun result => ?_
  cases result with
  | error e => exact safe_pure fun fs hfs => hfs
  | ok done =>
    intro trial hpre hseen
    refine ⟨hseen, ?_⟩
    change Leaves kept replaced _ (.ok (trial.fs.read path)) trial.fs
    cases hbytes : trial.fs.read path with
    | error e => exact hkept _ hpre
    | ok bytes => exact ⟨hpre, hbytes⟩

end

end Ostinato
