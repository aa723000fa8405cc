import Mathlib
import Ostinato.Proofs.Disk.Saving

/-!
# Disks that do not fail

If nothing goes wrong, a program on a disk that may fail does what it does on the disk in memory.  So what holds of all
trials of a program holds of its run in memory (`settles_saveWave`, `settles_renderFile`).
-/

namespace Ostinato

variable {α β ε : Type}

/-- Where nothing goes wrong, a program on a disk that fails does what the other one does in memory. -/
def Agrees (program : TrialM α) (plain : StateM FileSystem α) : Prop :=
  ∀ fs seen, ∃ seen', program ⟨fs, [], seen⟩ = (.ok (plain fs).1, ⟨(plain fs).2, [], seen'⟩)

private theorem agrees_pure (a : α) : Agrees (pure a) (pure a) :=
  fun _ seen => ⟨seen, rfl⟩

private theorem Agrees.bind {program : TrialM α} {plain : StateM FileSystem α} {next : α → TrialM β}
    {plainNext : α → StateM FileSystem β} (h : Agrees program plain) (hnext : ∀ a, Agrees (next a) (plainNext a)) :
    Agrees (program >>= next) (plain >>= plainNext) := by
  intro fs seen
  obtain ⟨mid, hmid⟩ := h fs seen
  obtain ⟨last, hlast⟩ := hnext (plain fs).1 (plain fs).2 mid
  refine ⟨last, ?_⟩
  rw [bind_apply, hmid]
  exact hlast

private theorem Agrees.bindExcept {program : ExceptT ε TrialM α} {plain : ExceptT ε (StateM FileSystem) α}
    {next : α → ExceptT ε TrialM β} {plainNext : α → ExceptT ε (StateM FileSystem) β}
    (h : Agrees program.run plain.run) (hnext : ∀ a, Agrees (next a).run (plainNext a).run) :
    Agrees (program >>= next).run (plain >>= plainNext).run := by
  change Agrees (program.run >>= ExceptT.bindCont next) (plain.run >>= ExceptT.bindCont plainNext)
  refine Agrees.bind h fun result => ?_
  cases result with
  | error e => exact agrees_pure _
  | ok a => exact hnext a

private theorem Agrees.map {program : TrialM α} {plain : StateM FileSystem α} (h : Agrees program plain) (f : α → β) :
    Agrees (f <$> program) (f <$> plain) := by
  rw [map_eq_pure_bind, map_eq_pure_bind]
  exact h.bind fun a => agrees_pure (f a)

/-! ### Steps -/

private theorem agrees_step (operation : FileSystem → Except OsError FileSystem) :
    Agrees (Trial.step operation) (FileSystem.perform operation) :=
  fun _ _ => ⟨_, rfl⟩

private theorem agrees_append (path : String) (bytes : List UInt8) :
    Agrees (Trial.disk.append path bytes) (FileSystem.disk.append path bytes) := by
  have hobserve : Agrees (Trial.observe (·.append path bytes)) (FileSystem.perform (·.append path bytes)) :=
    fun _ _ => ⟨_, rfl⟩
  intro fs seen
  -- with no fate of its own the step is done at once, and nothing is behind the buffer
  change ∃ seen', (Except.mapError (Unwritten.mk · (bytes.rdrop 0)) <$> Trial.observe (·.append path bytes))
    ⟨fs, [], seen⟩ = _
  rw [List.rdrop_zero]
  exact hobserve.map _ fs seen

private theorem agrees_read (path : String) : Agrees (Trial.disk.read path) (FileSystem.disk.read path) := by
  intro fs seen
  obtain ⟨seen', hsync⟩ := agrees_step (fun fs => (fs.read path).map fun _ => fs) fs seen
  refine ⟨seen', ?_⟩
  simp only [Trial.disk, bind_apply, hsync, FileSystem.perform, FileSystem.disk]
  cases h : fs.read path with
  | error e => rfl
  | ok bytes =>
    change (Except.ok (fs.read path), _) = _
    rw [h]
    rfl

/-! ### Programs -/

private theorem agrees_giveUp (path : String) (bytes : List UInt8) :
    Agrees (giveUp Trial.disk path bytes) (giveUp FileSystem.disk path bytes) :=
  (agrees_append path bytes).bind fun _ => agrees_pure _

private theorem agrees_writeBytes (path : String) (bytes : List UInt8) :
    Agrees (writeBytes Trial.disk path bytes) (writeBytes FileSystem.disk path bytes) := by
  refine (agrees_append path bytes).bind fun result => ?_
  cases result with
  | ok done => exact agrees_pure _
  | error unwritten => exact (agrees_giveUp path _).bind fun _ => agrees_pure _

private theorem agrees_writeFile (path : String) (written : Written) :
    Agrees (writeFile Trial.disk path written).run (writeFile FileSystem.disk path written).run := by
  refine Agrees.bindExcept ((agrees_step _).map _) fun _ => ?_
  cases written.failure with
  | some cause => exact Agrees.bindExcept ((agrees_giveUp path _).map _) fun _ => agrees_pure _
  | none => exact Agrees.bindExcept ((agrees_writeBytes path _).map _) fun _ => (agrees_step _).map _

section

variable {remove : String → TrialM (Except OsError Unit)}

private theorem agrees_saveWave (hremove : ∀ path, Agrees (remove path) (FileSystem.disk.remove path)) (path : String)
    (samples : List Int16) (sampleRate : UInt32) :
    Agrees (saveWave { Trial.disk with remove } path samples sampleRate)
      (saveWave FileSystem.disk path samples sampleRate) := by
  refine Agrees.bind (Agrees.bindExcept (agrees_writeFile _ _) fun _ => (agrees_step _).map _) fun result => ?_
  cases result with
  | ok done => exact agrees_pure _
  | error e =>
    dsimp only
    split
    · exact (hremove _).bind fun _ => agrees_pure _
    · exact agrees_pure _

private theorem agrees_compileFile (input : String) :
    Agrees (compileFile Trial.disk input) (compileFile FileSystem.disk input) := by
  refine Agrees.bind (Agrees.bind (agrees_read input) fun result => ?_) fun result => ?_
  · cases result with
    | error e => exact agrees_pure _
    | ok bytes =>
      dsimp only
      split <;> exact agrees_pure _
  · cases result <;> exact agrees_pure _

theorem agrees_renderFile (hremove : ∀ path, Agrees (remove path) (FileSystem.disk.remove path))
    (input path : String) (config : RenderConfig) :
    Agrees (renderFile { Trial.disk with remove } input path config)
      (renderFile FileSystem.disk input path config) := by
  refine Agrees.bind (agrees_compileFile input) fun result => ?_
  cases result with
  | error e => exact agrees_pure _
  | ok compiled =>
    dsimp only
    unfold renderToFile
    split
    · exact agrees_pure _
    · refine Agrees.bind (agrees_saveWave hremove _ _ _) fun outcome => ?_
      cases outcome <;> exact agrees_pure _

end

/-! ### Runs in memory -/

/-- What a run in memory leaves at a path: what `replaced` says if it succeeds, what was there before if it fails. -/
def Settles (path : String) (replaced : FileSystem → Prop) (fs : FileSystem)
    (plain : StateM FileSystem (Except ε α)) : Prop :=
  match plain fs with
  | (.ok _, later) => replaced later
  | (.error _, later) => later.held path = fs.held path

private theorem AllOrNothing.settles {path : String} {replaced : FileSystem → Prop} {fs : FileSystem}
    {program : TrialM (Except ε α)} {plain : StateM FileSystem (Except ε α)}
    (h : AllOrNothing path replaced fs program) (hagrees : Agrees program plain) : Settles path replaced fs plain := by
  obtain ⟨seen, hrun⟩ := hagrees fs []
  have hend := (h []).2
  rw [hrun] at hend
  unfold Settles
  rcases hplain : plain fs with ⟨e | a, later⟩ <;> rw [hplain] at hend <;> exact hend

/-- In memory, saving puts the whole file at the path, or fails and leaves there what it found. -/
theorem settles_saveWave (fs : FileSystem) (path : String) (samples : List Int16) (sampleRate : UInt32) :
    Settles path (Saved path (waveBytes samples sampleRate)) fs (saveWave FileSystem.disk path samples sampleRate) :=
  (allOrNothing_saveWave fs path samples sampleRate).settles
    (agrees_saveWave (fun _ => agrees_step _) path samples sampleRate)

theorem settles_renderFile (fs : FileSystem) (input path : String) (config : RenderConfig) :
    Settles path (Played fs input path config) fs (renderFile FileSystem.disk input path config) :=
  (allOrNothing_renderFile fs input path config).settles
    (agrees_renderFile (fun _ => agrees_step _) input path config)

end Ostinato
