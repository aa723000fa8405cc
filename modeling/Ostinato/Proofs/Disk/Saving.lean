import Mathlib
import Ostinato.Disk.Studio
import Ostinato.Proofs.Disk.Changes
import Ostinato.Proofs.Disk.Trials

/-!
# Saving is all or nothing

Whatever goes wrong while an audio file is saved, its path holds what it held before or the whole file, at every
moment; it holds the file if saving succeeds, and what it held before if saving fails.  The steps before the last one
change nothing but the file beside the path, and the last one puts that file, which is complete by then, in its place.

* `Saved`, `Played`: a path leads to the whole audio file of samples, or of a program text in another file.
* `AllOrNothing`: a program leaves what a path holds or replaces it at once, whatever becomes of its steps.
* `allOrNothing_saveWave`, `allOrNothing_renderFile`: both ways of saving are all or nothing.
-/

namespace Ostinato

open FileSystem

variable {α ε : Type}

/-- The path leads to a file with everything that was written, and all of it could be written. -/
def Saved (path : String) (written : Written) (fs : FileSystem) : Prop :=
  written.failure = none ∧ fs.Holds path written.taken.toList

/-! ### Writing -/

section

variable {path : String} {kept replaced : FileSystem → Prop} {holding : List UInt8 → FileSystem → Prop}

/-- Giving a writer up leaves what further bytes in its file leave. -/
private theorem safe_giveUp (hgiveUp : ∀ bytes fs fs', kept fs → fs.append path bytes = .ok fs' → kept fs')
    (bytes : List UInt8) : Safe kept replaced kept (giveUp Trial.disk path bytes) fun _ => kept := by
  have happend : Attempts kept replaced kept (Trial.disk.append path bytes) fun _ => kept :=
    @attempts_append _ _ _ (fun _ => kept) (fun _ _ hfs => hfs) (fun _ => hgiveUp) [] bytes
  refine Safe.bind happend fun result => ?_
  cases result <;> exact safe_pure fun fs hfs => hfs

/-- What holds whenever some of the bytes are in the file holds when all of them are, and after a failure what further
bytes leave. -/
private theorem attempts_writeBytes (hkept : ∀ bytes fs, holding bytes fs → kept fs)
    (happend : ∀ old bytes fs fs', holding old fs → fs.append path bytes = .ok fs' → holding (old ++ bytes) fs')
    (hgiveUp : ∀ bytes fs fs', kept fs → fs.append path bytes = .ok fs' → kept fs') (old bytes : List UInt8) :
    Attempts kept replaced (holding old) (writeBytes Trial.disk path bytes) fun _ => holding (old ++ bytes) := by
  refine Safe.bind (attempts_append hkept happend old bytes) fun result => ?_
  cases result with
  | ok done => exact safe_pure fun fs hfs => hfs
  | error unwritten => exact (safe_giveUp hgiveUp _).bind fun _ => safe_pure fun fs hfs => hfs

theorem attempts_writeFile (hcreate : ∀ fs fs', kept fs → fs.create path = .ok fs' → holding [] fs')
    (hkept : ∀ bytes fs, holding bytes fs → kept fs)
    (happend : ∀ old bytes fs fs', holding old fs → fs.append path bytes = .ok fs' → holding (old ++ bytes) fs')
    (hgiveUp : ∀ bytes fs fs', kept fs → fs.append path bytes = .ok fs' → kept fs') (written : Written) :
    Attempts kept replaced kept (writeFile Trial.disk path written).run fun _ fs =>
      written.failure = none ∧ holding written.taken.toList fs := by
  have hnew : Attempts kept replaced kept (Trial.disk.create path) fun _ => holding [] :=
    attempts_step (fun fs hfs => hfs) (fun fs hfs => .inl (hkept _ fs hfs)) hcreate
  refine Attempts.bind (hnew.mapError _) fun _ => ?_
  cases hfailure : written.failure with
  | some cause =>
    have hgiven : Safe kept replaced (holding []) (giveUp Trial.disk path written.taken.toList) fun _ => kept :=
      (safe_giveUp hgiveUp _).of_imp (hkept [])
    exact Attempts.bind hgiven.lift fun _ => safe_pure fun fs hfs => hfs
  | none =>
    have hbytes : Attempts kept replaced (holding []) (writeBytes Trial.disk path written.taken.toList) fun _ =>
        holding written.taken.toList :=
      attempts_writeBytes hkept happend hgiveUp [] written.taken.toList
    have hsync : Attempts kept replaced (holding written.taken.toList) (Trial.disk.sync path) fun _ =>
        holding written.taken.toList :=
      attempts_sync (hkept written.taken.toList)
    refine Attempts.bind (hbytes.mapError _) fun _ => ?_
    exact (hsync.mapError _).imp fun _ fs hfs => ⟨rfl, hfs⟩

end

/-! ### Saving -/

section

variable {path : String} {old : Except OsError (Option Node)} {replaced : FileSystem → Prop}

/-- The path holds what it held, and the file beside it the given bytes. -/
private def Holding (path : String) (old : Except OsError (Option Node)) (bytes : List UInt8) (fs : FileSystem) : Prop :=
  fs.held path = old ∧ fs.Holds (Path.partialPath path) bytes

private theorem attempts_saveWave {samples : List Int16} {sampleRate : UInt32}
    (hreplaced : ∀ fs, Saved path (waveBytes samples sampleRate) fs → replaced fs) :
    Attempts (·.held path = old) replaced (·.held path = old) (saveWave Trial.disk path samples sampleRate)
      fun _ => replaced := by
  have hrename : Attempts (·.held path = old) replaced
      (fun fs => (waveBytes samples sampleRate).failure = none ∧
        Holding path old (waveBytes samples sampleRate).taken.toList fs)
      (Trial.disk.rename (Path.partialPath path) path) fun _ => replaced := by
    refine attempts_step (fun fs hfs => hfs.2.1) (fun fs hfs => .inr hfs) fun fs fs' hfs h => ?_
    refine hreplaced fs' ⟨hfs.1, ?_⟩
    obtain ⟨bytes, hsource, htarget⟩ := exists_holds_of_rename h
    rw [hfs.2.2.unique hsource]
    exact htarget
  have hremove : Attempts (·.held path = old) replaced (·.held path = old)
      (Trial.disk.remove (Path.partialPath path)) fun _ fs => fs.held path = old :=
    attempts_step (fun fs hfs => hfs) (fun fs hfs => .inl hfs) fun fs fs' hfs h =>
      (changes_of_remove h).held_eq_of_partialPath.trans hfs
  have hwrite : Attempts (·.held path = old) replaced (·.held path = old)
      (writeFile Trial.disk (Path.partialPath path) (waveBytes samples sampleRate)).run fun _ fs =>
        (waveBytes samples sampleRate).failure = none ∧
          Holding path old (waveBytes samples sampleRate).taken.toList fs :=
    attempts_writeFile
      (fun fs fs' hfs h => ⟨(changes_of_create h).held_eq_of_partialPath.trans hfs, holds_of_create h⟩)
      (fun _ fs hfs => hfs.1)
      (fun _ _ fs fs' hfs h => ⟨(changes_of_append h).held_eq_of_partialPath.trans hfs.1, hfs.2.append h⟩)
      (fun _ fs fs' hfs h => (changes_of_append h).held_eq_of_partialPath.trans hfs) (waveBytes samples sampleRate)
  refine Safe.bind (Attempts.bind hwrite fun _ => hrename.mapError _) fun result => ?_
  cases result with
  | ok done => exact safe_pure fun fs hfs => hfs
  | error e =>
    dsimp only
    split
    · refine Safe.bind hremove fun removed => ?_
      cases removed <;> exact safe_pure fun fs hfs => hfs
    · exact safe_pure fun fs hfs => hfs

end

/-! ### From file to file -/

/-- The text of a file. -/
def HasText (fs : FileSystem) (input source : String) : Prop :=
  ∃ bytes, fs.read input = .ok bytes ∧ String.fromUTF8? ⟨bytes.toArray⟩ = some source

/-- What the program text in a file is rendered to. -/
def Renders (fs : FileSystem) (input : String) (config : RenderConfig) (result : Render) : Prop :=
  ∃ source, HasText fs input source ∧ render (compile source).program config = .ok result

/-- A path leads to the audio file of the program text that was in another file. -/
def Played (fs : FileSystem) (input path : String) (config : RenderConfig) (later : FileSystem) : Prop :=
  ∃ result, Renders fs input config result ∧
    Saved path (waveBytes (quantizeAll result.master) config.sampleRate) later

section

variable {fs : FileSystem} {input path : String} {kept replaced : FileSystem → Prop}

private theorem attempts_readText (hkept : kept fs) :
    Attempts kept replaced (· = fs) (readText Trial.disk input) fun source later =>
      later = fs ∧ HasText fs input source := by
  refine Safe.bind (attempts_read (by rintro later rfl; exact hkept)) fun result => ?_
  cases result with
  | error e => exact safe_pure fun later hlater => hlater
  | ok bytes =>
    dsimp only
    split
    · exact safe_pure fun later hlater => hlater.1 ▸ hkept
    · rename_i source hsource
      refine safe_pure fun later hlater => ?_
      obtain ⟨rfl, hread⟩ := hlater
      exact ⟨rfl, bytes, hread, hsource⟩

private theorem attempts_compileFile (hkept : kept fs) :
    Attempts kept replaced (· = fs) (compileFile Trial.disk input) fun compiled later =>
      later = fs ∧ ∃ source, HasText fs input source ∧ compiled = ⟨source, compile source⟩ := by
  refine Safe.bind (attempts_readText hkept) fun result => ?_
  cases result with
  | error e => exact safe_pure fun later hlater => hlater
  | ok source => exact safe_pure fun later hlater => ⟨hlater.1, source, hlater.2, rfl⟩

private theorem attempts_renderToFile {program : Program} {config : RenderConfig} {old : Except OsError (Option Node)}
    (hreplaced : ∀ result later, render program config = .ok result →
      Saved path (waveBytes (quantizeAll result.master) config.sampleRate) later → replaced later) :
    Attempts (·.held path = old) replaced (·.held path = old) (renderToFile Trial.disk program path config)
      fun _ => replaced := by
  unfold renderToFile
  split
  · exact safe_pure fun later hlater => hlater
  · rename_i result hresult
    refine Safe.bind (attempts_saveWave (hreplaced result · hresult)) fun outcome => ?_
    cases outcome with
    | error e => exact safe_pure fun later hlater => hlater
    | ok saved => exact safe_pure fun later hlater => hlater

private theorem attempts_renderFile {config : RenderConfig} :
    Attempts (·.held path = fs.held path) (Played fs input path config) (· = fs)
      (renderFile Trial.disk input path config) fun _ => Played fs input path config := by
  refine Safe.bind (attempts_compileFile rfl) fun result => ?_
  cases result with
  | error e => exact safe_pure fun later hlater => hlater
  | ok compiled =>
    refine safe_of_forall fun later hlater => ?_
    obtain ⟨rfl, source, hsource, rfl⟩ := hlater
    have hsave : Attempts (·.held path = later.held path) (Played later input path config)
        (·.held path = later.held path) (renderToFile Trial.disk (compile source).program path config)
        fun _ => Played later input path config :=
      attempts_renderToFile fun result final hresult hsaved => ⟨result, ⟨source, hsource, hresult⟩, hsaved⟩
    exact hsave.of_imp fun start hstart => hstart ▸ rfl

end

/-! ### All or nothing -/

/-- Whatever becomes of its steps, a program leaves at a path what was there before or puts in its place what `replaced`
says: one of the two after every step, and at the end the latter if it succeeds, and the former if it returns an error,
be it one that ends the program at once, or panics. -/
def AllOrNothing (path : String) (replaced : FileSystem → Prop) (fs : FileSystem) (program : TrialM (Except ε α)) :
    Prop :=
  ∀ fates,
    (∀ later ∈ (program ⟨fs, fates, []⟩).2.seen, later.held path = fs.held path ∨ replaced later) ∧
      match program ⟨fs, fates, []⟩ with
      | (.ok (.ok _), final) => replaced final.fs
      | (.ok (.error _), final) => final.fs.held path = fs.held path
      | (.error .panicked, final) => final.fs.held path = fs.held path
      | (.error .stopped, final) => final.fs.held path = fs.held path ∨ replaced final.fs

private theorem allOrNothing_of_attempts {path : String} {replaced : FileSystem → Prop} {fs : FileSystem}
    {program : TrialM (Except ε α)}
    (h : Attempts (·.held path = fs.held path) replaced (· = fs) program fun _ => replaced) :
    AllOrNothing path replaced fs program := by
  intro fates
  obtain ⟨hseen, hend⟩ := h ⟨fs, fates, []⟩ rfl (List.forall_mem_nil _)
  refine ⟨hseen, ?_⟩
  rcases hrun : program ⟨fs, fates, []⟩ with ⟨halt | e | a, final⟩ <;> rw [hrun] at hend
  · cases halt <;> exact hend
  · exact hend
  · exact hend

theorem allOrNothing_saveWave (fs : FileSystem) (path : String) (samples : List Int16) (sampleRate : UInt32) :
    AllOrNothing path (Saved path (waveBytes samples sampleRate)) fs
      (saveWave Trial.disk path samples sampleRate) := by
  refine allOrNothing_of_attempts (Safe.of_imp (attempts_saveWave fun later hlater => hlater) ?_)
  exact fun start hstart => hstart ▸ rfl

theorem allOrNothing_renderFile (fs : FileSystem) (input path : String) (config : RenderConfig) :
    AllOrNothing path (Played fs input path config) fs (renderFile Trial.disk input path config) :=
  allOrNothing_of_attempts attempts_renderFile

/-- Saving samples is all or nothing, and so is saving what the program text in a file is rendered to. -/
theorem allOrNothing_save (fs : FileSystem) (path : String) :
    (∀ samples sampleRate, AllOrNothing path (Saved path (waveBytes samples sampleRate)) fs
      (saveWave Trial.disk path samples sampleRate)) ∧
    ∀ input config, AllOrNothing path (Played fs input path config) fs
      (renderFile Trial.disk input path config) :=
  ⟨allOrNothing_saveWave fs path, fun input config => allOrNothing_renderFile fs input path config⟩

end Ostinato
