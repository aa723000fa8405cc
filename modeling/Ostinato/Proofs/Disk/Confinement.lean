import Mathlib
import Ostinato.Proofs.Disk.Agreement

/-!
# Saving touches two files

Whatever goes wrong while a program text is made an audio file, nothing is made, changed or removed but the file at its
path and the one beside it that is written first, at every moment.  Of the latter nothing is left when saving ends,
unless its removal is refused or a sample rate overflows: its place holds what it held, or nothing.  A file that happens
to stand in that place is lost, even if it is the program text itself (`renderFile_replaces_input`).

* `Confined`: nothing but these two files is touched, so any other path holds what it held (`Confined.held_eq`).
* `Tidied`: nothing is left of the file that is written first.
* `renderFile_confined`: both, in memory and on disks that fail.
-/

namespace Ostinato

namespace FileSystem

variable {fs fs' fs'' : FileSystem} {location other : Location} {path : String}

/-! ### The same directories -/

theorem SameDirectories.refl (fs : FileSystem) : SameDirectories fs fs :=
  ⟨rfl, fun _ => Iff.rfl⟩

theorem SameDirectories.symm (h : SameDirectories fs fs') : SameDirectories fs' fs :=
  ⟨h.home_eq.symm, fun location => (h.lookup_iff location).symm⟩

theorem SameDirectories.trans (h : SameDirectories fs fs') (h' : SameDirectories fs' fs'') :
    SameDirectories fs fs'' :=
  ⟨h'.home_eq.trans h.home_eq, fun location => (h'.lookup_iff location).trans (h.lookup_iff location)⟩

private theorem SameDirectories.resolve_iff (h : SameDirectories fs fs') :
    fs'.resolve path = .ok location ↔ fs.resolve path = .ok location :=
  ⟨h.symm.resolve_eq, h.resolve_eq⟩

/-! ### The place of the file that is written first -/

private theorem eq_of_walk_of_isHere {names : List String} (hnames : ∀ name ∈ names, Path.isHere name = true)
    (h : fs.walk other names = .ok location) : location = other := by
  induction names with
  | nil => exact (Except.ok.inj h).symm
  | cons name names ih =>
    obtain ⟨hname, hnames⟩ := List.forall_mem_cons.1 hnames
    have hdirectory := directory_of_walk_cons h
    rw [walk_cons hdirectory, if_pos hname] at h
    exact ih hnames h

/-- A walk that avoids a name does not end at it. -/
private theorem walk_ne_of_avoids {name : String} {rest : List String} (hrest : Path.Avoids name rest) :
    fs.walk other rest ≠ .ok (other ++ [name]) := by
  induction rest with
  | nil =>
    intro h
    simpa using Except.ok.inj h
  | cons segment rest ih =>
    intro h
    rw [Path.Avoids] at hrest
    have hdirectory := directory_of_walk_cons h
    rw [walk_cons hdirectory] at h
    split_ifs at hrest h with hhere hup
    · exact ih hrest h
    · exact hrest.1 hup
    · have hlocation := eq_of_walk_of_isHere hrest.2.2 h
      exact hrest.2.1 (by simpa using hlocation.symm)

/-- The file that is written first does not stand where the other one does. -/
private theorem resolve_partialPath_ne (h : fs.resolve path = .ok location) :
    fs.resolve (Path.partialPath path) ≠ .ok location := by
  intro hbeside
  obtain ⟨⟨⟩, hcheck, hwalk⟩ := exists_of_bind_eq_ok h
  obtain ⟨-, -, hwalkBeside⟩ := exists_of_bind_eq_ok hbeside
  obtain ⟨kept, rest, name, hpath, hrest, hsegments, hhere, hup, hstart⟩ :=
    Path.isBeside_partialPath (ne_empty_of_checkPath hcheck)
  rw [hsegments] at hwalkBeside
  obtain ⟨directory, hkept, -, rfl⟩ := exists_of_walk_concat hhere hup hwalkBeside
  rw [start, ← hstart] at hkept
  rw [hpath, walk_append, start, hkept] at hwalk
  exact walk_ne_of_avoids hrest hwalk

/-- A file that is moved is changed, and so is the one in whose place it is moved. -/
private theorem exists_changes_of_rename {source target : String} (h : fs.rename source target = .ok fs') :
    ∃ mid, Changes source fs mid ∧ Changes target mid fs' ∧
      ∃ old, fs.resolve source = .ok old ∧ (fs.resolve target ≠ .ok old → fs'.lookup old = none) := by
  obtain ⟨old, new, bytes, hold, hnew, hbytes, hdirectory, rfl⟩ := exists_of_rename h
  have herase := changesOnly_erase (ne_directory_of_lookup hbytes)
  have hinsert : ChangesOnly new (fs.erase old) ((fs.erase old).insert new (.file bytes)) :=
    changesOnly_insert fun hfound => hdirectory ((herase.sameDirectories.lookup_iff new).1 hfound)
  refine ⟨fs.erase old, ⟨old, hold, herase⟩, ⟨new, herase.sameDirectories.resolve_eq hnew, hinsert⟩, old, hold, ?_⟩
  intro hne
  have hother : old ≠ new := by
    rintro rfl
    exact hne hnew
  rw [hinsert.lookup_eq old hother]
  exact lookup_erase_self (ne_nil_of_lookup_ne_directory herase.before)

end FileSystem

open FileSystem

variable {α ε : Type}

/-! ### Confinement -/

/-- The directories are the same, and so is everything but the file at a path and the one that is written before it. -/
structure Confined (path : String) (fs later : FileSystem) : Prop where
  sameDirectories : SameDirectories fs later
  lookup_eq : ∀ location, fs.resolve path ≠ .ok location → fs.resolve (Path.partialPath path) ≠ .ok location →
    later.lookup location = fs.lookup location

/-- Nothing is left of the file that is written before the one at a path: its place holds what it held, or nothing. -/
def Tidied (path : String) (fs later : FileSystem) : Prop :=
  ∀ location, fs.resolve (Path.partialPath path) = .ok location →
    later.lookup location = fs.lookup location ∨ later.lookup location = none

section

variable {path other : String} {fs mid later : FileSystem}

theorem Confined.refl (path : String) (fs : FileSystem) : Confined path fs fs :=
  ⟨.refl fs, fun _ _ _ => rfl⟩

theorem Tidied.refl (path : String) (fs : FileSystem) : Tidied path fs fs :=
  fun _ _ => .inl rfl

/-- A path to any other file or directory still leads to it, and it holds what it held. -/
theorem Confined.held_eq {location : Location} (h : Confined path fs later) (hother : fs.resolve other = .ok location)
    (hpath : fs.resolve path ≠ .ok location) (hbeside : fs.resolve (Path.partialPath path) ≠ .ok location) :
    later.held other = fs.held other := by
  rw [held, held, hother, h.sameDirectories.resolve_eq hother]
  exact congrArg Except.ok (h.lookup_eq location hpath hbeside)

/-- A change of one of the two files adds nothing to what is touched. -/
private theorem Confined.change (h : Confined path fs mid) (hchange : Changes other mid later)
    (hother : other = path ∨ other = Path.partialPath path) : Confined path fs later := by
  obtain ⟨location, hlocation, hchange⟩ := hchange
  refine ⟨h.sameDirectories.trans hchange.sameDirectories, fun found hpath hbeside => ?_⟩
  have hlocation := h.sameDirectories.resolve_iff.1 hlocation
  have hfound : found ≠ location := by
    rintro rfl
    rcases hother with rfl | rfl
    · exact hpath hlocation
    · exact hbeside hlocation
  rw [hchange.lookup_eq found hfound, h.lookup_eq found hpath hbeside]

/-- Moving the file that is written first in the place of the other one touches these two only, and nothing is left
of the former. -/
private theorem Confined.rename (h : Confined path fs mid)
    (hrename : mid.rename (Path.partialPath path) path = .ok later) :
    Confined path fs later ∧ Tidied path fs later := by
  obtain ⟨between, hsource, htarget, old, hold, hgone⟩ := exists_changes_of_rename hrename
  refine ⟨(h.change hsource (.inr rfl)).change htarget (.inl rfl), fun location hlocation => .inr ?_⟩
  obtain rfl : old = location :=
    Except.ok.inj (hold.symm.trans (h.sameDirectories.resolve_eq hlocation))
  exact hgone fun hpath => resolve_partialPath_ne hpath hold

/-- When the file that is written first is removed, nothing is left of it, and if it cannot be, nothing is there. -/
private theorem Confined.remove (h : Confined path fs mid) :
    match mid.remove (Path.partialPath path) with
    | .ok later => Confined path fs later ∧ Tidied path fs later
    | .error _ => Tidied path fs mid := by
  split
  · rename_i later hremove
    refine ⟨h.change (changes_of_remove hremove) (.inr rfl), fun location hlocation => .inr ?_⟩
    obtain ⟨found, old, hfound, hold, rfl⟩ := exists_of_remove hremove
    obtain rfl : found = location :=
      Except.ok.inj (hfound.symm.trans (h.sameDirectories.resolve_eq hlocation))
    exact lookup_erase_self (ne_nil_of_lookup_ne_directory (ne_directory_of_lookup hold))
  · rename_i e hremove
    intro location hlocation
    cases hfound : mid.lookup location with
    | none => exact .inr rfl
    | some node =>
      cases node with
      | directory => exact .inl ((h.sameDirectories.lookup_iff location).1 hfound).symm
      | file bytes =>
        rw [FileSystem.remove, h.sameDirectories.resolve_eq hlocation] at hremove
        simp only [bind, Except.bind, hfound] at hremove
        cases hremove

end

/-! ### Disks that fail -/

/-- The disk of a trial, but for the removal of files, which nothing goes wrong with. -/
def Trial.tidyDisk : Disk TrialM :=
  { disk with remove := fun path => observe (·.remove path) }

section

variable {path : String} {fs : FileSystem} {remove : String → TrialM (Except OsError Unit)} {tidied : FileSystem → Prop}

/-- Reading a program text changes nothing. -/
private theorem safe_compileFile {kept replaced : FileSystem → Prop} (hkept : kept fs) (input : String) :
    Safe kept replaced (· = fs) (compileFile Trial.disk input) fun _ later => later = fs := by
  have hread : Safe kept replaced (· = fs) (Trial.disk.read input) fun _ later => later = fs := by
    have hstep : Safe kept replaced (· = fs)
        (Trial.step fun later => (later.read input).map fun _ => later) fun _ later => later = fs :=
      safe_step (fun later hlater => hlater ▸ hkept) (fun result later hlater => .inl (hlater ▸ hkept))
        (fun mid later hmid h => (eq_of_sync h).trans hmid) fun later e hlater => hlater
    refine hstep.bind fun result => ?_
    cases result with
    | error e => exact safe_pure fun later hlater => hlater
    | ok done => exact fun trial hpre hseen => ⟨hseen, hpre⟩
  have htext : Safe kept replaced (· = fs) (readText Trial.disk input) fun _ later => later = fs := by
    refine hread.bind fun result => ?_
    cases result with
    | error e => exact safe_pure fun later hlater => hlater
    | ok bytes =>
      dsimp only
      split <;> exact safe_pure fun later hlater => hlater
  refine htext.bind fun result => ?_
  cases result <;> exact safe_pure fun later hlater => hlater

private theorem confined_writeFile (written : Written) :
    Attempts (Confined path fs) (fun _ => False) (Confined path fs)
      (writeFile Trial.disk (Path.partialPath path) written).run fun _ => Confined path fs := by
  have happend : ∀ bytes mid later, Confined path fs mid → mid.append (Path.partialPath path) bytes = .ok later →
      Confined path fs later :=
    fun _ _ _ hmid h => hmid.change (changes_of_append h) (.inr rfl)
  have hwrite : Attempts (Confined path fs) (fun _ => False) (Confined path fs)
      (writeFile Trial.disk (Path.partialPath path) written).run fun _ later =>
        written.failure = none ∧ Confined path fs later :=
    @attempts_writeFile _ _ _ (fun _ => Confined path fs)
      (fun _ _ hmid h => hmid.change (changes_of_create h) (.inr rfl)) (fun _ _ hmid => hmid) (fun _ => happend)
      happend written
  exact hwrite.imp fun _ _ hlater => hlater.2

/-- Saving is confined on a disk whose removals are.  It ends with what they ensure, unless it ends at once, if moving
the file that is written first ensures it too. -/
private theorem confined_saveWave (samples : List Int16) (sampleRate : UInt32)
    (htidied : ∀ later, Tidied path fs later → tidied later)
    (hremove : Safe (Confined path fs) (fun _ => False) (Confined path fs) (remove (Path.partialPath path))
      fun _ later => Confined path fs later ∧ tidied later) :
    Safe (Confined path fs) (fun _ => False) (Confined path fs)
      (saveWave { Trial.disk with remove } path samples sampleRate) fun result later =>
        Confined path fs later ∧ (result ≠ .error (.encoding .byteRateOverflow) → tidied later) := by
  have hrename : Attempts (Confined path fs) (fun _ => False) (Confined path fs)
      (Trial.disk.rename (Path.partialPath path) path) fun _ later => Confined path fs later ∧ tidied later :=
    attempts_step (fun _ hmid => hmid) (fun _ hlater => .inl hlater.1) fun mid later hmid h =>
      (hmid.rename h).imp_right (htidied later)
  refine Safe.bind (Attempts.bind (confined_writeFile _) fun _ => hrename.mapError _) fun result => ?_
  cases result with
  | ok done => exact safe_pure fun later hlater => ⟨hlater.1, fun _ => hlater.2⟩
  | error e =>
    dsimp only
    split
    · exact hremove.bind fun _ => safe_pure fun later hlater => ⟨hlater.1, fun _ => hlater.2⟩
    · rename_i hfatal
      refine safe_pure fun later hlater => ⟨hlater, fun hresult => absurd ?_ hfatal⟩
      -- only a byte rate that overflows is fatal
      cases e with
      | os cause => rfl
      | encoding cause =>
        cases cause with
        | byteRateOverflow => exact absurd rfl hresult
        | full => rfl
        | tooManySamples count => rfl

private theorem confined_renderFile (input : String) (config : RenderConfig)
    (htidied : ∀ later, Tidied path fs later → tidied later)
    (hremove : Safe (Confined path fs) (fun _ => False) (Confined path fs) (remove (Path.partialPath path))
      fun _ later => Confined path fs later ∧ tidied later) :
    Safe (Confined path fs) (fun _ => False) (· = fs)
      (renderFile { Trial.disk with remove } input path config) fun result later =>
        Confined path fs later ∧ (result ≠ .error (.unwritable path (.encoding .byteRateOverflow)) → tidied later) := by
  have huntouched : ∀ later, later = fs → Confined path fs later ∧ tidied later := by
    rintro later rfl
    exact ⟨.refl path later, htidied later (.refl path later)⟩
  refine (safe_compileFile (Confined.refl path fs) input).bind fun result => ?_
  cases result with
  | error e => exact safe_pure fun later hlater => (huntouched later hlater).imp_right fun h _ => h
  | ok compiled =>
    dsimp only
    unfold renderToFile
    split
    · exact safe_pure fun later hlater => (huntouched later hlater).imp_right fun h _ => h
    · rename_i rendered hrendered
      have hsave := confined_saveWave (quantizeAll rendered.master) config.sampleRate htidied hremove
      refine (hsave.of_imp fun later hlater => (huntouched later hlater).1).bind fun outcome => ?_
      cases outcome with
      | error e =>
        refine safe_pure fun later hlater => ⟨hlater.1, fun hresult => hlater.2 fun he => hresult ?_⟩
        rw [Except.error.inj he]
      | ok saved => exact safe_pure fun later hlater => ⟨hlater.1, fun _ => hlater.2 (by simp)⟩

private theorem of_leaves {α : Type} {kept : FileSystem → Prop} {post : α → FileSystem → Prop} {result : Except Halt α}
    {later : FileSystem} (h : Leaves kept (fun _ => False) post result later)
    (hpost : ∀ a, post a later → kept later) : kept later := by
  rcases result with halt | a
  · cases halt with
    | panicked => exact h
    | stopped => exact h.resolve_right id
  · exact hpost a h

/-- Whatever goes wrong, rendering is confined at every moment. -/
private theorem confined_of_renderFile (input : String) (config : RenderConfig) (fates : List Fate)
    {result : Except Halt (Except StudioError Summary)} {trial : Trial}
    (h : renderFile Trial.disk input path config ⟨fs, fates, []⟩ = (result, trial)) :
    ∀ later ∈ trial.fs :: trial.seen, Confined path fs later := by
  have hremove : Safe (Confined path fs) (fun _ => False) (Confined path fs)
      (Trial.disk.remove (Path.partialPath path)) fun _ later => Confined path fs later ∧ True :=
    safe_step (fun _ hmid => hmid) (fun _ _ hlater => .inl hlater.1)
      (fun _ _ hmid h => ⟨hmid.change (changes_of_remove h) (.inr rfl), trivial⟩) fun _ _ hmid => ⟨hmid, trivial⟩
  obtain ⟨hseen, hend⟩ := confined_renderFile input config (fun _ _ => trivial) hremove ⟨fs, fates, []⟩ rfl
    (List.forall_mem_nil _)
  replace hseen : ∀ later ∈ (renderFile Trial.disk input path config ⟨fs, fates, []⟩).2.seen,
    Confined path fs later ∨ False := hseen
  replace hend := of_leaves hend fun _ hlater => hlater.1
  replace hend : Confined path fs (renderFile Trial.disk input path config ⟨fs, fates, []⟩).2.fs := hend
  rw [h] at hseen hend
  exact List.forall_mem_cons.2 ⟨hend, fun later hlater => (hseen later hlater).resolve_right id⟩

/-- Unless the byte rate overflows, rendering tidies up where files can be removed, whatever else goes wrong. -/
private theorem tidied_of_renderFile (input : String) (config : RenderConfig) (fates : List Fate) {trial : Trial}
    {outcome : Except StudioError Summary}
    (h : renderFile Trial.tidyDisk input path config ⟨fs, fates, []⟩ = (.ok outcome, trial)) :
    Confined path fs trial.fs ∧
      (outcome ≠ .error (.unwritable path (.encoding .byteRateOverflow)) → Tidied path fs trial.fs) := by
  have hremove : Safe (Confined path fs) (fun _ => False) (Confined path fs)
      (Trial.tidyDisk.remove (Path.partialPath path)) fun _ later => Confined path fs later ∧ Tidied path fs later := by
    refine safe_observe (fun _ _ hlater => .inl hlater.1) (fun mid later hmid h => ?_) fun mid e hmid h => ?_
    · have hlater := hmid.remove
      rwa [h] at hlater
    · have hlater := hmid.remove
      rw [h] at hlater
      exact ⟨hmid, hlater⟩
  have hend := (confined_renderFile input config (fun _ h => h) hremove ⟨fs, fates, []⟩ rfl (List.forall_mem_nil _)).2
  change Leaves _ _ _ (renderFile Trial.tidyDisk input path config ⟨fs, fates, []⟩).1
    (renderFile Trial.tidyDisk input path config ⟨fs, fates, []⟩).2.fs at hend
  rw [h] at hend
  exact hend

end

/-! ### From file to file -/

/-- Making a program text an audio file touches nothing but the file at its path and the one that is written first, and
leaves nothing of the latter, unless the byte rate overflows.  On disks that fail, the former holds at every moment,
whatever goes wrong, and the latter whenever the program ends by itself, if nothing goes wrong with removing a file. -/
theorem renderFile_confined (fs : FileSystem) (input path : String) (config : RenderConfig) :
    (∀ outcome later, (renderFile FileSystem.disk input path config).run fs = (outcome, later) →
      Confined path fs later ∧
        (outcome ≠ .error (.unwritable path (.encoding .byteRateOverflow)) → Tidied path fs later)) ∧
    (∀ fates result trial, renderFile Trial.disk input path config ⟨fs, fates, []⟩ = (result, trial) →
      ∀ later ∈ trial.fs :: trial.seen, Confined path fs later) ∧
    (∀ fates outcome trial, renderFile Trial.tidyDisk input path config ⟨fs, fates, []⟩ = (.ok outcome, trial) →
      outcome ≠ .error (.unwritable path (.encoding .byteRateOverflow)) → Tidied path fs trial.fs) := by
  refine ⟨?_, fun fates _ _ h => confined_of_renderFile input config fates h,
    fun fates _ _ h => (tidied_of_renderFile input config fates h).2⟩
  have hagrees : Agrees (renderFile Trial.tidyDisk input path config) (renderFile FileSystem.disk input path config) :=
    agrees_renderFile (fun _ _ _ => ⟨_, rfl⟩) input path config
  intro outcome later hplain
  obtain ⟨seen, hrun⟩ := hagrees fs []
  change renderFile FileSystem.disk input path config fs = (outcome, later) at hplain
  rw [hplain] at hrun
  exact tidied_of_renderFile input config [] hrun

/-! ### A file in the way -/

/-- Nothing but a file with the given bytes, in the place of the one that is written before the file "x". -/
def inTheWay (bytes : List UInt8) : FileSystem :=
  { nodes := [(["x.partial"], .file bytes)] }

section

variable {bytes : List UInt8} {nodes : List (Location × Node)}

/-- A path that is a name of its own, for the operating system and for its segments. -/
private structure IsName (name : String) : Prop where
  checked : checkPath name = .ok ()
  start : name.startsWith "/" = false
  slash : name.endsWith "/" = false
  segments : Path.segments name = [name]

/-- A short name without a slash is such a path. -/
private theorem isName_of_toList {name : String} (hne : name ≠ "") (hnull : '\x00' ∉ name.toList)
    (hslash : '/' ∉ name.toList) (hsize : name.utf8ByteSize ≤ pathLimit) : IsName name where
  checked := by
    have hcontains : name.contains '\x00' = false := by simpa using hnull
    have hempty : name.isEmpty = false := by simpa using hne
    rw [checkPath, hcontains, hempty]
    exact if_neg hsize.not_gt
  start := by
    rw [Bool.eq_false_iff, ne_eq, String.startsWith_string_iff]
    exact fun hstart => hslash (hstart.mem (List.mem_singleton.2 rfl))
  slash := by
    rw [Bool.eq_false_iff, ne_eq, String.endsWith_eq_endsWith_toSlice, String.Slice.endsWith_string_iff,
      String.copy_toSlice]
    exact fun hend => hslash (hend.mem (List.mem_singleton.2 rfl))
  segments := by
    rw [Path.segments, Text.pieces_of_not_mem hslash, List.map_singleton, String.ofList_toList]

private theorem isName_new : IsName "x" :=
  isName_of_toList (by decide) (by decide) (by decide) (by decide)

private theorem isName_old : IsName "x.partial" :=
  isName_of_toList (by decide) (by decide) (by decide) (by decide)

private theorem resolve_old : FileSystem.resolve { nodes } "x.partial" = .ok ["x.partial"] := by
  rw [FileSystem.resolve_eq, isName_old.checked, FileSystem.start, isName_old.start, isName_old.segments]
  rfl

private theorem create_inTheWay : (inTheWay bytes).create "x.partial" = .ok (inTheWay []) := by
  rw [FileSystem.create, resolveNew, isName_old.checked, FileSystem.start, isName_old.start, isName_old.segments,
    isName_old.slash]
  rfl

private theorem append_inTheWay (more : List UInt8) :
    (inTheWay bytes).append "x.partial" more = .ok (inTheWay (bytes ++ more)) := by
  rw [FileSystem.append, inTheWay, resolve_old]
  rfl

private theorem read_inTheWay : (inTheWay bytes).read "x.partial" = .ok bytes := by
  rw [FileSystem.read, inTheWay, resolve_old]
  rfl

private theorem rename_inTheWay :
    (inTheWay bytes).rename "x.partial" "x" = .ok { nodes := [(["x"], .file bytes)] } := by
  rw [FileSystem.rename, inTheWay, resolve_old, resolveNew, isName_new.checked, FileSystem.start, isName_new.start,
    isName_new.segments, isName_new.slash]
  rfl

/-- A program that only halts is rendered to nothing. -/
private theorem exists_render_halt :
    ∃ result, render #[.halt] { noiseSeed := 1 } = .ok result ∧ result.master = #[] := by
  obtain ⟨outcome, hrun, hnothing⟩ : ∃ outcome, run? .collect #[.halt] none {} = some outcome ∧ outcome.received = {} :=
    ⟨_, rfl, by decide⟩
  have htail : RenderConfig.tail { noiseSeed := 1 } = 0 := by decide
  refine ⟨⟨outcome.exit, [], {}, #[]⟩, ?_, rfl⟩
  rw [render, renderWith, hrun]
  simp [renderEvents, hnothing, Schedule.sorted, Synth.renderAll?, Tracks.mixdown?, htail, Tracks.sum, Track.all,
    Tracks.length, Tracks.lengths, Tracks.get, Buffer.add, Buffer.addFrom, bind, Except.bind, pure, Except.pure]

end

/-- A program text that stands where the file is written first is lost: its bytes are those of the text "HALT". -/
theorem renderFile_replaces_input :
    let later := ((renderFile FileSystem.disk "x.partial" "x" { noiseSeed := 1 }).run (inTheWay [72, 65, 76, 84])).2
    (inTheWay [72, 65, 76, 84]).held "x.partial" = .ok (some (.file [72, 65, 76, 84])) ∧
      later.held "x.partial" = .ok none := by
  obtain ⟨result, hrender, hmaster⟩ := exists_render_halt
  have htext : String.fromUTF8? ⟨#[72, 65, 76, 84]⟩ = some "HALT" := by decide
  have hprogram : (compile "HALT").program = #[.halt] := by decide
  have hpartial : Path.partialPath "x" = "x.partial" := by decide
  have hwritten : (waveBytes (quantizeAll result.master) 44100).failure = none := by
    rw [hmaster]
    decide
  have hrun : ((renderFile FileSystem.disk "x.partial" "x" { noiseSeed := 1 }).run (inTheWay [72, 65, 76, 84])).2 =
      { nodes := [(["x"], .file (waveBytes (quantizeAll result.master) 44100).taken.toList)] } := by
    simp [renderFile, compileFile, readText, renderToFile, saveWave, writeFile, writeBytes, saveStep, FileSystem.disk,
      perform, read_inTheWay, create_inTheWay, append_inTheWay, rename_inTheWay, htext, hprogram, hrender, hpartial,
      hwritten, StateT.run, StateT.bind, StateT.pure, StateT.map, ExceptT.run, ExceptT.bind, ExceptT.mk,
      ExceptT.bindCont, Except.map, Except.mapError, Functor.map, bind, pure]
  rw [hrun]
  exact ⟨congrArg (Except.map _) resolve_old, congrArg (Except.map _) resolve_old⟩

end Ostinato
