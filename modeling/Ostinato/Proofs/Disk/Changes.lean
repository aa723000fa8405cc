import Mathlib
import Ostinato.Disk.FileSystem
import Ostinato.Proofs.Disk.Paths

/-!
# What the operations on a disk change

An operation on a file changes what stands at one location and no directory, so what is followed to a directory before
is followed to the same directory after it.  What a path holds is then untouched by operations on a file beside it
(`Changes.held_eq`), and a file that is moved to a path is what the path holds (`exists_holds_of_rename`).

* `held`, `Holds`: what a path leads to.
* `ChangesOnly`, `Changes`: nothing but the file at one location, or at the end of one path, is changed.
* `exists_of_create`, `exists_of_append`, `exists_of_rename`, `exists_of_remove`: all that an operation can do.
-/

namespace Ostinato.FileSystem

variable {fs fs' : FileSystem} {location other : Location} {path beside : String}

/-- What a path leads to, if it can be followed. -/
def held (fs : FileSystem) (path : String) : Except OsError (Option Node) :=
  (fs.resolve path).map fs.lookup

/-- The path leads to a file with the given bytes. -/
def Holds (fs : FileSystem) (path : String) (bytes : List UInt8) : Prop :=
  fs.held path = .ok (some (.file bytes))

theorem Holds.unique {bytes bytes' : List UInt8} (h : fs.Holds path bytes) (h' : fs.Holds path bytes') :
    bytes = bytes' := by
  simpa using Except.ok.inj (h.symm.trans h')

/-! ### Results -/

theorem exists_of_bind_eq_ok {ε α β : Type} {x : Except ε α} {f : α → Except ε β} {b : β}
    (h : x.bind f = .ok b) : ∃ a, x = .ok a ∧ f a = .ok b := by
  cases x with
  | error e => cases h
  | ok a => exact ⟨a, rfl, h⟩

private theorem of_guard_eq_ok {ε β : Type} {c : Prop} [Decidable c] {e : ε} {f : Unit → Except ε β} {b : β}
    (h : (if c then throw e >>= f else f ()) = .ok b) : ¬c ∧ f () = .ok b := by
  split at h
  · cases h
  · exact ⟨‹¬c›, h⟩

private theorem of_mapError_eq_ok {ε ε' α : Type} {x : Except ε α} {f : ε → ε'} {a : α} (h : x.mapError f = .ok a) :
    x = .ok a := by
  cases x with
  | error e => cases h
  | ok found => exact congrArg Except.ok (Except.ok.inj h)

/-! ### Lookups -/

private theorem lookup_insert_self {node : Node} (h : location ≠ []) :
    (fs.insert location node).lookup location = some node := by
  simp [lookup, insert, h]

theorem lookup_erase_self (h : location ≠ []) : (fs.erase location).lookup location = none := by
  simp [lookup, erase, h]

private theorem lookup_erase_of_ne (h : other ≠ location) : (fs.erase location).lookup other = fs.lookup other := by
  have hfilter : (fs.nodes.filter (·.1 != location)).find? (·.1 == other) = fs.nodes.find? (·.1 == other) := by
    rw [List.find?_filter]
    refine congrArg (fs.nodes.find? ·) (funext fun entry => ?_)
    by_cases hentry : entry.1 = other <;> simp [hentry, h]
  simp only [lookup, erase, hfilter]

private theorem lookup_insert_of_ne {node : Node} (h : other ≠ location) :
    (fs.insert location node).lookup other = fs.lookup other := by
  have herase : (fs.insert location node).lookup other = (fs.erase location).lookup other := by
    simp only [lookup, insert, erase, List.find?_cons, beq_eq_false_iff_ne.2 (Ne.symm h)]
  exact herase.trans (lookup_erase_of_ne h)

theorem ne_nil_of_lookup_ne_directory (h : fs.lookup location ≠ some .directory) : location ≠ [] := by
  rintro rfl
  exact h (if_pos rfl)

theorem ne_directory_of_lookup {bytes : List UInt8} (h : fs.lookup location = some (.file bytes)) :
    fs.lookup location ≠ some .directory := by
  rw [h]
  exact fun h => Node.noConfusion (Option.some.inj h)

/-! ### Changes -/

/-- The same directories are there, and the current one is the same. -/
structure SameDirectories (fs fs' : FileSystem) : Prop where
  home_eq : fs'.home = fs.home
  lookup_iff : ∀ location, fs'.lookup location = some .directory ↔ fs.lookup location = some .directory

/-- At most the file at one location is changed, made or removed. -/
structure ChangesOnly (location : Location) (fs fs' : FileSystem) : Prop where
  home_eq : fs'.home = fs.home
  lookup_eq : ∀ other, other ≠ location → fs'.lookup other = fs.lookup other
  before : fs.lookup location ≠ some .directory
  after : fs'.lookup location ≠ some .directory

theorem ChangesOnly.sameDirectories (h : ChangesOnly location fs fs') : SameDirectories fs fs' where
  home_eq := h.home_eq
  lookup_iff other := by
    by_cases hother : other = location
    · subst hother
      exact iff_of_false h.after h.before
    · rw [h.lookup_eq other hother]

theorem changesOnly_insert {bytes : List UInt8} (h : fs.lookup location ≠ some .directory) :
    ChangesOnly location fs (fs.insert location (.file bytes)) where
  home_eq := rfl
  lookup_eq _ hother := lookup_insert_of_ne hother
  before := h
  after := ne_directory_of_lookup (lookup_insert_self (ne_nil_of_lookup_ne_directory h))

theorem changesOnly_erase (h : fs.lookup location ≠ some .directory) :
    ChangesOnly location fs (fs.erase location) where
  home_eq := rfl
  lookup_eq _ hother := lookup_erase_of_ne hother
  before := h
  after := by
    rw [lookup_erase_self (ne_nil_of_lookup_ne_directory h)]
    exact Option.some_ne_none _ ∘ Eq.symm

/-! ### Walks -/

private theorem walk_nil (fs : FileSystem) (location : Location) : fs.walk location [] = .ok location :=
  rfl

/-- From a directory, the first segment stays there, goes up or goes on. -/
theorem walk_cons (h : fs.lookup other = some .directory) (segment : String) (rest : List String) :
    fs.walk other (segment :: rest) =
      if Path.isHere segment then fs.walk other rest
      else if segment = ".." then fs.walk other.dropLast rest
      else if nameLimit < segment.utf8ByteSize then .error .nameTooLong
      else fs.walk (other ++ [segment]) rest := by
  rw [walk, h]

theorem walk_append (fs : FileSystem) (from_ : Location) (front rest : List String) :
    fs.walk from_ (front ++ rest) = (fs.walk from_ front).bind (fs.walk · rest) := by
  induction front generalizing from_ with
  | nil => rfl
  | cons segment front ih =>
    rw [List.cons_append, walk, walk]
    split
    · rfl
    · rfl
    · rw [ih, ih, ih]
      split_ifs <;> rfl

theorem directory_of_walk_cons {segment : String} {rest : List String}
    (h : fs.walk other (segment :: rest) = .ok location) : fs.lookup other = some .directory := by
  rw [walk] at h
  split at h
  · cases h
  · cases h
  · assumption

/-- What can be followed can still be followed while the directories stay. -/
private theorem SameDirectories.walk_eq (h : SameDirectories fs fs') {names : List String}
    (hwalk : fs.walk other names = .ok location) : fs'.walk other names = .ok location := by
  induction names generalizing other with
  | nil => exact hwalk
  | cons segment names ih =>
    have hdirectory := directory_of_walk_cons hwalk
    rw [walk_cons hdirectory] at hwalk
    rw [walk_cons ((h.lookup_iff other).2 hdirectory)]
    split_ifs at hwalk ⊢ <;> exact ih hwalk

theorem exists_of_walk_concat {names : List String} {name : String} (hhere : Path.isHere name = false)
    (hup : name ≠ "..") (h : fs.walk other (names ++ [name]) = .ok location) :
    ∃ directory, fs.walk other names = .ok directory ∧ fs.lookup directory = some .directory ∧
      location = directory ++ [name] := by
  rw [walk_append] at h
  obtain ⟨directory, hnames, h⟩ := exists_of_bind_eq_ok h
  have hdirectory := directory_of_walk_cons h
  refine ⟨directory, hnames, hdirectory, ?_⟩
  simp only [walk_cons hdirectory, walk_nil, hhere, hup, Bool.false_eq_true, if_false] at h
  split_ifs at h
  exact (Except.ok.inj h).symm

private theorem walk_concat {names : List String} {name : String} {directory : Location}
    (hhere : Path.isHere name = false) (hup : name ≠ "..") (hlength : name.utf8ByteSize ≤ nameLimit)
    (h : fs.walk other names = .ok directory) (hdirectory : fs.lookup directory = some .directory) :
    fs.walk other (names ++ [name]) = .ok (directory ++ [name]) := by
  rw [walk_append, h]
  simp only [Except.bind, walk_cons hdirectory, walk_nil, hhere, hup, Bool.false_eq_true, if_false,
    if_neg (Nat.not_lt.2 hlength)]

/-- A walk that only stays where it is meets nothing but the place where it stands. -/
private theorem map_lookup_walk_of_isHere {names : List String} (hnames : ∀ name ∈ names, Path.isHere name = true)
    (h : fs'.lookup location = fs.lookup location) :
    (fs'.walk location names).map fs'.lookup = (fs.walk location names).map fs.lookup := by
  induction names with
  | nil => exact congrArg Except.ok h
  | cons name names ih =>
    obtain ⟨hname, hnames⟩ := List.forall_mem_cons.1 hnames
    rw [walk, walk, h]
    split
    · rfl
    · rfl
    · rw [if_pos hname, if_pos hname]
      exact ih hnames

/-- A walk that avoids a name does not meet the changes of the file of that name. -/
private theorem map_lookup_walk_of_avoids {name : String} {rest : List String}
    (h : ChangesOnly (location ++ [name]) fs fs') (hdirectory : fs.lookup location = some .directory)
    (hrest : Path.Avoids name rest) :
    (fs'.walk location rest).map fs'.lookup = (fs.walk location rest).map fs.lookup := by
  have hdirectory' := (h.sameDirectories.lookup_iff location).2 hdirectory
  induction rest with
  | nil => exact congrArg Except.ok (hdirectory'.trans hdirectory.symm)
  | cons segment rest ih =>
    rw [Path.Avoids] at hrest
    rw [walk_cons hdirectory, walk_cons hdirectory']
    split_ifs at hrest ⊢ with hhere hup hlong
    · exact ih hrest
    · exact absurd hup hrest.1
    · rfl
    · refine map_lookup_walk_of_isHere hrest.2.2 (h.lookup_eq _ ?_)
      simpa using hrest.2.1

/-! ### Paths -/

theorem resolve_eq (fs : FileSystem) (path : String) :
    fs.resolve path = (checkPath path).bind fun _ => fs.walk (fs.start path) (Path.segments path) :=
  rfl

private theorem checkPath_empty : checkPath "" = .error .notFound := by
  have hcontains : "".contains '\x00' = false := by simp
  rw [checkPath, hcontains]
  rfl

theorem ne_empty_of_checkPath (h : checkPath path = .ok ()) : path ≠ "" := by
  rintro rfl
  rw [checkPath_empty] at h
  cases h

private theorem SameDirectories.start_eq (h : SameDirectories fs fs') (path : String) :
    fs'.start path = fs.start path := by
  rw [start, start, h.home_eq]

theorem SameDirectories.resolve_eq (h : SameDirectories fs fs') (hpath : fs.resolve path = .ok location) :
    fs'.resolve path = .ok location := by
  obtain ⟨checked, hcheck, hwalk⟩ := exists_of_bind_eq_ok hpath
  rw [FileSystem.resolve_eq, hcheck, h.start_eq]
  exact h.walk_eq hwalk

/-- Nothing but the file that a path leads to is changed, made or removed. -/
def Changes (path : String) (fs fs' : FileSystem) : Prop :=
  ∃ location, fs.resolve path = .ok location ∧ ChangesOnly location fs fs'

/-- What a path holds is untouched by changes of a file beside it. -/
theorem Changes.held_eq (hbeside : Path.IsBeside path beside) (h : Changes beside fs fs') :
    fs'.held path = fs.held path := by
  obtain ⟨kept, rest, name, hpath, hrest, hsegments, hhere, hup, hstart⟩ := hbeside
  obtain ⟨location, hlocation, h⟩ := h
  rw [FileSystem.resolve_eq, hsegments] at hlocation
  obtain ⟨-, -, hwalk⟩ := exists_of_bind_eq_ok hlocation
  obtain ⟨directory, hkept, hdirectory, rfl⟩ := exists_of_walk_concat hhere hup hwalk
  have hstart : fs.start beside = fs.start path := by rw [start, start, hstart]
  rw [hstart] at hkept
  have hkept' := h.sameDirectories.walk_eq hkept
  rw [held, held, FileSystem.resolve_eq, FileSystem.resolve_eq, h.sameDirectories.start_eq, hpath]
  cases checkPath path with
  | error e => rfl
  | ok checked =>
    simp only [Except.bind, walk_append, hkept, hkept']
    exact map_lookup_walk_of_avoids h hdirectory hrest

/-- What a path holds is untouched by changes of the file that is written first. -/
theorem Changes.held_eq_of_partialPath (h : Changes (Path.partialPath path) fs fs') : fs'.held path = fs.held path := by
  by_cases hpath : path = ""
  · -- The empty path leads nowhere, and no file lies beside it.
    rw [held, held, FileSystem.resolve_eq, FileSystem.resolve_eq, hpath, checkPath_empty]
    rfl
  · exact h.held_eq (Path.isBeside_partialPath hpath)

/-- A file that can be made has a name of its own, in a directory that the segments in front of it lead to. -/
private theorem exists_of_resolveNew (h : fs.resolveNew path = .ok location) :
    ∃ front last directory, Path.segments path = front ++ last :: (Path.segments path).rtakeWhile (· == "") ∧
      checkPath path = .ok () ∧ fs.walk (fs.start path) front = .ok directory ∧
      fs.lookup directory = some .directory ∧ Path.isHere last = false ∧ last ≠ ".." ∧
      last.utf8ByteSize ≤ nameLimit ∧ location = directory ++ [last] := by
  obtain ⟨⟨⟩, hcheck, h⟩ := exists_of_bind_eq_ok h
  rcases hdrop : (Path.segments path).reverse.dropWhile (· == "") with _ | ⟨last, front⟩
  · rw [hdrop] at h
    cases h
  · rw [hdrop] at h
    obtain ⟨hsegments, hlast⟩ := Path.eq_of_reverse_dropWhile_eq_cons hdrop
    obtain ⟨reached, hwalk, h⟩ := exists_of_bind_eq_ok h
    obtain ⟨hdots, h⟩ := of_guard_eq_ok h
    obtain ⟨hlong, h⟩ := of_guard_eq_ok h
    obtain rfl := Except.ok.inj h
    rw [Bool.or_eq_true, decide_eq_true_eq, decide_eq_true_eq, not_or] at hdots
    have hhere : Path.isHere last = false := by
      rw [Path.isHere, hlast, Bool.false_or]
      exact beq_false_of_ne hdots.1
    -- the empty segment behind the directory only asks for it to be one
    rw [walk_append] at hwalk
    obtain ⟨directory, hfront, hstay⟩ := exists_of_bind_eq_ok hwalk
    have hdirectory := directory_of_walk_cons hstay
    obtain rfl : directory = reached := by
      simpa [walk_cons hdirectory, walk_nil, Path.isHere] using hstay
    exact ⟨front.reverse, last, directory, hsegments, hcheck, hfront, hdirectory, hhere, hdots.2,
      Nat.not_lt.1 hlong, rfl⟩

/-- The location of a file that can be made is where its path leads, unless the path ends with a slash. -/
private theorem resolve_of_resolveNew (hslash : path.endsWith "/" = false) (h : fs.resolveNew path = .ok location) :
    fs.resolve path = .ok location := by
  obtain ⟨front, last, directory, hsegments, hcheck, hfront, hdirectory, hhere, hup, hlength, rfl⟩ :=
    exists_of_resolveNew h
  rw [Path.rtakeWhile_segments_eq_nil (ne_empty_of_checkPath hcheck) hslash] at hsegments
  rw [FileSystem.resolve_eq, hcheck, hsegments]
  exact walk_concat hhere hup hlength hfront hdirectory

/-! ### Operations -/

theorem exists_of_create (h : fs.create path = .ok fs') :
    ∃ location, fs.resolve path = .ok location ∧ fs.lookup location ≠ some .directory ∧
      fs' = fs.insert location (.file []) := by
  obtain ⟨location, hnew, h⟩ := exists_of_bind_eq_ok h
  obtain ⟨hslash, h⟩ := of_guard_eq_ok h
  have hlocation := resolve_of_resolveNew (Bool.eq_false_of_not_eq_true hslash) (of_mapError_eq_ok hnew)
  split at h
  · cases h
  · rename_i hdirectory
    exact ⟨location, hlocation, hdirectory, (Except.ok.inj h).symm⟩

theorem exists_of_append {bytes : List UInt8} (h : fs.append path bytes = .ok fs') :
    ∃ location old, fs.resolve path = .ok location ∧ fs.lookup location = some (.file old) ∧
      fs' = fs.insert location (.file (old ++ bytes)) := by
  obtain ⟨location, hlocation, h⟩ := exists_of_bind_eq_ok h
  split at h
  · cases h
  · cases h
  · rename_i old hold
    exact ⟨location, old, hlocation, hold, (Except.ok.inj h).symm⟩

theorem exists_of_remove (h : fs.remove path = .ok fs') :
    ∃ location old, fs.resolve path = .ok location ∧ fs.lookup location = some (.file old) ∧
      fs' = fs.erase location := by
  obtain ⟨location, hlocation, h⟩ := exists_of_bind_eq_ok h
  split at h
  · cases h
  · cases h
  · rename_i old hold
    exact ⟨location, old, hlocation, hold, (Except.ok.inj h).symm⟩

theorem exists_of_rename {source target : String} (h : fs.rename source target = .ok fs') :
    ∃ old new bytes, fs.resolve source = .ok old ∧ fs.resolve target = .ok new ∧
      fs.lookup old = some (.file bytes) ∧ fs.lookup new ≠ some .directory ∧
      fs' = (fs.erase old).insert new (.file bytes) := by
  obtain ⟨old, hold, h⟩ := exists_of_bind_eq_ok h
  obtain ⟨new, hnew, h⟩ := exists_of_bind_eq_ok h
  split at h
  · cases h
  · cases h
  · rename_i bytes hbytes
    obtain ⟨hslash, h⟩ := of_guard_eq_ok h
    have hnew := resolve_of_resolveNew (Bool.eq_false_of_not_eq_true hslash) hnew
    split at h
    · cases h
    · rename_i hdirectory
      exact ⟨old, new, bytes, hold, hnew, hbytes, hdirectory, (Except.ok.inj h).symm⟩

/-! ### Their effects -/

theorem changes_of_create (h : fs.create path = .ok fs') : Changes path fs fs' := by
  obtain ⟨location, hlocation, hdirectory, rfl⟩ := exists_of_create h
  exact ⟨location, hlocation, changesOnly_insert hdirectory⟩

theorem changes_of_append {bytes : List UInt8} (h : fs.append path bytes = .ok fs') : Changes path fs fs' := by
  obtain ⟨location, old, hlocation, hold, rfl⟩ := exists_of_append h
  exact ⟨location, hlocation, changesOnly_insert (ne_directory_of_lookup hold)⟩

theorem changes_of_remove (h : fs.remove path = .ok fs') : Changes path fs fs' := by
  obtain ⟨location, old, hlocation, hold, rfl⟩ := exists_of_remove h
  exact ⟨location, hlocation, changesOnly_erase (ne_directory_of_lookup hold)⟩

private theorem holds_insert {bytes : List UInt8} (hlocation : fs.resolve path = .ok location)
    (hdirectory : fs.lookup location ≠ some .directory) : (fs.insert location (.file bytes)).Holds path bytes := by
  rw [Holds, held, (changesOnly_insert hdirectory).sameDirectories.resolve_eq hlocation]
  exact congrArg Except.ok (lookup_insert_self (ne_nil_of_lookup_ne_directory hdirectory))

theorem holds_of_create (h : fs.create path = .ok fs') : fs'.Holds path [] := by
  obtain ⟨location, hlocation, hdirectory, rfl⟩ := exists_of_create h
  exact holds_insert hlocation hdirectory

theorem Holds.append {old bytes : List UInt8} (hold : fs.Holds path old) (h : fs.append path bytes = .ok fs') :
    fs'.Holds path (old ++ bytes) := by
  obtain ⟨location, found, hlocation, hfound, rfl⟩ := exists_of_append h
  rw [Holds, held, hlocation] at hold
  obtain rfl : old = found := by
    simpa using (Except.ok.inj hold).symm.trans hfound
  exact holds_insert hlocation (ne_directory_of_lookup hfound)

/-- A file that is moved to a path is what the path holds afterwards. -/
theorem exists_holds_of_rename {source target : String} (h : fs.rename source target = .ok fs') :
    ∃ bytes, fs.Holds source bytes ∧ fs'.Holds target bytes := by
  obtain ⟨old, new, bytes, hold, hnew, hbytes, hdirectory, rfl⟩ := exists_of_rename h
  have hsame := (changesOnly_erase (ne_directory_of_lookup hbytes)).sameDirectories
  refine ⟨bytes, ?_, holds_insert (hsame.resolve_eq hnew) fun hnew => hdirectory ((hsame.lookup_iff new).1 hnew)⟩
  rw [Holds, held, hold]
  exact congrArg Except.ok hbytes

end Ostinato.FileSystem
