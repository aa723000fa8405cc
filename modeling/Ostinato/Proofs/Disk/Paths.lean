import Mathlib
import Ostinato.Disk.Path
import Ostinato.Proofs.Text.Cutting

/-!
# The path of the file that is written first

Joining and cutting are inverse to each other, so a path is known by its segments.  The file that is written first lies
beside the one that it is to replace: its path is that of the same directory with a name that is not the name of the
other file behind it.

* `Avoids`: segments that lead from a directory to anything but the file of a given name in it.
* `IsBeside`: a path that names a file in the directory of another path, which does not lead to it.
* `isBeside_partialPath`: so it is with the path of the file that is written first.
-/

namespace Ostinato.Path

/-! ### Cutting and joining -/

theorem join_segments (path : String) : join (segments path) = path := by
  apply String.toList_inj.1
  rw [join, String.toList_intercalate, segments, List.map_map]
  have hmap : String.toList ∘ String.ofList = id := funext fun text => String.toList_ofList
  rw [hmap, List.map_id]
  exact Text.intercalate_pieces '/' path.toList

theorem segments_join {names : List String} (hne : names ≠ []) (h : ∀ name ∈ names, '/' ∉ name.toList) :
    segments (join names) = names := by
  have hpieces : Text.pieces '/' (['/'].intercalate (names.map String.toList)) = names.map String.toList := by
    refine Text.pieces_intercalate (by simpa using hne) fun piece hpiece => ?_
    obtain ⟨name, hname, rfl⟩ := List.mem_map.1 hpiece
    exact h name hname
  have hmap : String.ofList ∘ String.toList = id := funext fun text => String.ofList_toList
  rw [segments, join, String.toList_intercalate]
  exact (congrArg (List.map String.ofList) hpieces).trans (by rw [List.map_map, hmap, List.map_id])

private theorem segments_ne_nil (path : String) : segments path ≠ [] := by
  rw [segments, ne_eq, List.map_eq_nil_iff]
  exact Text.pieces_ne_nil '/' path.toList

private theorem slash_not_mem_of_mem_segments {path segment : String} (h : segment ∈ segments path) :
    '/' ∉ segment.toList := by
  obtain ⟨piece, hpiece, rfl⟩ := List.mem_map.1 h
  rw [String.toList_ofList]
  exact Text.not_mem_of_mem_pieces hpiece

/-- A path that is not empty starts with a slash if its first segment is empty. -/
private theorem startsWith_slash_iff {path : String} (hne : path ≠ "") :
    path.startsWith "/" = true ↔ (segments path).head? = some "" := by
  rw [String.startsWith_string_iff, segments]
  rcases hchars : path.toList with _ | ⟨c, text⟩
  · exact absurd (String.toList_eq_nil_iff.1 hchars) hne
  · obtain ⟨first, later, hpieces⟩ := List.exists_cons_of_ne_nil (Text.pieces_ne_nil '/' text)
    by_cases hc : c = '/'
    · subst hc
      simp [Text.pieces]
    · rw [Text.pieces_cons_of_ne hc hpieces]
      simp [Ne.symm hc]

/-- A name behind a slash is a segment of its own. -/
theorem segments_append {path name : String} (h : '/' ∉ name.toList) :
    segments (path ++ "/" ++ name) = segments path ++ [name] := by
  have hpath : path ++ "/" ++ name = join (segments path ++ [name]) := by
    rw [join, String.intercalate_append_of_ne_nil (segments_ne_nil path) (List.cons_ne_nil _ _),
      String.intercalate_singleton]
    exact congrArg (· ++ "/" ++ name) (join_segments path).symm
  rw [hpath]
  refine segments_join (List.append_ne_nil_of_right_ne_nil _ (List.cons_ne_nil _ _)) fun segment hsegment => ?_
  rcases List.mem_append.1 hsegment with hsegment | hsegment
  · exact slash_not_mem_of_mem_segments hsegment
  · rwa [List.mem_singleton.1 hsegment]

private theorem exists_of_endsWith_slash {path : String} (h : path.endsWith "/" = true) :
    ∃ front : String, path = front ++ "/" := by
  rw [String.endsWith_eq_endsWith_toSlice, String.Slice.endsWith_string_iff, String.copy_toSlice] at h
  obtain ⟨front, hfront⟩ := h
  refine ⟨String.ofList front, String.toList_inj.1 ?_⟩
  rw [String.toList_append, String.toList_ofList, hfront]

/-- A path that does not end with a slash ends in a segment that is not empty. -/
private theorem ne_of_segments_eq_concat {path last : String} {front : List String} (hne : path ≠ "")
    (hslash : path.endsWith "/" = false) (h : segments path = front ++ [last]) : last ≠ "" := by
  rintro rfl
  have hpath : path = join (front ++ [""]) := by rw [← h, join_segments]
  rcases front with _ | ⟨first, front⟩
  · exact hne (hpath.trans (by rw [List.nil_append, join, String.intercalate_singleton]))
  · rw [join, String.intercalate_append_of_ne_nil (List.cons_ne_nil _ _) (List.cons_ne_nil _ _),
      String.intercalate_singleton, String.append_empty] at hpath
    have hends : path.endsWith "/" = true := by
      rw [String.endsWith_eq_endsWith_toSlice, String.Slice.endsWith_string_iff, hpath]
      simp
    rw [hends] at hslash
    cases hslash

/-! ### Segments at the end -/

/-- A path that does not end with a slash has no empty segments at its end. -/
theorem rtakeWhile_segments_eq_nil {path : String} (hne : path ≠ "") (hslash : path.endsWith "/" = false) :
    (segments path).rtakeWhile (· == "") = [] := by
  refine List.rtakeWhile_eq_nil_iff.2 fun hsegments => ?_
  have hlast := ne_of_segments_eq_concat hne hslash (List.dropLast_append_getLast hsegments).symm
  simpa using hlast

/-- What is left of a list when its end is dropped ends where the dropped part starts. -/
theorem eq_of_reverse_dropWhile_eq_cons {α : Type} {p : α → Bool} {xs front : List α} {last : α}
    (h : xs.reverse.dropWhile p = last :: front) :
    xs = front.reverse ++ last :: xs.rtakeWhile p ∧ p last = false := by
  have hkept : xs.rdropWhile p = front.reverse ++ [last] := by rw [List.rdropWhile, h, List.reverse_cons]
  constructor
  · calc
      xs = xs.rdropWhile p ++ xs.rtakeWhile p := List.rdropWhile_append_rtakeWhile.symm
      _ = front.reverse ++ last :: xs.rtakeWhile p := by rw [hkept, List.append_assoc, List.singleton_append]
  · have hhead := List.head_dropWhile_not p (l := xs.reverse) (by rw [h]; exact List.cons_ne_nil _ _)
    simpa only [h, List.head_cons] using hhead

/-- The name of a file and what stands in front of it are segments of its path, and what follows stays there. -/
private theorem exists_of_fileName {path name : String} (h : fileName? path = some name) :
    ∃ front heres, segments path = front ++ name :: heres ∧ (splitLast path).1 = front ∧ isHere name = false ∧
      name ≠ ".." ∧ ∀ here ∈ heres, isHere here = true := by
  obtain ⟨hlast, hup⟩ := Option.filter_eq_some_iff.1 h
  have hup : name ≠ ".." := by simpa using hup
  rw [splitLast] at hlast ⊢
  rcases hdrop : (segments path).reverse.dropWhile isHere with _ | ⟨last, front⟩
  · rw [hdrop] at hlast
    cases hlast
  · rw [hdrop] at hlast
    obtain rfl := Option.some.inj hlast
    obtain ⟨hsegments, hhere⟩ := eq_of_reverse_dropWhile_eq_cons hdrop
    exact ⟨front.reverse, _, hsegments, rfl, hhere, hup, fun here hmem => List.mem_rtakeWhile_imp hmem⟩

private theorem exists_eq_trimEnd_append (names : List String) :
    ∃ dots, names = trimEnd names ++ dots ∧ ∀ dot ∈ dots, isHere dot = true := by
  rcases names with _ | ⟨first, rest⟩
  · exact ⟨[], rfl, List.forall_mem_nil _⟩
  · refine ⟨rest.rtakeWhile isHere, ?_, fun dot hdot => List.mem_rtakeWhile_imp hdot⟩
    exact congrArg (first :: ·) List.rdropWhile_append_rtakeWhile.symm

private theorem trimEnd_eq_nil_iff {names : List String} : trimEnd names = [] ↔ names = [] := by
  cases names <;> simp [trimEnd]

/-! ### Files beside others -/

/-- Segments that lead from a directory to itself, or to something in it that is not called `name`. -/
def Avoids (name : String) : List String → Prop
  | [] => True
  | segment :: rest =>
    if isHere segment then Avoids name rest
    else segment ≠ ".." ∧ segment ≠ name ∧ ∀ other ∈ rest, isHere other = true

/-- The path `beside` names a file in a directory, and `path` leads to that directory or to something else in it. -/
def IsBeside (path beside : String) : Prop :=
  ∃ kept rest name, segments path = kept ++ rest ∧ Avoids name rest ∧
    segments beside = kept ++ [name] ∧ isHere name = false ∧ name ≠ ".." ∧
    path.startsWith "/" = beside.startsWith "/"

private theorem avoids_append {name : String} {dots rest : List String} (hdots : ∀ dot ∈ dots, isHere dot = true)
    (h : Avoids name rest) : Avoids name (dots ++ rest) := by
  induction dots with
  | nil => exact h
  | cons dot dots ih =>
    obtain ⟨hdot, hdots⟩ := List.forall_mem_cons.1 hdots
    rw [List.cons_append, Avoids, if_pos hdot]
    exact ih hdots

/-- Paths that start in the same way start at the same place, as long as they are not empty. -/
private theorem startsWith_slash_congr {path other : String} (hne : path ≠ "") (hother : other ≠ "")
    (h : (segments path).head? = some "" ↔ (segments other).head? = some "") :
    path.startsWith "/" = other.startsWith "/" := by
  rw [Bool.eq_iff_iff, startsWith_slash_iff hne, startsWith_slash_iff hother, h]

private theorem ne_of_eight_le_length {name other : String} (h : 8 ≤ name.length) (hother : other.length < 8) :
    name ≠ other := by
  rintro rfl
  omega

private theorem isHere_eq_false {name : String} (h : 8 ≤ name.length) : isHere name = false := by
  have hempty : name ≠ "" := ne_of_eight_le_length h (by decide)
  have hdot : name ≠ "." := ne_of_eight_le_length h (by decide)
  simp [isHere, hempty, hdot]

private theorem partial_ne (name : String) : name ≠ name ++ ".partial" := by
  intro h
  have hlength := congrArg String.length h
  rw [String.length_append] at hlength
  have hpartial : ".partial".length = 8 := by decide
  omega

/-- A path with a new last name of at least eight characters is beside every path that leads to the same directory or
to another name in it. -/
private theorem isBeside_of_segments {path beside name : String} {kept rest : List String} (hne : path ≠ "")
    (hpath : segments path = kept ++ rest) (hbeside : segments beside = kept ++ [name]) (hname : 8 ≤ name.length)
    (havoids : Avoids name rest) (hhead : kept = [] → rest.head? ≠ some "") : IsBeside path beside := by
  have hempty : name ≠ "" := ne_of_eight_le_length hname (by decide)
  refine ⟨kept, rest, name, hpath, havoids, hbeside, isHere_eq_false hname,
    ne_of_eight_le_length hname (by decide), startsWith_slash_congr hne ?_ ?_⟩
  · rintro rfl
    have hlast := congrArg List.getLast? hbeside
    rw [List.getLast?_concat] at hlast
    exact hempty (Option.some.inj hlast).symm
  · rw [hpath, hbeside]
    rcases kept with _ | ⟨first, kept⟩
    · simpa [hempty] using hhead rfl
    · simp

private theorem isBeside_partialPath_of_fileName {path name : String} (hne : path ≠ "")
    (h : fileName? path = some name) : IsBeside path (partialPath path) := by
  obtain ⟨front, heres, hsegments, hsplit, hhere, hup, hheres⟩ := exists_of_fileName h
  obtain ⟨dots, hdots, hdotsHere⟩ := exists_eq_trimEnd_append front
  have hpath : segments path = trimEnd front ++ (dots ++ name :: heres) := by
    rw [← List.append_assoc, ← hdots, hsegments]
  have hpartial : partialPath path = join (trimEnd front ++ [name ++ ".partial"]) := by
    rw [partialPath, withFileName, h, hsplit]
    rfl
  have hslash : ∀ segment ∈ trimEnd front ++ [name ++ ".partial"], '/' ∉ segment.toList := by
    have hname : name ∈ segments path := by
      rw [hsegments]
      exact List.mem_append_right _ (List.mem_cons_self ..)
    rw [List.forall_mem_append, List.forall_mem_singleton, String.toList_append, List.mem_append, not_or]
    refine ⟨fun segment hsegment => ?_, slash_not_mem_of_mem_segments hname, by decide⟩
    exact slash_not_mem_of_mem_segments (hpath ▸ List.mem_append_left _ hsegment)
  rw [hpartial]
  refine isBeside_of_segments hne hpath (segments_join (by simp) hslash) ?_ ?_ ?_
  · rw [String.length_append]
    exact Nat.le_add_left _ _
  · refine avoids_append hdotsHere ?_
    rw [Avoids, if_neg (by rw [hhere]; exact Bool.false_ne_true)]
    exact ⟨hup, partial_ne name, hheres⟩
  · intro hkept
    have hempty : name ≠ "" := by
      rintro rfl
      cases hhere
    obtain rfl : dots = [] := by
      rw [trimEnd_eq_nil_iff.1 hkept] at hdots
      exact hdots.symm
    simpa using hempty

/-- The file that is written first lies beside the one that it is to replace. -/
theorem isBeside_partialPath {path : String} (hne : path ≠ "") : IsBeside path (partialPath path) := by
  cases hname : fileName? path with
  | some name => exact isBeside_partialPath_of_fileName hne hname
  | none =>
    have hpartial : partialPath path =
        if path.endsWith "/" then path ++ ".partial" else path ++ "/" ++ ".partial" := by
      rw [partialPath, withFileName, hname]
      simp [hne]
    have hslash : '/' ∉ ".partial".toList := by decide
    cases hends : path.endsWith "/" with
    | true =>
      obtain ⟨front, hfront⟩ := exists_of_endsWith_slash hends
      have hpath : segments path = segments front ++ [""] := by
        rw [hfront, ← segments_append (by decide), String.append_empty]
      rw [hpartial, hends, if_pos rfl]
      refine isBeside_of_segments hne hpath (hfront ▸ segments_append hslash) (by decide) trivial fun hkept => ?_
      exact absurd hkept (segments_ne_nil front)
    | false =>
      rw [hpartial, hends, if_neg Bool.false_ne_true]
      refine isBeside_of_segments hne (List.append_nil _).symm (segments_append hslash) (by decide) trivial ?_
      intro hkept
      exact absurd hkept (segments_ne_nil path)

example : partialPath "songs/./tune.wav/." = "songs/tune.wav.partial" := by decide

end Ostinato.Path
