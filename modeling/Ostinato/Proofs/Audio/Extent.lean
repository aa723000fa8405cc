import Ostinato.Audio.Render
import Ostinato.Proofs.Audio.Playing
import Ostinato.Proofs.Machine.Timetable

/-!
# Which renders succeed, and how long they are

The limit on the number of samples is checked where a stamp is converted, where a buffer grows, and where the tracks are
mixed.  Together the checks say that every event has its place and that the tail fits behind the last of them
(`Timebase.Fits`), because a track is as long as the last of its events needs it to be (`Synth.size_get_of_renderAll?`).
A render of sounds in tune succeeds exactly in this case, and fails with `tooLong` in all others (`renderWith_extent`).
-/

namespace Ostinato

/-! ### The last sample -/

namespace Timebase

variable {timebase : Timebase} {events : List Event} {n : Nat}

/-- The number of samples up to the end of an event, if the sample at which it starts has an index. -/
def stop? (timebase : Timebase) (event : Event) : Option Nat :=
  (timebase.sampleAt event.timestamp).map (· + timebase.samplesFor event.sound.duration)

/-- The number of samples up to the end of the event that ends last; without events there are none. -/
def lastStop (timebase : Timebase) (events : List Event) : Nat :=
  (events.filterMap timebase.stop?).foldr max 0

/-- All events have their places, and there is room for the tail behind them. -/
structure Fits (timebase : Timebase) (events : List Event) (tail : Nat) : Prop where
  places : ∀ event ∈ events, ∃ start, timebase.Places event start
  tail_le : timebase.lastStop events + tail ≤ maxSamples

@[simp] theorem lastStop_nil (timebase : Timebase) : timebase.lastStop [] = 0 := rfl

theorem lastStop_cons (timebase : Timebase) (event : Event) (events : List Event) :
    timebase.lastStop (event :: events) = max ((timebase.stop? event).getD 0) (timebase.lastStop events) := by
  unfold lastStop
  rw [List.filterMap_cons]
  cases timebase.stop? event with
  | none => exact (Nat.zero_max _).symm
  | some stop => rfl

private theorem lastStop_le_iff :
    timebase.lastStop events ≤ n ↔ ∀ event ∈ events, (timebase.stop? event).getD 0 ≤ n := by
  induction events with
  | nil => simp
  | cons event events ih => rw [lastStop_cons, Nat.max_le, ih, List.forall_mem_cons]

private theorem lastStop_congr {others : List Event} (h : ∀ event, event ∈ events ↔ event ∈ others) :
    timebase.lastStop events = timebase.lastStop others := by
  apply eq_of_forall_ge_iff
  intro n
  simp only [lastStop_le_iff, h]

private theorem Places.stop?_eq {event : Event} {start : Nat} (h : timebase.Places event start) :
    timebase.stop? event = some (start + timebase.samplesFor event.sound.duration) := by
  rw [stop?, h.sampleAt_eq, Option.map_some]

private theorem Fits.congr {others : List Event} {tail : Nat} (h : ∀ event, event ∈ events ↔ event ∈ others) :
    timebase.Fits events tail ↔ timebase.Fits others tail := by
  constructor
  · rintro ⟨hplaces, htail⟩
    exact ⟨fun event hevent => hplaces event ((h event).2 hevent), lastStop_congr h ▸ htail⟩
  · rintro ⟨hplaces, htail⟩
    exact ⟨fun event hevent => hplaces event ((h event).1 hevent), (lastStop_congr h).symm ▸ htail⟩

end Timebase

/-! ### Events and tracks -/

namespace Synth

variable {synth synth' : Synth} {tracks tracks' : Tracks} {events : List Event}

private theorem size_get_placed (event : Event) (start : Nat) (track : Track) :
    ((synth.placed event start tracks).get track).size =
      if event.track = track then max (tracks.get track).size (start + synth.timebase.samplesFor event.sound.duration)
      else (tracks.get track).size := by
  unfold placed
  rw [Tracks.get_set]
  split
  · rename_i htrack
    rw [Buffer.size_layer, htrack]
  · rfl

/-- Every track is as long as the last of its events needs it to be. -/
theorem size_get_of_renderAll? (h : synth.renderAll? events tracks = .ok (synth', tracks')) (track : Track) :
    (tracks'.get track).size =
      max (tracks.get track).size (synth.timebase.lastStop (events.filter (·.track = track))) := by
  induction events generalizing synth tracks with
  | nil =>
    obtain ⟨rfl, rfl⟩ := Prod.mk.inj (Except.ok.inj h)
    simp
  | cons event events ih =>
    obtain ⟨next, changed, hfirst, hrest⟩ := exists_of_renderAll?_cons h
    obtain ⟨-, start, hplaces, rfl, rfl⟩ := render?_eq_ok_iff.1 hfirst
    have hbase : (synth.past event.sound).timebase = synth.timebase := rfl
    rw [ih hrest, size_get_placed, hbase]
    by_cases htrack : event.track = track
    · rw [if_pos htrack, List.filter_cons_of_pos (by simpa using htrack), Timebase.lastStop_cons, hplaces.stop?_eq,
        Option.getD_some, Nat.max_assoc]
    · rw [if_neg htrack, List.filter_cons_of_neg (by simpa using htrack)]

/-- Events in tune are played exactly if all of them have their places. -/
theorem exists_renderAll?_of_places (synth : Synth) (tracks : Tracks) (htune : ∀ event ∈ events, event.sound.InTune)
    (h : ∀ event ∈ events, ∃ start, synth.timebase.Places event start) :
    ∃ result, synth.renderAll? events tracks = .ok result := by
  induction events generalizing synth tracks with
  | nil => exact ⟨_, rfl⟩
  | cons event events ih =>
    obtain ⟨htune, htunes⟩ := List.forall_mem_cons.1 htune
    obtain ⟨⟨start, hplaces⟩, hrest⟩ := List.forall_mem_cons.1 h
    rw [renderAll?_cons_of_render?_eq_ok (render?_of_places htune hplaces)]
    exact ih _ _ htunes hrest

private theorem renderAll?_of_not_places (htune : ∀ event ∈ events, event.sound.InTune)
    (h : ¬∀ event ∈ events, ∃ start, synth.timebase.Places event start) :
    synth.renderAll? events tracks = .error .tooLong := by
  induction events generalizing synth tracks with
  | nil => exact absurd (List.forall_mem_nil _) h
  | cons event events ih =>
    obtain ⟨htune, htunes⟩ := List.forall_mem_cons.1 htune
    by_cases hplaces : ∃ start, synth.timebase.Places event start
    · obtain ⟨start, hstart⟩ := hplaces
      rw [renderAll?_cons_of_render?_eq_ok (render?_of_places htune hstart)]
      exact ih htunes fun hall => h (List.forall_mem_cons.2 ⟨⟨start, hstart⟩, hall⟩)
    · exact renderAll?_cons_of_render?_eq_error (render?_of_not_places htune (not_exists.1 hplaces))

end Synth

/-! ### Mixing -/

namespace Tracks

theorem length_eq (tracks : Tracks) :
    tracks.length = max (max tracks.bass.size tracks.guitar.size) tracks.drums.size := by
  show max (max (max 0 tracks.bass.size) tracks.guitar.size) tracks.drums.size = _
  rw [Nat.zero_max]

theorem length_le_iff {tracks : Tracks} {n : Nat} : tracks.length ≤ n ↔ ∀ track, (tracks.get track).size ≤ n := by
  rw [length_eq]
  constructor
  · intro h track
    cases track <;> simp only [get] <;> omega
  · intro h
    have hbass := h .bass
    have hguitar := h .guitar
    have hdrums := h .drums
    simp only [get] at hbass hguitar hdrums
    omega

@[simp] theorem size_sum (tracks : Tracks) (length : Nat) : (tracks.sum length).size = length := by
  simp [sum, Track.all]

/-- A mix fails exactly if it would be longer than the limit. -/
theorem mixdown?_eq (tracks : Tracks) (least : Nat) :
    tracks.mixdown? least =
      if max tracks.length least ≤ maxSamples then .ok ((tracks.sum (max tracks.length least)).map softLimit)
      else .error .tooLong := rfl

end Tracks

/-! ### Renders -/

section

variable {config : RenderConfig} {noise : Noise} {exit : Exit} {events : List Event}

/-- The longest track ends with the event that ends last. -/
private theorem length_of_renderAll? {timebase : Timebase} {synth' : Synth} {tracks : Tracks}
    (h : Synth.renderAll? ⟨timebase, noise⟩ events {} = .ok (synth', tracks)) :
    tracks.length = timebase.lastStop events := by
  have hsize : ∀ track, (tracks.get track).size = timebase.lastStop (events.filter (·.track = track)) := by
    intro track
    rw [Synth.size_get_of_renderAll? h, Tracks.get_empty]
    exact Nat.zero_max _
  apply eq_of_forall_ge_iff
  intro n
  simp only [Tracks.length_le_iff, hsize, Timebase.lastStop_le_iff, List.mem_filter, decide_eq_true_eq]
  constructor
  · intro hall event hevent
    exact hall event.track event ⟨hevent, rfl⟩
  · intro hall track event hevent
    exact hall event hevent.1

theorem renderEvents_of_fits (noise : Noise) (exit : Exit) (htune : ∀ event ∈ events, event.sound.InTune)
    (h : config.timebase.Fits events config.tail) :
    ∃ tracks, renderEvents config noise exit events =
        .ok ⟨exit, events, tracks, (tracks.sum (tracks.length + config.tail)).map softLimit⟩ ∧
      (∀ track, (tracks.get track).size = config.timebase.lastStop (events.filter (·.track = track))) := by
  obtain ⟨⟨synth', tracks⟩, hall⟩ :=
    Synth.exists_renderAll?_of_places ⟨config.timebase, noise⟩ {} htune h.places
  have hlength := length_of_renderAll? hall
  have hmax : max tracks.length (tracks.length + config.tail) = tracks.length + config.tail := by omega
  have hfits : tracks.length + config.tail ≤ maxSamples := by
    rw [hlength]
    exact h.tail_le
  refine ⟨tracks, ?_, fun track => ?_⟩
  · unfold renderEvents
    rw [hall]
    show (tracks.mixdown? _ >>= _) = _
    rw [Tracks.mixdown?_eq, hmax, if_pos hfits]
    rfl
  · rw [Synth.size_get_of_renderAll? hall, Tracks.get_empty]
    exact Nat.zero_max _

private theorem renderEvents_of_not_fits (htune : ∀ event ∈ events, event.sound.InTune)
    (h : ¬config.timebase.Fits events config.tail) : renderEvents config noise exit events = .error .tooLong := by
  unfold renderEvents
  by_cases hplaces : ∀ event ∈ events, ∃ start, config.timebase.Places event start
  · obtain ⟨⟨synth', tracks⟩, hall⟩ :=
      Synth.exists_renderAll?_of_places ⟨config.timebase, noise⟩ {} htune hplaces
    have hlength := length_of_renderAll? hall
    have hlong : ¬max tracks.length (tracks.length + config.tail) ≤ maxSamples := by
      intro hle
      rw [hlength] at hle
      exact h ⟨hplaces, (Nat.le_max_right _ _).trans hle⟩
    rw [hall]
    show (tracks.mixdown? _ >>= _) = _
    rw [Tracks.mixdown?_eq, if_neg hlong]
    rfl
  · rw [Synth.renderAll?_of_not_places htune hplaces]
    rfl

end

/-- The sounds of a run of a program are in tune if those of the program are. -/
private theorem inTune_of_mem_sorted {program : Program} {ceiling : Option Nat} {outcome : Outcome Schedule}
    (hrun : run? .collect program ceiling {} = some outcome)
    (htune : ∀ i ∈ program, ∀ sound ∈ i.sound?, sound.InTune) :
    ∀ event ∈ outcome.received.sorted, event.sound.InTune := by
  intro event hevent
  obtain ⟨i, hi, hsound⟩ := exists_sound?_of_mem_events hrun (List.mem_mergeSort.1 hevent)
  exact htune i hi event.sound hsound

/-- A program of sounds in tune whose run ends is rendered exactly if all its events have their places and the tail
fits behind them, and is too long otherwise, whatever the noise.  Each track then ends with its own last event, and the
mix as much later than the longest track as the tail is long. -/
theorem renderWith_extent {program : Program} {config : RenderConfig} {outcome : Outcome Schedule}
    (hrun : run? .collect program config.maxInstructions {} = some outcome)
    (htune : ∀ i ∈ program, ∀ sound ∈ i.sound?, sound.InTune) (noise : Noise) :
    ((∃ rendered, renderWith noise program config = .ok rendered) ↔
        config.timebase.Fits outcome.received.events.toList config.tail) ∧
      (¬config.timebase.Fits outcome.received.events.toList config.tail →
        renderWith noise program config = .error .tooLong) ∧
      ∀ rendered, renderWith noise program config = .ok rendered →
        (∀ track, (rendered.tracks.get track).size =
          config.timebase.lastStop (outcome.received.events.toList.filter (·.track = track))) ∧
        rendered.master.size = rendered.tracks.length + config.tail := by
  have hrender : renderWith noise program config =
      renderEvents config noise outcome.exit outcome.received.sorted := by
    unfold renderWith
    rw [hrun]
  have hsorted : ∀ event, event ∈ outcome.received.sorted ↔ event ∈ outcome.received.events.toList :=
    fun event => List.mem_mergeSort
  have htunes := inTune_of_mem_sorted hrun htune
  rw [hrender, ← Timebase.Fits.congr hsorted]
  by_cases hfits : config.timebase.Fits outcome.received.sorted config.tail
  · obtain ⟨tracks, hok, hsizes⟩ := renderEvents_of_fits noise outcome.exit htunes hfits
    rw [hok]
    refine ⟨iff_of_true ⟨_, rfl⟩ hfits, fun hnot => absurd hfits hnot, ?_⟩
    rintro rendered hrendered
    obtain rfl := Except.ok.inj hrendered
    refine ⟨fun track => ?_, by simp⟩
    rw [hsizes]
    apply Timebase.lastStop_congr
    intro event
    rw [List.mem_filter, List.mem_filter, hsorted]
  · rw [renderEvents_of_not_fits htunes hfits]
    refine ⟨iff_of_false ?_ hfits, fun _ => rfl, ?_⟩
    · rintro ⟨rendered, hrendered⟩
      cases hrendered
    · rintro rendered hrendered
      cases hrendered

/-- A note, and after it a chord that lasts no time. -/
def briefChord : Program :=
  #[.note ⟨69, 100, 480⟩, .wait 960, .chord ⟨[60, 64], 90, -5⟩, .halt]

/-- A sample for each tick, and as long a tail as there is room for behind `briefChord`. -/
def longTail : RenderConfig where
  sampleRate := 960
  maxInstructions := some 20
  tailTicks := 2147482669

theorem renderWith_extent_longTail :
    run? .collect briefChord longTail.maxInstructions {} = some (runWithin .collect briefChord 20 {}) ∧
      (∀ i ∈ briefChord, ∀ sound ∈ i.sound?, sound.InTune) ∧
      ∃ rendered, renderWith (.ofSeed 1) briefChord longTail = .ok rendered ∧
        rendered.tracks.bass.size = 480 ∧ rendered.tracks.guitar.size = 960 ∧ rendered.tracks.drums.size = 0 ∧
        rendered.master.size = rendered.tracks.length + 2147482669 := by
  have hrun : run? .collect briefChord longTail.maxInstructions {} = some (runWithin .collect briefChord 20 {}) := rfl
  have htune : ∀ i ∈ briefChord, ∀ sound ∈ i.sound?, sound.InTune := by
    intro i hi sound hsound
    simp only [briefChord, List.mem_toArray, List.mem_cons, List.not_mem_nil, or_false] at hi
    rcases hi with rfl | rfl | rfl | rfl <;> cases hsound <;> decide
  have hevents : (runWithin .collect briefChord 20 {}).received.events.toList =
      [⟨0, .note ⟨69, 100, 480⟩⟩, ⟨960, .chord ⟨[60, 64], 90, -5⟩⟩] := by decide
  obtain ⟨hiff, -, hsizes⟩ := renderWith_extent hrun htune (.ofSeed 1)
  rw [hevents] at hiff hsizes
  have hnote : longTail.timebase.Places ⟨0, .note ⟨69, 100, 480⟩⟩ 0 := ⟨by decide, by decide⟩
  have hchord : longTail.timebase.Places ⟨960, .chord ⟨[60, 64], 90, -5⟩⟩ 960 := ⟨by decide, by decide⟩
  have hfits : longTail.timebase.Fits [⟨0, .note ⟨69, 100, 480⟩⟩, ⟨960, .chord ⟨[60, 64], 90, -5⟩⟩] longTail.tail := by
    refine ⟨?_, by decide⟩
    intro event hevent
    rcases List.mem_cons.1 hevent with rfl | hevent
    · exact ⟨0, hnote⟩
    · rw [List.mem_singleton.1 hevent]
      exact ⟨960, hchord⟩
  obtain ⟨rendered, hrendered⟩ := hiff.2 hfits
  obtain ⟨htracks, hmaster⟩ := hsizes rendered hrendered
  have htail : longTail.tail = 2147482669 := by decide
  rw [htail] at hmaster
  exact ⟨hrun, htune, rendered, hrendered, (htracks .bass).trans (by decide), (htracks .guitar).trans (by decide),
    (htracks .drums).trans (by decide), hmaster⟩

end Ostinato
