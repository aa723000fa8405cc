import Ostinato.Proofs.Audio.Playing

/-!
# Failing in the middle

A synthesizer and the tracks that it plays on are changed in place, so that what fails in the middle leaves behind what
it has done so far.  Here the calls to a synthesizer are taken apart into the steps that can fail and the steps that
change something, in the order in which they are done: frequencies are found, room is made, and samples are made and
added one by one, with the random numbers that they draw.  All that can fail comes first, so that a call has the same
effect as one that works on copies (`Desk.play_eq`, `Desk.run_event_eq`), and calls that fail may as well not be made
(`Desk.performAll_succeeding`).
-/

namespace Ostinato

open Numeric

/-- Playing a sound that has samples: they are added to the buffer if it can be grown to hold them. -/
private theorem Synth.play?_of_sample? {synth : Synth} {voice : Voice} {sound : Sound}
    {make : Nat → Noise → Float32 × Noise}
    (h : sound.sample? synth.timebase voice = .ok make) (start : Nat) (buffer : Buffer) :
    synth.play? voice sound start buffer =
      (buffer.reach? start (synth.timebase.samplesFor sound.duration)).map fun reached =>
        let added := reached.addFrom make start (synth.timebase.samplesFor sound.duration) 0 synth.noise
        ({ synth with noise := added.1 }, added.2) := by
  rw [play?, h]
  show (buffer.reach? _ _ >>= _) = _
  cases buffer.reach? start (synth.timebase.samplesFor sound.duration) <;> rfl

/-- Why a sound cannot be played from a sample on, if it cannot. -/
def Sound.refusal? (timebase : Timebase) (sound : Sound) (start : Nat) : Option AudioError :=
  if sound.InTune then
    if start + timebase.samplesFor sound.duration ≤ maxSamples then none else some .tooLong
  else some .pitchOverflow

/-- A synthesizer and the tracks that it plays on. -/
structure Desk where
  synth : Synth
  tracks : Tracks

namespace Desk

/-- The desk with another source of noise. -/
def withNoise (desk : Desk) (noise : Noise) : Desk :=
  { desk with synth := { desk.synth with noise } }

/-- The desk with another buffer for a track. -/
def withBuffer (desk : Desk) (track : Track) (buffer : Buffer) : Desk :=
  { desk with tracks := desk.tracks.set track buffer }

/-! ### Steps -/

/-- Steps that are done at a desk one after the other, until one fails; what was done before stays done. -/
abbrev Work := ExceptT AudioError (StateM Desk)

/-- Goes on with a value if there is one. -/
def check {α : Type} (value : Except AudioError α) : Work α :=
  ExceptT.mk (pure value)

/-- Replaces the buffer of a track by what `f` makes of it. -/
def change (track : Track) (f : Buffer → Buffer) : Work Unit :=
  modify fun desk => desk.withBuffer track (f (desk.tracks.get track))

/-- Grows the buffer of a track to hold `length` samples from `start` on. -/
def makeRoom (track : Track) (start length : Nat) : Work Unit :=
  if start + length ≤ maxSamples then change track (·.grow (start + length)) else throw .tooLong

/-- The random number for a sample of a drum hit, drawn from the noise if there is need of one. -/
def draw (kind : DrumKind) : Work Float :=
  modifyGet fun desk => ((kind.draw desk.synth.noise).1, desk.withNoise (kind.draw desk.synth.noise).2)

def timebase : Work Timebase :=
  return (← get).synth.timebase

/-- Adds `count` samples to a track, from the `i`th on of a sound that starts at `start`, each when it is made. -/
def fill (track : Track) (start : Nat) (sample : Nat → Work Float32) : (count i : Nat) → Work Unit
  | 0, _ => pure ()
  | count + 1, i => do
    let x ← sample i
    change track (·.modify (start + i) (· + x))
    fill track start sample count (i + 1)

/-- Makes room for a sound and adds its samples, where `sample` makes the one at a time. -/
def add (track : Track) (start : Nat) (duration : Int64) (sample : Float → Work Float) : Work Unit := do
  let timebase ← timebase
  makeRoom track start (timebase.samplesFor duration)
  fill track start (fun i => return narrow (← sample (timebase.seconds (UInt64.ofNat i))))
    (timebase.samplesFor duration) 0

/-- Plays a sound on a track, from a sample on. -/
def play (track : Track) (voice : Voice) (start : Nat) : Sound → Work Unit
  | .note n => do
    let frequency ← check (frequency? n.pitch)
    add track start n.duration fun t => return noteSample voice n.velocity frequency t
  | .chord c => do
    let frequencies ← check (c.pitches.mapM frequency?)
    add track start c.duration fun t => return chordSample c.velocity frequencies t
  | .drum d => add track start d.duration fun t => return drumSample d.kind d.velocity (← draw d.kind) t

/-- What can be asked for at a desk. -/
inductive Call where
  /-- To play a sound on a track, from a sample on. -/
  | sound (track : Track) (voice : Voice) (played : Sound) (start : Nat)
  /-- To play an event on a track, which need not be its own. -/
  | event (track : Track) (played : Event)

/-- Does what is asked for. -/
def run : Call → Work Unit
  | .sound track voice played start => play track voice start played
  | .event track played => do
    match (← timebase).sampleAt played.timestamp with
    | none => throw .tooLong
    | some start => play track (Voice.ofTrack track) start played.sound

/-! ### What the steps do -/

section

variable {α β : Type} {work : Work α} {next : α → Work β} {desk later : Desk} {track : Track} {start length : Nat}
  {e : AudioError}

private theorem bind_of_ok {a : α} (h : work desk = (.ok a, later)) : (work >>= next) desk = next a later := by
  simp [bind, ExceptT.bind, ExceptT.mk, StateT.bind, ExceptT.bindCont, h]

private theorem bind_of_error (h : work desk = (.error e, later)) : (work >>= next) desk = (.error e, later) := by
  simp [bind, ExceptT.bind, ExceptT.mk, StateT.bind, ExceptT.bindCont, h, pure, StateT.pure]

private theorem check_eq (value : Except AudioError α) (desk : Desk) : check value desk = (value, desk) := rfl

private theorem timebase_eq (desk : Desk) : timebase desk = (.ok desk.synth.timebase, desk) := rfl

private theorem change_eq (track : Track) (f : Buffer → Buffer) (desk : Desk) :
    change track f desk = (.ok (), desk.withBuffer track (f (desk.tracks.get track))) := rfl

private theorem makeRoom_of_le (h : start + length ≤ maxSamples) :
    makeRoom track start length desk =
      (.ok (), desk.withBuffer track ((desk.tracks.get track).grow (start + length))) := by
  rw [makeRoom, if_pos h, change_eq]

private theorem makeRoom_of_lt (h : maxSamples < start + length) :
    makeRoom track start length desk = (.error .tooLong, desk) := by
  rw [makeRoom, if_neg (Nat.not_le.2 h)]
  rfl

/-- Samples that are made and added in place are those that are added to a copy of the buffer. -/
private theorem fill_eq {sample : Nat → Work Float32} {make : Nat → Noise → Float32 × Noise}
    (h : ∀ i desk, sample i desk = (.ok (make i desk.synth.noise).1, desk.withNoise (make i desk.synth.noise).2))
    (count i : Nat) (desk : Desk) :
    fill track start sample count i desk =
      (.ok (),
        (desk.withNoise (Buffer.addFrom make start count i desk.synth.noise (desk.tracks.get track)).1).withBuffer
          track (Buffer.addFrom make start count i desk.synth.noise (desk.tracks.get track)).2) := by
  induction count generalizing i desk with
  | zero =>
    have hkept : desk.withBuffer track (desk.tracks.get track) = desk := by
      rw [withBuffer, Tracks.set_get]
    exact congrArg (Prod.mk _) hkept.symm
  | succ count ih =>
    rw [fill, bind_of_ok (h i desk), bind_of_ok (change_eq _ _ _), ih, Buffer.addFrom]
    simp only [withBuffer, withNoise, Tracks.get_set, if_true, Tracks.set_set]

end

/-! ### Requests -/

/-- What becomes of a desk if something is done with copies, which take its place unless it fails. -/
def replace (desk : Desk) : Except AudioError (Synth × Tracks) → Except AudioError Unit × Desk
  | .ok (synth, tracks) => (.ok (), ⟨synth, tracks⟩)
  | .error e => (.error e, desk)

section

variable {voice : Voice} {track : Track} {start : Nat} {desk : Desk}

/-- Adding the samples of a sound in place is adding them to copies: the room is made before anything is changed. -/
private theorem add_eq (sound : Sound) {sample : Float → Work Float} {make : Nat → Noise → Float32 × Noise}
    (hmake : sound.sample? desk.synth.timebase voice = .ok make)
    (h : ∀ i other, (do return narrow (← sample (desk.synth.timebase.seconds (UInt64.ofNat i))) : Work Float32) other =
      (.ok (make i other.synth.noise).1, other.withNoise (make i other.synth.noise).2)) :
    add track start sound.duration sample desk =
      desk.replace (desk.tracks.modify? (desk.synth.play? voice sound start) track) := by
  rw [Tracks.modify?_eq, Synth.play?_of_sample? hmake, add, bind_of_ok (timebase_eq desk)]
  rcases Nat.lt_or_ge maxSamples (start + desk.synth.timebase.samplesFor sound.duration) with hlong | hfits
  · rw [Buffer.reach?_of_lt hlong, bind_of_error (makeRoom_of_lt hlong)]
    rfl
  · rw [Buffer.reach?_eq_ok_iff.2 ⟨hfits, rfl⟩, bind_of_ok (makeRoom_of_le hfits), fill_eq h]
    simp only [withBuffer, withNoise, Tracks.get_set, if_true, Tracks.set_set]
    rfl

/-- So it is if something is found first, or not, from which the samples are made. -/
private theorem check_add_eq {α : Type} (sound : Sound) {found : Except AudioError α} {sample : α → Float → Work Float}
    {make : α → Nat → Noise → Float32 × Noise}
    (hmake : sound.sample? desk.synth.timebase voice = found.map make)
    (h : ∀ a i other,
      (do return narrow (← sample a (desk.synth.timebase.seconds (UInt64.ofNat i))) : Work Float32) other =
        (.ok (make a i other.synth.noise).1, other.withNoise (make a i other.synth.noise).2)) :
    (check found >>= fun a => add track start sound.duration (sample a)) desk =
      desk.replace (desk.tracks.modify? (desk.synth.play? voice sound start) track) := by
  cases found with
  | error e =>
    rw [bind_of_error (check_eq _ desk), Tracks.modify?_eq, Synth.play?, hmake]
    rfl
  | ok a =>
    rw [bind_of_ok (check_eq _ desk)]
    exact add_eq sound hmake (h a)

/-- Playing a sound in place is playing it on copies: its frequencies are found before anything is changed. -/
theorem play_eq (track : Track) (voice : Voice) (start : Nat) (sound : Sound) (desk : Desk) :
    play track voice start sound desk =
      desk.replace (desk.tracks.modify? (desk.synth.play? voice sound start) track) := by
  cases sound with
  | note n =>
    have hmake : (Sound.note n).sample? desk.synth.timebase voice = (frequency? n.pitch).map fun frequency i noise =>
        (narrow (noteSample voice n.velocity frequency (desk.synth.timebase.seconds (UInt64.ofNat i))), noise) := by
      rw [Sound.sample?]
      cases frequency? n.pitch <;> rfl
    exact check_add_eq (.note n) hmake fun frequency i other => rfl
  | chord c =>
    have hmake : (Sound.chord c).sample? desk.synth.timebase voice =
        (c.pitches.mapM frequency?).map fun frequencies i noise =>
          (narrow (chordSample c.velocity frequencies (desk.synth.timebase.seconds (UInt64.ofNat i))), noise) := by
      rw [Sound.sample?]
      cases c.pitches.mapM frequency? <;> rfl
    exact check_add_eq (.chord c) hmake fun frequencies i other => rfl
  | drum d =>
    have hmake : (Sound.drum d).sample? desk.synth.timebase voice = .ok fun i noise =>
        (narrow (drumSample d.kind d.velocity (d.kind.draw noise).1 (desk.synth.timebase.seconds (UInt64.ofNat i))),
          (d.kind.draw noise).2) := rfl
    rw [play]
    exact add_eq (.drum d) hmake fun i other => rfl

end

/-- Playing an event on its own track in place is playing it on copies. -/
theorem run_event_eq (event : Event) (desk : Desk) :
    run (.event event.track event) desk = desk.replace (desk.synth.render? event desk.tracks) := by
  rw [run, Synth.render?, bind_of_ok (timebase_eq desk)]
  cases desk.synth.timebase.sampleAt event.timestamp with
  | none => rfl
  | some start => exact play_eq event.track (Voice.ofTrack event.track) start event.sound desk

/-! ### Failures -/

/-- Why a call fails, if it does; this does not depend on what was done before. -/
def Call.refusal? (timebase : Timebase) : Call → Option AudioError
  | .sound _ _ played start => played.refusal? timebase start
  | .event _ played => (timebase.sampleAt played.timestamp).elim (some .tooLong) (played.sound.refusal? timebase)

private theorem fst_play (track : Track) (voice : Voice) (start : Nat) (sound : Sound) (desk : Desk) :
    (play track voice start sound desk).1 = (sound.refusal? desk.synth.timebase start).elim (.ok ()) .error := by
  rw [play_eq, Tracks.modify?_eq, Synth.play?_eq, Sound.refusal?]
  split
  · split <;> rfl
  · rfl

/-- A call fails exactly if there is a reason for it, and with this reason. -/
private theorem fst_run (call : Call) (desk : Desk) :
    (run call desk).1 = (call.refusal? desk.synth.timebase).elim (.ok ()) .error := by
  cases call with
  | sound track voice played start => exact fst_play track voice start played desk
  | event track played =>
    rw [run, bind_of_ok (timebase_eq desk), Call.refusal?]
    cases desk.synth.timebase.sampleAt played.timestamp with
    | none => rfl
    | some start => exact fst_play track (Voice.ofTrack track) start played.sound desk

private theorem eq_of_play_eq_error {track : Track} {voice : Voice} {start : Nat} {sound : Sound} {desk : Desk}
    {e : AudioError}
    (h : (play track voice start sound desk).1 = .error e) : (play track voice start sound desk).2 = desk := by
  rw [play_eq] at h ⊢
  cases hresult : desk.tracks.modify? (desk.synth.play? voice sound start) track with
  | error e => rfl
  | ok result =>
    rw [hresult] at h
    cases h

/-- A call that fails has changed nothing. -/
private theorem eq_of_run_eq_error {call : Call} {desk : Desk} {e : AudioError} (h : (run call desk).1 = .error e) :
    (run call desk).2 = desk := by
  cases call with
  | sound track voice played start => exact eq_of_play_eq_error h
  | event track played =>
    rw [run, bind_of_ok (timebase_eq desk)] at h ⊢
    cases hstart : desk.synth.timebase.sampleAt played.timestamp with
    | none => rfl
    | some start =>
      rw [hstart] at h
      exact eq_of_play_eq_error h

/-! ### Several calls -/

/-- The desk after calls were made one after the other, whether they failed or not. -/
def performAll (desk : Desk) (calls : List Call) : Desk :=
  calls.foldl (fun desk call => (run call desk).2) desk

/-- Those calls that do not fail when all are made one after the other. -/
def succeeding : Desk → List Call → List Call
  | _, [] => []
  | desk, call :: calls =>
    if (run call desk).1.isOk then call :: succeeding (run call desk).2 calls else succeeding (run call desk).2 calls

private theorem succeeding_sublist (desk : Desk) (calls : List Call) : (desk.succeeding calls).Sublist calls := by
  induction calls generalizing desk with
  | nil => exact List.Sublist.slnil
  | cons call calls ih =>
    rw [succeeding]
    split
    · exact (ih _).cons_cons call
    · exact (ih _).cons call

/-- Made alone, the calls that did not fail still do not fail, and lead to the same desk. -/
private theorem forM_succeeding (desk : Desk) (calls : List Call) :
    forM (desk.succeeding calls) run desk = (.ok (), desk.performAll calls) := by
  induction calls generalizing desk with
  | nil => rfl
  | cons call calls ih =>
    rw [succeeding, performAll, List.foldl_cons]
    cases hresult : (run call desk).1 with
    | error e =>
      rw [eq_of_run_eq_error hresult]
      exact ih desk
    | ok done =>
      have hrun : run call desk = (.ok (), (run call desk).2) := Prod.ext hresult rfl
      show forM (call :: (run call desk).2.succeeding calls) run desk = _
      rw [List.forM_cons, bind_of_ok hrun]
      exact ih _

private theorem performAll_of_forM {calls : List Call} {desk later : Desk} (h : forM calls run desk = (.ok (), later)) :
    desk.performAll calls = later := by
  induction calls generalizing desk with
  | nil => exact congrArg Prod.snd h
  | cons call calls ih =>
    rw [List.forM_cons] at h
    cases hresult : (run call desk).1 with
    | error e =>
      rw [bind_of_error (Prod.ext hresult rfl)] at h
      cases h
    | ok done =>
      rw [bind_of_ok (Prod.ext hresult rfl)] at h
      exact ih h

/-- Calls that fail leave no trace: the desk is in the end as if only the others had been made, in their order, and
then none of these fails.  It is so because a call is done completely or not at all, as if on copies of the desk,
although each of its steps changes the desk at once. -/
theorem performAll_succeeding (desk : Desk) (calls : List Call) :
    (desk.succeeding calls).Sublist calls ∧
      desk.performAll (desk.succeeding calls) = desk.performAll calls ∧
      forM (desk.succeeding calls) run desk = (.ok (), desk.performAll calls) ∧
      (∀ call other, (run call other).1 = (call.refusal? other.synth.timebase).elim (.ok ()) .error) ∧
      (∀ track voice sound start other, run (.sound track voice sound start) other =
        other.replace (other.tracks.modify? (other.synth.play? voice sound start) track)) ∧
      ∀ event other, run (.event event.track event) other =
        other.replace (other.synth.render? event other.tracks) := by
  have hmade := forM_succeeding desk calls
  refine ⟨succeeding_sublist desk calls, performAll_of_forM hmade, hmade, fst_run, ?_, run_event_eq⟩
  intro track voice sound start other
  exact play_eq track voice start sound other

/-- A hi-hat, a chord with a pitch that has no frequency, a note that ends too late, and a snare on another track. -/
def mishaps : List Call :=
  [.event .drums ⟨0, .drum ⟨.hiHat, 100, 2⟩⟩, .event .guitar ⟨0, .chord ⟨[60, Int64.minValue], 100, 2⟩⟩,
    .sound .bass .guitar (.note ⟨60, 100, 1⟩) maxSamples, .sound .guitar .bass (.drum ⟨.snare, 100, 1⟩) 4]

example : (performAll ⟨⟨⟨960⟩, .ofWords #[1]⟩, {}⟩ mishaps).tracks.lengths = [0, 5, 2] ∧
    (performAll ⟨⟨⟨960⟩, .ofWords #[1]⟩, {}⟩ mishaps).synth.noise.drawn = 3 := by
  decide +kernel

end Desk

end Ostinato
