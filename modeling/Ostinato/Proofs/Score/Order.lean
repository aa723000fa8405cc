import Ostinato.Proofs.Sorting
import Ostinato.Score.Event

/-!
# The order of play

A schedule is played in the order of its stamps, and events with the same stamp in the order in which they arrived.
These two rules leave no choice (`Schedule.sorted_eq_iff_plays`): in a list that ascends the events with one stamp stand
together, and their order among themselves is given, even if some of them are equal.

* `Schedule.ofEvents`: a schedule that has received events one after the other.
* `Schedule.Plays`: what it means for a list to be the order of play of events.
-/

namespace Ostinato

namespace Schedule

/-- The schedule that has received the given events, the first one first. -/
def ofEvents (events : List Event) : Schedule :=
  events.foldl push {}

/-- A list in which received events can be played: they are all there, in the order of their stamps, and those with the
same stamp in the order in which they were received. -/
structure Plays (received played : List Event) : Prop where
  perm : played.Perm received
  ascending : played.Pairwise fun a b => a.timestamp ≤ b.timestamp
  ties : ∀ stamp, played.filter (·.timestamp = stamp) = received.filter (·.timestamp = stamp)

variable {received played : List Event}

@[simp] theorem events_ofEvents (events : List Event) : (ofEvents events).events.toList = events := by
  have hpush : ∀ (schedule : Schedule) (events : List Event),
      (events.foldl push schedule).events.toList = schedule.events.toList ++ events := by
    intro schedule events
    induction events generalizing schedule with
    | nil => exact (List.append_nil _).symm
    | cons event events ih =>
      rw [List.foldl_cons, ih, push, Array.toList_push, List.append_assoc, List.singleton_append]
  exact hpush {} events

/-! ### Stamps as numbers -/

/-- The stamp of an event as a number. -/
def stamp (event : Event) : Nat :=
  event.timestamp.toNat

private theorem pairwise_stamp_iff :
    (played.Pairwise fun a b => stamp a ≤ stamp b) ↔ played.Pairwise fun a b => a.timestamp ≤ b.timestamp := by
  simp only [stamp, UInt64.le_iff_toNat_le]

private theorem filter_stamp_eq (events : List Event) (ticks : Ticks) :
    events.filter (stamp · = ticks.toNat) = events.filter (·.timestamp = ticks) := by
  simp only [stamp, UInt64.toNat_inj]

private theorem sorted_eq_mergeSort (schedule : Schedule) :
    schedule.sorted = schedule.events.toList.mergeSort fun a b => stamp a ≤ stamp b := by
  have hle : (fun a b : Event => decide (a.timestamp ≤ b.timestamp)) = fun a b => decide (stamp a ≤ stamp b) :=
    funext₂ fun _ _ => decide_eq_decide.2 UInt64.le_iff_toNat_le
  rw [sorted, hle]

/-- Numbers that are no stamps select no event. -/
private theorem filter_stamp_congr
    (h : ∀ ticks, played.filter (·.timestamp = ticks) = received.filter (·.timestamp = ticks))
    (n : Nat) : played.filter (stamp · = n) = received.filter (stamp · = n) := by
  by_cases hn : n < UInt64.size
  · have hticks : (UInt64.ofNat n).toNat = n := UInt64.toNat_ofNat_of_lt hn
    rw [← hticks, filter_stamp_eq, filter_stamp_eq]
    exact h _
  · have hnone : ∀ events : List Event, events.filter (stamp · = n) = [] := by
      intro events
      refine List.filter_eq_nil_iff.2 fun event _ => ?_
      have hlt : stamp event < UInt64.size := event.timestamp.toNat_lt
      simp only [decide_eq_true_eq]
      omega
    rw [hnone, hnone]

/-! ### The sorted schedule -/

theorem plays_sorted (events : List Event) : Plays events (ofEvents events).sorted where
  perm := by
    rw [sorted_eq_mergeSort, events_ofEvents]
    exact List.mergeSort_perm _ _
  ascending := by
    rw [sorted_eq_mergeSort, ← pairwise_stamp_iff]
    exact pairwise_mergeSort_key _
  ties ticks := by
    rw [sorted_eq_mergeSort, ← filter_stamp_eq, ← filter_stamp_eq, filter_mergeSort_key, events_ofEvents]

/-- There is only one order of play. -/
theorem Plays.sorted_eq (h : Plays received played) : (ofEvents received).sorted = played := by
  rw [sorted_eq_mergeSort, events_ofEvents]
  exact mergeSort_key_eq (pairwise_stamp_iff.2 h.ascending) (filter_stamp_congr h.ties)

private theorem plays_self_iff : Plays received received ↔ received.Pairwise fun a b => a.timestamp ≤ b.timestamp :=
  ⟨Plays.ascending, fun h => ⟨List.Perm.refl _, h, fun _ => rfl⟩⟩

/-- A schedule is played in the one order in which all its events are there, their stamps never decrease, and events
with the same stamp stay in the order in which they were received.  So it is played as it was received exactly if the
stamps never decreased then, and what is played in order once is not changed by playing it in order again. -/
theorem sorted_eq_iff_plays (received : List Event) :
    (∀ played, (ofEvents received).sorted = played ↔ Plays received played) ∧
      ((ofEvents received).sorted = received ↔ received.Pairwise fun a b => a.timestamp ≤ b.timestamp) ∧
      (ofEvents (ofEvents received).sorted).sorted = (ofEvents received).sorted := by
  have hsorted : ∀ received played, (ofEvents received).sorted = played ↔ Plays received played := by
    intro received played
    exact ⟨fun h => h ▸ plays_sorted received, Plays.sorted_eq⟩
  refine ⟨hsorted received, (hsorted received received).trans plays_self_iff, ?_⟩
  exact (hsorted _ _).2 (plays_self_iff.2 (plays_sorted received).ascending)

end Schedule

end Ostinato
