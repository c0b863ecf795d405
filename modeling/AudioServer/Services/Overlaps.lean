import AudioServer.Foundations.Intervals
import AudioServer.Services.Editing

/-! The overlap flags of a transcript save, against the comparison of every pair. -/

namespace AudioServer.Services.Overlaps

open AudioServer.Foundations.Intervals AudioServer.Api.Schemas AudioServer.Services.Editing

abbrev SharesTime (a b : TranscriptSegmentUpdate) : Prop := Shares (·.startTime) (·.endTime) a b

def pairwiseFlags (ordered : List TranscriptSegmentUpdate) : List Bool :=
  ordered.zipIdx.map (fun item =>
    decide (∃ other ∈ ordered.zipIdx, other.2 ≠ item.2 ∧ SharesTime item.1 other.1))

lemma overlapFlags_sweep (maxEndBefore : Option Seconds) (ordered : List TranscriptSegmentUpdate) :
    overlapFlags maxEndBefore ordered = sweep (·.startTime) (·.endTime) maxEndBefore ordered := by
  induction ordered generalizing maxEndBefore with
  | nil => rfl
  | cons item rest ih => rw [overlapFlags, sweep, ih]

lemma updateOrder_start {a b : TranscriptSegmentUpdate} (h : UpdateOrder a b) :
    a.startTime ≤ b.startTime := by
  rcases h with h | ⟨h, _⟩
  · exact le_of_lt h
  · exact le_of_eq h

theorem overlapFlags_pairwise {ordered : List TranscriptSegmentUpdate}
    (hsorted : ordered.Pairwise UpdateOrder) :
    overlapFlags none ordered = pairwiseFlags ordered := by
  rw [overlapFlags_sweep]
  exact sweep_pairwise (hsorted.imp updateOrder_start) (fun item _ => item.end_after_start)

def nestedUpdates : List TranscriptSegmentUpdate :=
  [⟨1, "A".toList, 20, 29, "a".toList, by decide, by decide, by decide, by decide, by decide, by decide⟩,
    ⟨2, "B".toList, 21, 22, "b".toList, by decide, by decide, by decide, by decide, by decide, by decide⟩,
    ⟨3, "B".toList, 25, 26, "c".toList, by decide, by decide, by decide, by decide, by decide, by decide⟩,
    ⟨4, "B".toList, 29, 30, "d".toList, by decide, by decide, by decide, by decide, by decide,
      by decide⟩]

theorem overlapFlags_pairwise_nested :
    pairwiseFlags nestedUpdates = [true, true, true, false] ∧
      overlapFlags none nestedUpdates = pairwiseFlags nestedUpdates :=
  ⟨by decide +kernel, overlapFlags_pairwise (by decide +kernel)⟩

end AudioServer.Services.Overlaps
