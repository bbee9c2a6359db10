import Tidemark.Proofs.Destination.Calls
import Tidemark.Proofs.Destination.WatermarkPayload

/-!
# The log of a stream in memory

A write, a put and a submission each append their record to the log or leave the log as it is
(`Appended`); nothing else changes it. So the watermarks found in the log grow at the end, by the
watermark that the record carries, if it carries one (`Appended.logged`).
-/

namespace Tidemark

namespace InMemory

/-- The record was appended to the log, or the log is the same. -/
def Appended (m m' : InMemory) (record : Record) : Prop :=
  m'.log = m.log ∨ ∃ partition sequence, m'.log = m.log.push ⟨partition, sequence, record⟩

theorem Still.appended {m m' : InMemory} (h : m.Still m') (record : Record) : m.Appended m' record :=
  Or.inl h.log

theorem Writes.appended {m m' : InMemory} {record : Record} {e : LogEntry} (h : m.Writes m' record e) :
    m.Appended m' record :=
  Or.inr ⟨e.partition, e.sequence, by rw [h.log, ← h.becomes.kept]⟩

theorem appended_put (m : InMemory) (record : Record) : m.Appended (m.put record).2 record := by
  rcases m.still_or_writes_put record with hstill | ⟨e, hwrites⟩
  · exact hstill.appended record
  · exact hwrites.appended

theorem appended_submit (m : InMemory) (handle : Nat) (record : Record) :
    m.Appended (m.submit handle record).2 record := by
  rcases m.still_or_writes_submit handle record with hstill | ⟨e, hwrites⟩
  · exact hstill.appended record
  · exact hwrites.appended

theorem log_list (m : InMemory) (token : Option String) : (m.list token).2.log = m.log :=
  (m.still_list token).log

theorem log_release (m : InMemory) (index : Nat) (success : Bool) :
    (m.release index success).2.log = m.log := by
  rcases m.release_cases index success with ⟨-, h⟩ | ⟨x, -, h⟩ <;> rw [h]

/-- To have calls fail leaves the log as it is. -/
theorem log_injected (m : InMemory) (changes : List (Injection × Nat)) :
    (changes.foldl (fun m (kind, n) ↦ m.inject kind n) m).log = m.log := by
  induction changes generalizing m with
  | nil => rfl
  | cons change rest ih => exact ih (m.inject change.1 change.2)

/-- The watermarks in the log, in the order of writing. -/
def logged (m : InMemory) : List Timestamp :=
  m.watermarks.map Prod.snd

/-- The watermarks in the log depend on the log alone. -/
theorem logged_of_log {m m' : InMemory} (h : m'.log = m.log) : m'.logged = m.logged := by
  rw [logged, logged, watermarks, watermarks, h]

/-- The log gains the watermark of the record that was appended. -/
theorem Appended.logged {m m' : InMemory} {record : Record} (h : m.Appended m' record) :
    m'.logged = m.logged ∨
      ∃ w, watermarkOfPayload? record.payload = some w ∧ m'.logged = m.logged ++ [w] := by
  rcases h with h | ⟨partition, sequence, h⟩
  · exact Or.inl (logged_of_log h)
  · have hpush : m'.logged = m.logged ++ (watermarkOfPayload? record.payload).toList := by
      rw [InMemory.logged, InMemory.logged, watermarks, watermarks, h, Array.toList_push,
        List.filterMap_append, List.map_append]
      cases hw : watermarkOfPayload? record.payload <;> simp [LogEntry.watermark?, hw]
    cases hw : watermarkOfPayload? record.payload with
    | none =>
      rw [hw] at hpush
      exact Or.inl (by simpa using hpush)
    | some w =>
      rw [hw] at hpush
      exact Or.inr ⟨w, rfl, hpush⟩

end InMemory

end Tidemark
