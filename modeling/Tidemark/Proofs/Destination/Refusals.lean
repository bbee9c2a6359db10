import Tidemark.Proofs.Destination.Calls
import Tidemark.Proofs.Destination.Topology
import Tidemark.Proofs.Text.Numerals

/-!
# What a stream refuses

On a topology every hash finds its partition, and the hash of a key is one. So a record becomes an entry unless
its explicit hash is no number below `2 ^ 128` (`IsTopology.becomes_iff`). A put is refused for that, or because
it is throttled or made to fail (`put_of_refuses`), and it is taken otherwise (`put_of_takes`); the same goes
for a submission. Whatever is refused leaves no trace.
-/

namespace Tidemark

/-! ### Hashes -/

/-- The number that bytes stand for is bounded by how many they are. -/
theorem foldl_bytes_lt (bytes : List UInt8) (n : Nat) :
    bytes.foldl (fun n b ↦ 256 * n + b.toNat) n < (n + 1) * 256 ^ bytes.length := by
  induction bytes generalizing n with
  | nil =>
    rw [List.foldl_nil, List.length_nil]
    omega
  | cons b rest ih =>
    have hb : b.toNat < 256 := b.toNat_lt
    rw [List.foldl_cons, List.length_cons, Nat.pow_succ', ← Nat.mul_assoc]
    exact Nat.lt_of_lt_of_le (ih _) (Nat.mul_le_mul_right _ (by omega))

/-- The first bytes of a digest are bounded by how many they are. -/
theorem Sha256.leading_lt (count : Nat) (message : ByteArray) : leading count message < 256 ^ count := by
  have hlt := foldl_bytes_lt ((digest message).take count) 0
  rw [Nat.zero_add, Nat.one_mul] at hlt
  exact Nat.lt_of_lt_of_le hlt (Nat.pow_le_pow_right (by decide) (List.length_take_le ..))

namespace InMemory

theorem hash_lt {routing : Routing} {h : Nat} (hhash : hash routing = .ok h) : h < hashCount := by
  cases routing with
  | byKey key =>
    have hlt := Sha256.leading_lt 16 key.toUTF8
    rw [hash, Partition.hashOf, Except.ok.injEq] at hhash
    rw [← hhash]
    exact Nat.lt_of_lt_of_eq hlt (by decide)
  | byHash key text =>
    rw [hash] at hhash
    split at hhash
    · rename_i n hread
      cases hhash
      exact Text.readNumeral_lt (by decide) hread
    · exact nomatch hhash

/-- A topology of no more partitions than a word counts. -/
def IsTopology (partitions : List Partition) : Prop :=
  ∃ count first, count < positionBound ∧ partitions = Partition.topology count first

namespace IsTopology

variable {partitions : List Partition} {h : Nat}

theorem find?_of_lt (hlaid : IsTopology partitions) (hh : h < hashCount) :
    ∃ p, partitions.find? (·.holds h) = some p := by
  obtain ⟨count, first, hcount, rfl⟩ := hlaid
  obtain ⟨p, hp, hholds⟩ : ∃ p ∈ Partition.topology count first, p.holds h = true :=
    Partition.exists_holds (Nat.lt_trans hcount (by decide)) hh
  exact Option.isSome_iff_exists.1 (List.find?_isSome.2 ⟨p, hp, hholds⟩)

/-- A hash lies in one partition. -/
theorem eq_of_holds (hlaid : IsTopology partitions) {p q : Partition} (hp : p ∈ partitions)
    (hq : q ∈ partitions) (hph : p.holds h = true) (hqh : q.holds h = true) : p = q := by
  obtain ⟨count, first, hcount, rfl⟩ := hlaid
  exact Partition.eq_of_holds (Nat.lt_trans hcount (by decide)) hp hq hph hqh

/-- A record becomes an entry if and only if it has a hash. -/
theorem becomes_iff {m : InMemory} (hlaid : IsTopology m.partitions) {record : Record} :
    (∃ e, m.Becomes record e) ↔ ∃ h, hash record.routing = .ok h := by
  constructor
  · rintro ⟨e, -, -, h, p, hhash, -⟩
    exact ⟨h, hhash⟩
  · rintro ⟨h, hhash⟩
    obtain ⟨p, hfind⟩ := hlaid.find?_of_lt (hash_lt hhash)
    exact ⟨⟨p.name, m.sequence + 1, record⟩, rfl, rfl, h, p, hhash, hfind, rfl⟩

end IsTopology

/-! ### Refusals -/

/-- The record has no hash, since the one that it is given is no number below the bound. -/
def IsUnroutable (record : Record) : Prop :=
  ∃ fault, hash record.routing = .error fault

/-- A put is throttled, made to fail, or has a record without a hash. -/
def RefusesPut (m : InMemory) (record : Record) : Prop :=
  0 < m.injections.throttlePuts ∨ 0 < m.injections.failPuts ∨ IsUnroutable record

/-- A submission is made to fail, or has a record without a hash. -/
def RefusesSubmit (m : InMemory) (record : Record) : Prop :=
  0 < m.injections.failSubmits ∨ IsUnroutable record

variable {m : InMemory}

theorem not_becomes_of_isUnroutable {record : Record} (h : IsUnroutable record) (e : LogEntry) :
    ¬ m.Becomes record e := by
  obtain ⟨fault, hfault⟩ := h
  rintro ⟨-, -, h, p, hhash, -⟩
  exact nomatch hfault.symm.trans hhash

/-- In a topology only a record without a hash becomes no entry. -/
theorem isUnroutable_of_not_becomes (hlaid : IsTopology m.partitions) {record : Record}
    (h : ∀ e, ¬ m.Becomes record e) : IsUnroutable record := by
  cases hhash : hash record.routing with
  | error fault => exact ⟨fault, hhash⟩
  | ok n => exact absurd (hlaid.becomes_iff.2 ⟨n, hhash⟩) (not_exists.2 h)

/-- A refused put leaves no trace. -/
theorem put_of_refuses {record : Record} (h : m.RefusesPut record) :
    ∃ fault stream, m.put record = (.error fault, stream) ∧ m.Still stream := by
  have hputs := m.puts_put record
  generalize m.put record = x at hputs ⊢
  cases hputs with
  | refused fault stream hstill => exact ⟨fault, stream, rfl, hstill⟩
  | written e stream hwrites _ hcalm =>
    rcases h with hthrottle | hfail | hunroutable
    · exact absurd hthrottle (Nat.not_lt.2 (Nat.le_of_eq hcalm.1))
    · exact absurd hfail (Nat.not_lt.2 (Nat.le_of_eq hcalm.2))
    · exact absurd hwrites.becomes (not_becomes_of_isUnroutable hunroutable e)

/-- A put that is not refused is acknowledged for the entry that it writes. -/
theorem put_of_takes (hlaid : IsTopology m.partitions) {record : Record} (h : ¬ m.RefusesPut record) :
    ∃ e stream, m.put record = (.ok e.ack, stream) ∧ m.Writes stream record e := by
  have hputs := m.puts_put record
  generalize m.put record = x at hputs ⊢
  cases hputs with
  | refused fault stream hstill hwhy =>
    exact absurd (hwhy.imp_right (Or.imp_right (isUnroutable_of_not_becomes hlaid))) h
  | written e stream hwrites => exact ⟨e, stream, rfl, hwrites⟩

/-- A refused submission leaves no trace but the outcome of its handle. -/
theorem submit_of_refuses {record : Record} (h : m.RefusesSubmit record) (handle : Nat) :
    ∃ fault stream, m.submit handle record = (.settled (.error fault), stream) ∧ m.Still stream := by
  have hsubmits := m.submits_submit handle record
  have hcalm (hzero : m.injections.failSubmits = 0) {stream : InMemory} {e : LogEntry}
      (hwrites : m.Writes stream record e) : False := by
    rcases h with hfail | hunroutable
    · exact absurd hfail (Nat.not_lt.2 (Nat.le_of_eq hzero))
    · exact not_becomes_of_isUnroutable hunroutable e hwrites.becomes
  generalize m.submit handle record = x at hsubmits ⊢
  cases hsubmits with
  | refused fault stream hstill => exact ⟨fault, stream, rfl, hstill⟩
  | immediate e stream hwrites _ hzero => exact (hcalm hzero hwrites).elim
  | delayed e stream hwrites _ hzero => exact (hcalm hzero hwrites).elim
  | held e stream hwrites _ hzero => exact (hcalm hzero hwrites).elim

/-- A submission that is not refused writes its record. -/
theorem submit_of_takes (hlaid : IsTopology m.partitions) {record : Record} (h : ¬ m.RefusesSubmit record)
    (handle : Nat) : ∃ e, m.Writes (m.submit handle record).2 record e := by
  have hsubmits := m.submits_submit handle record
  generalize m.submit handle record = x at hsubmits ⊢
  cases hsubmits with
  | refused fault stream hstill hwhy =>
    exact absurd (hwhy.imp_right (isUnroutable_of_not_becomes hlaid)) h
  | immediate e stream hwrites => exact ⟨e, hwrites⟩
  | delayed e stream hwrites => exact ⟨e, hwrites⟩
  | held e stream hwrites => exact ⟨e, hwrites⟩

end InMemory

end Tidemark
