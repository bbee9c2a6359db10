import Tidemark.Binary64.Basic

/-!
# Spans and instants

A span is a length of time in whole nanoseconds, an instant a number of nanoseconds since the start of
a run. The seconds of a span stay below `2 ^ 64`; sums of an instant and a span are taken without a
bound, and differences are never negative.
-/

namespace Tidemark

/-- A length of time. -/
structure Span where
  nanos : Nat
  deriving DecidableEq, Repr

/-- A point in time, counted from the start of a run. -/
structure Instant where
  nanos : Nat
  deriving DecidableEq, Repr

namespace Span

def nanosPerSecond : Nat := 1000000000

def nanosPerMilli : Nat := 1000000

/-- The longest span: one nanosecond below `2 ^ 64` seconds. -/
def longest : Span := ⟨2 ^ 64 * nanosPerSecond - 1⟩

def ofSeconds (n : Nat) : Span := ⟨n * nanosPerSecond⟩

def ofMillis (n : Nat) : Span := ⟨n * nanosPerMilli⟩

def zero : Span := ⟨0⟩

def seconds (d : Span) : Nat := d.nanos / nanosPerSecond

/-- The nanoseconds beyond the whole seconds. -/
def subsecond (d : Span) : Nat := d.nanos % nanosPerSecond

/-- Whole milliseconds. -/
def millis (d : Span) : Nat := d.nanos / nanosPerMilli

instance : LE Span := ⟨fun d e => d.nanos ≤ e.nanos⟩
instance : LT Span := ⟨fun d e => d.nanos < e.nanos⟩
instance (d e : Span) : Decidable (d ≤ e) := inferInstanceAs (Decidable (d.nanos ≤ e.nanos))
instance (d e : Span) : Decidable (d < e) := inferInstanceAs (Decidable (d.nanos < e.nanos))
instance : Min Span := ⟨fun d e => ⟨min d.nanos e.nanos⟩⟩
instance : Max Span := ⟨fun d e => ⟨max d.nanos e.nanos⟩⟩

/-- A sleep that no clock can count to the end of takes thirty years. -/
def farAway : Span := ofSeconds (86400 * 365 * 30)

/-- The difference, zero where the second span is the longer one. -/
def saturatingSub (d e : Span) : Span := ⟨d.nanos - e.nanos⟩

/-- The span in seconds: its whole seconds plus the quotient of its nanoseconds, each rounded. -/
def toSeconds (d : Span) : Binary64 :=
  Binary64.ofNat d.seconds + Binary64.ofNat d.subsecond / Binary64.ofNat nanosPerSecond

/-- A number of seconds rounded to the nearest nanosecond, ties to the even one. None for what is
negative, not a number, or `2 ^ 64` seconds and more. -/
def ofSeconds? : Binary64 → Option Span
  | .nan => none
  | .infinite _ => none
  | .finite negative m p =>
    let nanos := divNearestEven (m * 2 ^ p * nanosPerSecond) Binary64.one
    if negative ∧ m ≠ 0 then none
    else if nanos < 2 ^ 64 * nanosPerSecond then some ⟨nanos⟩ else none

/-- The text of a span: its largest unit that is at least one of seconds, milliseconds, microseconds
and nanoseconds, with as many decimals as it needs. -/
def text (d : Span) : String :=
  if nanosPerSecond ≤ d.nanos then amount d.nanos nanosPerSecond 9 "s"
  else if nanosPerMilli ≤ d.nanos then amount d.nanos nanosPerMilli 6 "ms"
  else if 1000 ≤ d.nanos then amount d.nanos 1000 3 "µs"
  else amount d.nanos 1 0 "ns"
where
  /-- A quotient by a power of ten, without trailing zeros. -/
  amount (nanos unit places : Nat) (name : String) : String :=
    let digits := (toString (nanos % unit)).toList
    let padded := List.replicate (places - digits.length) '0' ++ digits
    let fraction := (padded.reverse.dropWhile (· == '0')).reverse
    let fraction := if unit = 1 ∨ fraction.isEmpty then "" else "." ++ String.ofList fraction
    toString (nanos / unit) ++ fraction ++ name

end Span

namespace Instant

def start : Instant := ⟨0⟩

instance : LE Instant := ⟨fun s t => s.nanos ≤ t.nanos⟩
instance : LT Instant := ⟨fun s t => s.nanos < t.nanos⟩
instance (s t : Instant) : Decidable (s ≤ t) := inferInstanceAs (Decidable (s.nanos ≤ t.nanos))
instance (s t : Instant) : Decidable (s < t) := inferInstanceAs (Decidable (s.nanos < t.nanos))

/-- The time that has passed since an earlier instant, zero for a later one. -/
def since (now earlier : Instant) : Span := ⟨now.nanos - earlier.nanos⟩

def after (t : Instant) (d : Span) : Instant := ⟨t.nanos + d.nanos⟩

/-- Whole milliseconds since the start. -/
def millis (t : Instant) : Nat := t.nanos / Span.nanosPerMilli

/-- What no clock counts to: `2 ^ 63` seconds. -/
def horizon : Instant := ⟨2 ^ 63 * Span.nanosPerSecond⟩

/-- The instant after a span, if a clock counts to it. -/
def after? (t : Instant) (d : Span) : Option Instant :=
  if t.after d < horizon then some (t.after d) else none

/-- The next whole millisecond, or the instant itself if it is one. -/
def roundUp (t : Instant) : Instant :=
  ⟨(t.nanos + Span.nanosPerMilli - 1) / Span.nanosPerMilli * Span.nanosPerMilli⟩

/-- When a sleep of a given length ends that begins now: at a whole millisecond. -/
def wake (t : Instant) (d : Span) : Instant :=
  ((t.after? d).getD (t.after Span.farAway)).roundUp

end Instant

end Tidemark
