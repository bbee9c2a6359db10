import Tidemark.Record

/-!
# Partitions

The hashes below `2 ^ 128` are split evenly among the partitions of a topology: all have the same width
but the last, which takes what the division leaves over. Partitions are numbered through the life of a
stream, so that a number is never given out twice.
-/

namespace Tidemark

/-- A partition with its number and the least and the greatest hash that it takes. -/
structure Partition where
  number : Nat
  lower : Nat
  upper : Nat
  deriving DecidableEq, Repr

/-- How many hashes there are. -/
def hashCount : Nat := 2 ^ 128

namespace Partition

/-- The name of a partition: its number with twelve digits at least. -/
def name (p : Partition) : String :=
  "shardId-" ++ Written.padded 12 p.number

def holds (p : Partition) (hash : Nat) : Bool :=
  p.lower ≤ hash && hash ≤ p.upper

def descriptor (p : Partition) : Descriptor :=
  ⟨p.name, toString p.lower⟩

/-- The width of every partition but the last of `count` ones. -/
def width (count : Nat) : Nat :=
  (hashCount - 1) / count

/-- A topology of `count` partitions, one at least, numbered from `first` on. -/
def topology (count first : Nat) : List Partition :=
  let count := max count 1
  (List.range count).map fun i =>
    { number := first + i
      lower := width count * i
      upper := if i + 1 = count then hashCount - 1 else width count * (i + 1) - 1 }

/-- The hash of a key: the first sixteen bytes of its SHA-256 digest. -/
def hashOf (key : String) : Nat :=
  Sha256.leading 16 key.toUTF8

end Partition

end Tidemark
