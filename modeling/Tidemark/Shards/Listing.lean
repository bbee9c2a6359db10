import Tidemark.Record
import Tidemark.Shards.Fault

/-!
# Listing shards

Every shard is a partition, and its hashes begin where its range does. A shard without a range makes the
whole page a fault. The first page is asked for by the name of the stream, and every later one by the token
that came with the page before it: the service takes a token only without a name.
-/

namespace Tidemark.Shards

/-- A shard, with the beginning of its range of hashes if it has one. -/
structure Shard where
  name : String
  lower : Option String
  deriving DecidableEq, Repr

structure ShardPage where
  shards : List Shard
  next : Option String
  deriving DecidableEq, Repr

/-- A request for a page of shards. -/
structure ListRequest where
  streamName : Option String
  token : Option String
  deriving DecidableEq, Repr

/-- The request for the page that a token asks for, or for the first page of a stream. -/
def ListRequest.of (streamName : String) : Option String → ListRequest
  | some token => ⟨none, some token⟩
  | none => ⟨some streamName, none⟩

/-- The partition that a shard is. -/
def Shard.descriptor (s : Shard) : Except StreamFault Descriptor :=
  match s.lower with
  | some lower => .ok ⟨s.name, lower⟩
  | none => .error (.service ("shard " ++ s.name ++ " has no hash key range"))

/-- The page that an answer of the service is. -/
def pageOf (answer : Except Refusal ShardPage) : Except StreamFault Page :=
  match answer with
  | .error refusal => .error (StreamFault.ofRefusal refusal)
  | .ok page =>
    match page.shards.mapM Shard.descriptor with
    | .error fault => .error fault
    | .ok partitions => .ok ⟨partitions, page.next⟩

end Tidemark.Shards
