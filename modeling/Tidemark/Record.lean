import Tidemark.Event
import Tidemark.Fault

/-!
# Records

What is written to a destination: an event's payload under its own key, or a watermark under the reserved
key and the lower bound of the partition it is meant for. With them the answers of a destination:
acknowledgements and pages of a listing of partitions.
-/

namespace Tidemark

/-- The key of watermark records. -/
def watermarkKey : String := "23"

/-- The payload of a watermark record. -/
def watermarkPayload (watermark : Timestamp) : ByteArray :=
  ("\x7b\"type\":\"watermark\",\"watermark\":" ++ toString watermark ++ "\x7d").toUTF8

/-- How a record finds its partition: by the hash of its key, or by a hash that is given. -/
inductive Routing where
  | byKey (key : String)
  | byHash (key hash : String)
  deriving DecidableEq, Repr

namespace Routing

def key : Routing → String
  | byKey key => key
  | byHash key _ => key

def hash? : Routing → Option String
  | byKey _ => none
  | byHash _ hash => some hash

end Routing

structure Record where
  payload : ByteArray
  routing : Routing
  deriving DecidableEq

namespace Record

/-- The record of an event. -/
def ofEvent (e : Event) : Record :=
  ⟨e.payload, .byKey e.partitionKey⟩

/-- A watermark record for the partition that the hash lies in. -/
def ofWatermark (watermark : Timestamp) (hash : String) : Record :=
  ⟨watermarkPayload watermark, .byHash watermarkKey hash⟩

/-- The bytes that count against the size of a request. -/
def size (r : Record) : Nat :=
  r.payload.size + r.routing.key.utf8ByteSize

end Record

/-- That a record was written, and where. -/
structure Ack where
  partition : String
  sequence : Option String
  deriving DecidableEq, Repr

/-- What became of a record. -/
abbrev Outcome := Except Fault Ack

/-- A partition and the lower bound of its hashes. -/
structure Descriptor where
  partition : String
  lower : String
  deriving DecidableEq, Repr

/-- A page of a listing; a token asks for the next one. -/
structure Page where
  partitions : List Descriptor
  next : Option String
  deriving DecidableEq, Repr

end Tidemark
