import Tidemark.Objects.Listing
import Tidemark.Source.Lines

/-!
# Events from objects

The objects are read one after the other as if they were one file: one decoder numbers all events. A fault
names its object, and lines are counted within the object. An object that cannot be opened is passed over,
and one without a key is not even asked for. One whose connection breaks gives its complete lines, and then
the same fault for ever.
-/

namespace Tidemark.Objects

/-- The content of an object, and whether the connection breaks at its end. -/
structure ObjectBody where
  content : ByteArray
  breaks : Bool := false

/-- An object that is being read. -/
structure OpenObject where
  key : String
  lines : List (List UInt8)
  breaks : Bool
  lineNumber : Nat := 0

/-- The content up to its last line end. -/
def completeLines (content : List UInt8) : List UInt8 :=
  (content.reverse.dropWhile (· ≠ 10)).reverse

/-- Begins to read an object. -/
def OpenObject.ofBody (key : String) (body : ObjectBody) : OpenObject :=
  let bytes := body.content.toList
  { key
    lines := physicalLines [] (if body.breaks then completeLines bytes else bytes)
    breaks := body.breaks }

/-- The objects that are left, with the one that is being read. -/
structure ObjectSource where
  bucket : String
  keys : List String
  current : Option OpenObject := none
  decoder : Decoder

namespace ObjectSource

def start (c : StoreConfig) (keys : List String) : ObjectSource :=
  { bucket := c.bucket, keys, decoder := { field := c.timestampField } }

/-- What the object being read yields next, if it is not at its end. -/
inductive ObjectPull where
  | yielded (result : Except Fault Event) (object : OpenObject) (decoder : Decoder)
  | atEnd (decoder : Decoder)

/-- The fault of a line of an object. -/
def lineFault (bucket key : String) (number : Nat) (fault : LineFault) : Fault :=
  .source (.objectLine bucket key number fault)

/-- Reads the object on, from given lines. -/
def readLines (bucket : String) (o : OpenObject) (decoder : Decoder) (number : Nat) :
    List (List UInt8) → ObjectPull
  | [] =>
    if o.breaks then
      .yielded (.error (StoreFault.reading bucket o.key "streaming error").toFault)
        { o with lines := [], lineNumber := number } decoder
    else .atEnd decoder
  | line :: rest =>
    match Text.decodeUtf8 line with
    | .error fault =>
      .yielded (.error (StoreFault.reading bucket o.key fault.message).toFault)
        { o with lines := rest, lineNumber := number } decoder
    | .ok text =>
      match decoder.decode text with
      | (.ok none, decoder) => readLines bucket o decoder (number + 1) rest
      | (.ok (some event), decoder) =>
        .yielded (.ok event) { o with lines := rest, lineNumber := number + 1 } decoder
      | (.error fault, decoder) =>
        .yielded (.error (lineFault bucket o.key (number + 1) fault))
          { o with lines := rest, lineNumber := number + 1 } decoder

/-- Asks for an object. There is no request for an empty key. -/
def openObject (fetch : String → Except Refusal ObjectBody) (key : String) :
    Except StoreFault OpenObject :=
  if key.isEmpty then .error StoreFault.missingKey
  else match fetch key with
    | .error refusal => .error (StoreFault.ofRefusal refusal)
    | .ok body => .ok (OpenObject.ofBody key body)

/-- Opens one object after the other until one yields something. Gives also the keys that were tried. -/
def openNext (bucket : String) (fetch : String → Except Refusal ObjectBody) (decoder : Decoder) :
    List String → Except Fault (Option Event) × List String × ObjectSource
  | [] => (.ok none, [], { bucket, keys := [], decoder })
  | key :: rest =>
    match openObject fetch key with
    | .error fault => (.error fault.toFault, [key], { bucket, keys := rest, decoder })
    | .ok o =>
      match readLines bucket o decoder 0 o.lines with
      | .yielded result object decoder =>
        (result.map some, [key], { bucket, keys := rest, current := some object, decoder })
      | .atEnd decoder =>
        let (result, opened, s) := openNext bucket fetch decoder rest
        (result, key :: opened, s)

/-- What the objects yield next, with the keys that were tried for it. -/
def pull (s : ObjectSource) (fetch : String → Except Refusal ObjectBody) :
    Except Fault (Option Event) × List String × ObjectSource :=
  match s.current with
  | none => openNext s.bucket fetch s.decoder s.keys
  | some o =>
    match readLines s.bucket o s.decoder o.lineNumber o.lines with
    | .yielded result object decoder =>
      (result.map some, [], { s with current := some object, decoder })
    | .atEnd decoder => openNext s.bucket fetch decoder s.keys

end ObjectSource

end Tidemark.Objects
