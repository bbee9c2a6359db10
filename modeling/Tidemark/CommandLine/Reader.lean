import Tidemark.CommandLine.Arguments

/-!
# Reading the command line

Words are taken from left to right. An option takes the word after it or the text after its equals sign as
its value; its value is looked at when the next option begins or the words end, so that an earlier fault
comes first. A word that is no option, with nothing waiting for a value, is unknown whatever came before.
-/

namespace Tidemark.CommandLine

/-- An option that takes a value. -/
inductive Setting where
  | region
  | bucket
  | keyStart
  | inputFile
  | stream
  | speedup
  | timestampField
  | endpoint
  | metricsAddress
  deriving DecidableEq, Repr

/-- A switch, which takes no value. -/
inductive Switch where
  | noWatermark
  | help
  | version
  deriving DecidableEq, Repr

/-- Why a command line gives no arguments. -/
inductive UsageFault where
  | displayHelp
  | displayVersion
  | valueValidation
  | unknownArgument
  | invalidValue
  | argumentConflict
  | tooManyValues
  deriving DecidableEq, Repr

namespace UsageFault

def name : UsageFault → String
  | displayHelp => "DisplayHelp"
  | displayVersion => "DisplayVersion"
  | valueValidation => "ValueValidation"
  | unknownArgument => "UnknownArgument"
  | invalidValue => "InvalidValue"
  | argumentConflict => "ArgumentConflict"
  | tooManyValues => "TooManyValues"

/-- Help and version are what was asked for; all else is a mistake. -/
def exitCode : UsageFault → Nat
  | displayHelp | displayVersion => 0
  | _ => 2

end UsageFault

/-- What a long name stands for. -/
def Setting.ofName? (name : String) : Option Setting :=
  match name with
  | "region" => some .region
  | "bucket" => some .bucket
  | "prefix" => some .keyStart
  | "input-file" => some .inputFile
  | "stream" => some .stream
  | "speedup" => some .speedup
  | "timestamp-field" => some .timestampField
  | "endpoint-url" => some .endpoint
  | "metrics-addr" => some .metricsAddress
  | _ => none

def Switch.ofName? (name : String) : Option Switch :=
  match name with
  | "no-watermark" => some .noWatermark
  | "help" => some .help
  | "version" => some .version
  | _ => none

/-- What a single letter stands for. -/
def Switch.ofLetter? (c : Char) : Option Switch :=
  match c with
  | 'h' => some .help
  | 'V' => some .version
  | _ => none

/-- A word of the command line. -/
inductive Word where
  /-- Two hyphens: no option follows. -/
  | escape
  /-- A long name, with the text after its equals sign. -/
  | long (name : String) (value : Option String)
  /-- Letters after one hyphen. -/
  | short (first : Char)
  | plain (text : String)

/-- What kind of word a text is. A hyphen alone is a plain word. -/
def Word.ofText (text : String) : Word :=
  match text.toList with
  | ['-', '-'] => .escape
  | '-' :: '-' :: rest =>
    let name := rest.takeWhile (· ≠ '=')
    match rest.dropWhile (· ≠ '=') with
    | [] => .long (String.ofList name) none
    | _ :: value => .long (String.ofList name) (some (String.ofList value))
  | '-' :: c :: _ => .short c
  | _ => .plain text

/-- What was read so far: settings with their values, the newest first, and an option that waits for its
value or for its value to be looked at. -/
structure Given where
  settings : List (Setting × String) := []
  noWatermark : Bool := false
  pending : Option (Setting × Option String) := none

namespace Given

def value? (g : Given) (s : Setting) : Option String :=
  (g.settings.find? (·.1 = s)).map (·.2)

/-- The fault of a value. -/
def valueFault? (s : Setting) (value : String) : Option UsageFault :=
  match s with
  | .speedup => if (Binary64.read? value).isNone then some .valueValidation else none
  | .metricsAddress => if (SocketAddress.read? value).isNone then some .valueValidation else none
  | .inputFile => if value.isEmpty then some .invalidValue else none
  | _ => none

/-- Takes a setting with its value. A setting is given once; that comes before the fault of its value. -/
def accept (g : Given) (s : Setting) (value : String) : Except UsageFault Given :=
  if (g.value? s).isSome then .error .argumentConflict
  else match valueFault? s value with
    | some fault => .error fault
    | none => .ok { g with settings := (s, value) :: g.settings }

/-- Looks at the option that is pending. -/
def settle (g : Given) : Except UsageFault Given :=
  match g.pending with
  | none => .ok g
  | some (_, none) => .error .invalidValue
  | some (s, some value) => { g with pending := none }.accept s value

/-- Takes a switch. -/
def switch (g : Given) (s : Switch) : Except UsageFault Given :=
  match g.settle with
  | .error fault => .error fault
  | .ok g =>
    match s with
    | .help => .error .displayHelp
    | .version => .error .displayVersion
    | .noWatermark =>
      if g.noWatermark then .error .argumentConflict else .ok { g with noWatermark := true }

/-- Takes an option with the text after its equals sign. -/
def option (g : Given) (name : String) (value : Option String) : Except UsageFault Given :=
  match Setting.ofName? name, value with
  | some s, some value => g.settle.bind (·.accept s value)
  | some s, none => g.settle.map fun g => { g with pending := some (s, none) }
  | none, value =>
    match Switch.ofName? name, value with
    | some _, some _ => .error .tooManyValues
    | some s, none => g.switch s
    | none, _ => .error .unknownArgument

/-- Takes a plain word: the value of the option that waits for one. -/
def plain (g : Given) (text : String) : Except UsageFault Given :=
  match g.pending with
  | some (s, none) => .ok { g with pending := some (s, some text) }
  | _ => .error .unknownArgument

/-- Reads all words. After the escape every word is unknown. -/
def readWords (g : Given) : List String → Except UsageFault Given
  | [] => g.settle
  | text :: rest =>
    match Word.ofText text with
    | .escape => if rest.isEmpty then g.settle else .error .unknownArgument
    | .long name value => (g.option name value).bind fun g => readWords g rest
    | .short c =>
      match Switch.ofLetter? c with
      | some s => (g.switch s).bind fun g => readWords g rest
      | none => .error .unknownArgument
    | .plain text => (g.plain text).bind fun g => readWords g rest

/-- Whether a local file was given along with where objects are. -/
def conflicts (g : Given) : Bool :=
  (g.value? .inputFile).isSome && ((g.value? .bucket).isSome || (g.value? .keyStart).isSome)

/-- The arguments that were given. -/
def arguments (g : Given) : Arguments :=
  let usual : Arguments := {}
  { region := (g.value? .region).getD usual.region
    bucket := (g.value? .bucket).getD usual.bucket
    keyStart := (g.value? .keyStart).getD usual.keyStart
    inputFile := g.value? .inputFile
    stream := (g.value? .stream).getD usual.stream
    speedup := ((g.value? .speedup).bind Binary64.read?).getD usual.speedup
    watermarks := !g.noWatermark
    timestampField := (g.value? .timestampField).getD usual.timestampField
    endpoint := g.value? .endpoint
    metricsAddress := (g.value? .metricsAddress).bind SocketAddress.read? }

end Given

/-- Reads the command line. -/
def read (words : List String) : Except UsageFault Arguments :=
  match ({} : Given).readWords words with
  | .error fault => .error fault
  | .ok g => if g.conflicts then .error .argumentConflict else .ok g.arguments

end Tidemark.CommandLine
