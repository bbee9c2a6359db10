import Tidemark.Fault
import Tidemark.Refusal

/-!
# A store of objects

Where the objects of a replay are, which field of their lines holds the time, and what can go wrong with
them. The replay sees a faulty configuration as such and all else as a fault of the source.
-/

namespace Tidemark.Objects

/-- Why a store cannot be read with a configuration. -/
inductive StoreConfigFault where
  | reported (text : String)
  | region
  | bucket
  | timestampField

namespace StoreConfigFault

def message : StoreConfigFault → String
  | reported text => text
  | region => "region is required"
  | bucket => "bucket is required"
  | timestampField => "timestamp field is required"

end StoreConfigFault

inductive StoreFault where
  /-- The service refused, or an object could not be read. -/
  | service (text : String)
  | invalidConfig (cause : StoreConfigFault)
  | other (text : String)

namespace StoreFault

def ofRefusal (r : Refusal) : StoreFault :=
  .service r.text

/-- The fault of asking for an object without a key; such a request is not made. -/
def missingKey : StoreFault :=
  let interceptor := "GetObjectEndpointParamsInterceptor"
  .service ("failed to construct request: " ++ interceptor
    ++ " read_before_execution interceptor encountered an error: key was missing: A required field was"
    ++ " not set (ConstructionFailure(ConstructionFailure \x7b source: InterceptorError \x7b kind:"
    ++ " ReadBeforeExecution, interceptor_name: Some(\"" ++ interceptor
    ++ "\"), source: Some(BuildError \x7b kind: MissingField \x7b field: \"key\", details: \"A required"
    ++ " field was not set\" \x7d \x7d) \x7d \x7d))")

/-- The fault of reading an object, for a reason. -/
def reading (bucket key reason : String) : StoreFault :=
  .service ("reading s3://" ++ bucket ++ "/" ++ key ++ ": " ++ reason)

def message : StoreFault → String
  | service text => "Failed with S3 error - " ++ text
  | invalidConfig cause => "Invalid configuration: " ++ cause.message
  | other text => text

/-- The fault as the replay sees it. -/
def toFault : StoreFault → Fault
  | invalidConfig cause => .config (.reported cause.message)
  | f => .source (.reported f.message)

end StoreFault

structure StoreConfig where
  region : String := "eu-west-1"
  bucket : String
  /-- What the keys of the objects start with. -/
  keyStart : String
  endpoint : Option String := none
  /-- The field of a line that holds its time. -/
  timestampField : String
  deriving DecidableEq, Repr

namespace StoreConfig

/-- The first fault of the configuration. -/
def fault? (c : StoreConfig) : Option StoreConfigFault :=
  if c.region.isEmpty then some .region
  else if c.bucket.isEmpty then some .bucket
  else if c.timestampField.isEmpty then some .timestampField
  else none

def validate (c : StoreConfig) : Except StoreFault Unit :=
  match c.fault? with
  | some fault => .error (.invalidConfig fault)
  | none => .ok ()

end StoreConfig

end Tidemark.Objects
