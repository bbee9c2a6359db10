import Tidemark.CommandLine.Reader

/-!
# Usage

What is printed when the command line gives no arguments.
-/

namespace Tidemark.CommandLine

/-- An option as the help shows it: its name, what stands for its value, what it is for and its usual
value. -/
structure OptionHelp where
  name : String
  value : String := ""
  about : String
  usual : String := ""

/-- The options in the order of the help. -/
def optionHelp : List OptionHelp :=
  [⟨"region", "region", "AWS region of the source bucket and the destination stream", "eu-west-1"⟩,
    ⟨"bucket", "bucket", "Bucket holding the events to replay", "aws-bigdata-blog"⟩,
    ⟨"prefix", "prefix", "Prefix of the objects to replay", "artifacts/flink-refarch/data/"⟩,
    ⟨"input-file", "input-file", "Replay a local JSON lines file instead of the objects in S3", ""⟩,
    ⟨"stream", "stream", "Name of the Kinesis data stream the events are written to",
      "taxi-trip-events"⟩,
    ⟨"speedup", "speedup", "Factor by which the replay runs faster than the original events", "1440"⟩,
    ⟨"no-watermark", "", "Do not write watermark records to the stream", ""⟩,
    ⟨"timestamp-field", "timestamp-field", "JSON field holding the event time of each event",
      "dropoff_datetime"⟩,
    ⟨"endpoint-url", "endpoint-url",
      "Custom AWS endpoint, e.g. http://localhost:4566 for LocalStack", ""⟩,
    ⟨"metrics-addr", "metrics-addr",
      "Address to serve Prometheus metrics on, e.g. 0.0.0.0:9090", ""⟩]

def OptionHelp.line (o : OptionHelp) : String :=
  let value := if o.value.isEmpty then "" else " <" ++ o.value ++ ">"
  let usual := if o.usual.isEmpty then "" else " [default: " ++ o.usual ++ "]"
  "      --" ++ o.name ++ value ++ "  " ++ o.about ++ usual ++ "\n"

def help : String :=
  "Replays historic events into a Kinesis data stream, paced by their event time\n\n"
    ++ "Usage: replay [OPTIONS]\n\nOptions:\n"
    ++ String.join (optionHelp.map OptionHelp.line)
    ++ "  -h, --help  Print help\n  -V, --version  Print version\n"

def version : String := "replay 0.1.0\n"

/-- What is printed for a fault. -/
def UsageFault.text : UsageFault → String
  | displayHelp => help
  | displayVersion => version
  | valueValidation => "error: invalid value for an argument\n"
  | unknownArgument => "error: unexpected argument found\n"
  | invalidValue => "error: a value is required for an argument but none was supplied\n"
  | argumentConflict => "error: an argument cannot be used with another or multiple times\n"
  | tooManyValues => "error: unexpected value for an argument found; no more were expected\n"

end Tidemark.CommandLine
