import Tidemark.Config
import Tidemark.Network.SocketAddress
import Tidemark.Objects.Config
import Tidemark.Shards.Config

/-!
# The arguments of a replay

What can be said on the command line, with what is meant when nothing is said, and the configurations that
follow from it.
-/

namespace Tidemark.CommandLine

structure Arguments where
  region : String := "eu-west-1"
  bucket : String := "aws-bigdata-blog"
  keyStart : String := "artifacts/flink-refarch/data/"
  inputFile : Option String := none
  stream : String := "taxi-trip-events"
  speedup : Binary64 := Binary64.ofNat 1440
  watermarks : Bool := true
  timestampField : String := "dropoff_datetime"
  endpoint : Option String := none
  metricsAddress : Option SocketAddress := none

namespace Arguments

def replayConfig (a : Arguments) : ReplayConfig :=
  { speedup := a.speedup, watermark := { enabled := a.watermarks } }

def streamConfig (a : Arguments) : Shards.StreamConfig :=
  { region := a.region, streamName := a.stream, endpoint := a.endpoint }

def storeConfig (a : Arguments) : Objects.StoreConfig :=
  { region := a.region
    bucket := a.bucket
    keyStart := a.keyStart
    endpoint := a.endpoint
    timestampField := a.timestampField }

end Arguments

end Tidemark.CommandLine
