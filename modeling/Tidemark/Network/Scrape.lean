import Tidemark.Journal

/-!
# Scraping

What the metrics server answers: the metrics at one path, and at another that it is alive. Both can be
read only.
-/

namespace Tidemark

/-- An answer of the metrics server. -/
structure ScrapeAnswer where
  status : Nat
  contentType : Option String := none
  allow : Option String := none
  body : String := ""
  deriving DecidableEq, Repr

namespace ScrapeAnswer

def notFound : ScrapeAnswer := { status := 404 }

def readOnly : ScrapeAnswer := { status := 405, allow := some "GET,HEAD" }

def alive : ScrapeAnswer := { status := 204 }

/-- The metrics as text. -/
def exposed (text : String) : ScrapeAnswer :=
  { status := 200
    contentType := some "application/openmetrics-text; version=1.0.0; charset=utf-8"
    body := text }

/-- An answer to somebody who wants to see its head alone. -/
def headOnly (a : ScrapeAnswer) : ScrapeAnswer :=
  { a with body := "" }

end ScrapeAnswer

/-- The path of a target, without its query. -/
def pathOf (target : String) : String :=
  String.ofList (target.toList.takeWhile fun c => c ≠ '?' && c ≠ '#')

/-- Answers a request. -/
def scrape (method target : String) (i : Instruments) : ScrapeAnswer × Instruments :=
  let isRead := method = "GET" || method = "HEAD"
  let path := pathOf target
  if path = "/metrics" then
    if isRead then
      let text := i.metrics.exposition
      let answer := ScrapeAnswer.exposed text
      (if method = "HEAD" then answer.headOnly else answer, i.note (.exposing text))
    else (.readOnly, i)
  else if path = "/livez" then (if isRead then .alive else .readOnly, i)
  else (.notFound, i)

end Tidemark
