import Tidemark.Journal
import Tidemark.Objects.Source
import Tidemark.Rehearsal.Sharding

/-!
# Rehearsals of a store of objects

The listing and the objects of a store come from a script; the source is connected and pulled so many times,
on past its faults.
-/

namespace Tidemark.Rehearsal

open Objects

/-- The answers of a store: pages of its listing in order, the last one again and again, and the objects
by their keys. -/
structure StoreScript where
  listings : List (Except Refusal ObjectPage)
  objects : List (String × Except Refusal ObjectBody)

/-- A request to the store. -/
inductive StoreRequest where
  | list (token : Option String)
  | get (key : String)

/-- How the store answers for a key that it does not hold. -/
def noSuchKey : Refusal :=
  .coded "NoSuchKey" (some "The specified key does not exist.")

def StoreScript.fetch (s : StoreScript) (key : String) : Except Refusal ObjectBody :=
  match s.objects.find? (·.1 = key) with
  | some (_, body) => body
  | none => .error noSuchKey

/-- Lists all keys, within so many pages; gives also the tokens that were asked for. -/
def listKeys (token : Option String) (listings : List (Except Refusal ObjectPage)) :
    Nat → Except StoreFault (List String) × List StoreRequest
  | 0 => (.ok [], [])
  | n + 1 =>
    let (reply, listings) := nextReply (.ok ⟨[], none⟩) listings
    match reply with
    | .error refusal => (.error (StoreFault.ofRefusal refusal), [.list token])
    | .ok page =>
      match page.next with
      | none => (.ok page.keys, [.list token])
      | some next =>
        let (keys, requests) := listKeys (some next) listings n
        (keys.map (page.keys ++ ·), .list token :: requests)

/-- Pulls so many times. -/
def pullObjects (script : StoreScript) (s : ObjectSource) (i : Instruments) :
    Nat → List (Except Fault (Option Event)) × List StoreRequest × Instruments
  | 0 => ([], [], i)
  | n + 1 =>
    let (result, opened, s) := s.pull script.fetch
    let i := opened.foldl (fun i key => i.note (.readingObject s.bucket key)) i
    let (results, requests, i) := pullObjects script s i n
    (result :: results, (opened.filter (!·.isEmpty)).map .get ++ requests, i)

/-- What a rehearsal of a store gives: the fault of connecting or the answers to all pulls, with the
requests in order. -/
structure Collected where
  results : Except StoreFault (List (Except Fault (Option Event)))
  requests : List StoreRequest
  instruments : Instruments := {}

/-- More pages than a listing has. -/
def manyPages : Nat := 10 ^ 6

def rehearseStore (config : StoreConfig) (script : StoreScript) (pulls : Nat) : Collected :=
  match config.validate with
  | .error fault => { results := .error fault, requests := [] }
  | .ok () =>
    match listKeys none script.listings manyPages with
    | (.error fault, requests) => { results := .error fault, requests }
    | (.ok keys, requests) =>
      let keys := sortKeys keys
      let i := ({} : Instruments).note (.objectsListed config.bucket config.keyStart keys.length)
      let (results, more, i) := pullObjects script (ObjectSource.start config keys) i pulls
      { results := .ok results, requests := requests ++ more, instruments := i }

end Tidemark.Rehearsal
