import Tidemark.Event

/-!
# Events in flight

The keys of the events that were sent and whose outcome has not been seen yet, as a strictly ascending
list. The first key is the oldest event in flight, which bounds the watermark.
-/

namespace Tidemark

structure Tracker where
  keys : List EventKey := []
  deriving DecidableEq

namespace Tracker

def empty : Tracker := {}

/-- Puts a key into an ascending list, once. -/
def insertKey (k : EventKey) : List EventKey → List EventKey
  | [] => [k]
  | j :: rest =>
    if k.less j then k :: j :: rest
    else if j.less k then j :: insertKey k rest
    else j :: rest

def add (t : Tracker) (k : EventKey) : Tracker :=
  ⟨insertKey k t.keys⟩

def remove (t : Tracker) (k : EventKey) : Tracker :=
  ⟨t.keys.filter (· ≠ k)⟩

def oldest? (t : Tracker) : Option EventKey :=
  t.keys.head?

def size (t : Tracker) : Nat :=
  t.keys.length

def isEmpty (t : Tracker) : Bool :=
  t.keys.isEmpty

end Tracker

end Tidemark
