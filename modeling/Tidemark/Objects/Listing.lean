import Tidemark.Objects.Config

/-!
# Listing objects

The objects of a replay are those of a positive size whose key does not end in a slash, in the order of
their keys, however the listing is split into pages.
-/

namespace Tidemark.Objects

/-- An object as a listing shows it. -/
structure Listed where
  key : Option String
  size : Option Int
  deriving DecidableEq, Repr

structure ObjectPage where
  objects : List Listed
  next : Option String
  deriving DecidableEq, Repr

/-- The key of an object that is to be replayed. -/
def Listed.key? (o : Listed) : Option String :=
  if 0 < o.size.getD 0 then o.key.filter fun key => !key.endsWith "/" else none

/-- The keys of a page that are to be replayed. -/
def ObjectPage.keys (p : ObjectPage) : List String :=
  p.objects.filterMap Listed.key?

/-- Sorts keys by their characters, which is by their bytes. -/
def sortKeys (keys : List String) : List String :=
  keys.mergeSort fun a b => !decide (b < a)

end Tidemark.Objects
