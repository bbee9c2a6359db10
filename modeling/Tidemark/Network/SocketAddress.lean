/-!
# Socket addresses

An address of four bytes or of eight 16-bit words, with a port, and with a scope for the latter:

```
127.0.0.1:9090        [2001:db8::1]:8080        [fe80::1%1]:80        [::ffff:1.2.3.4]:1
```

Reading is strict: bytes are decimal without leading zeros, words have at most four hexadecimal digits,
and `::` stands for at least one word of zeros. Writing abbreviates the first of the longest runs of at
least two zeros. Every reader below takes characters and gives a value with the characters after it.
-/

namespace Tidemark

/-- A host: four bytes, or eight words with a scope. -/
inductive Host where
  | bytes (a b c d : Nat)
  | words (words : List Nat) (scope : Nat)
  deriving DecidableEq, Repr

structure SocketAddress where
  host : Host
  port : Nat
  deriving DecidableEq, Repr

namespace SocketAddress

/-! ### Reading -/

/-- The value of a hexadecimal digit. -/
def hexDigit? (c : Char) : Option Nat :=
  if '0' ≤ c ∧ c ≤ '9' then some (c.toNat - 48)
  else if 'a' ≤ c ∧ c ≤ 'f' then some (c.toNat - 87)
  else if 'A' ≤ c ∧ c ≤ 'F' then some (c.toNat - 55)
  else none

/-- The value of a digit in a radix. -/
def digit? (radix : Nat) (c : Char) : Option Nat :=
  (hexDigit? c).filter (· < radix)

/-- The digits at the front. -/
def takeDigits (radix : Nat) : List Char → List Nat × List Char
  | [] => ([], [])
  | c :: rest =>
    match digit? radix c with
    | some d =>
      let (digits, rest) := takeDigits radix rest
      (d :: digits, rest)
    | none => ([], c :: rest)

/-- A number below a bound, perhaps with a limit on the count of its digits. -/
def number? (radix bound : Nat) (most : Option Nat) (leadingZeros : Bool) (cs : List Char) :
    Option (Nat × List Char) :=
  let (digits, rest) := takeDigits radix cs
  let n := digits.foldl (fun n d => n * radix + d) 0
  if digits.isEmpty || bound ≤ n || most.any (· < digits.length)
      || (!leadingZeros && 1 < digits.length && digits.head? == some 0) then none
  else some (n, rest)

/-- A given character. -/
def char? (c : Char) : List Char → Option (List Char)
  | [] => none
  | d :: rest => if d = c then some rest else none

/-- A byte. -/
def byte? (cs : List Char) : Option (Nat × List Char) :=
  number? 10 256 (some 3) false cs

/-- Four bytes with dots between them. -/
def bytes? (cs : List Char) : Option ((Nat × Nat × Nat × Nat) × List Char) := do
  let (a, cs) ← byte? cs
  let (b, cs) ← byte? (← char? '.' cs)
  let (c, cs) ← byte? (← char? '.' cs)
  let (d, cs) ← byte? (← char? '.' cs)
  pure ((a, b, c, d), cs)

/-- A colon, except before the first of a series. -/
def separator? (isFirst : Bool) (cs : List Char) : Option (List Char) :=
  if isFirst then some cs else char? ':' cs

/-- A series of at most `limit` words with colons between them. Its last two words can be written as four
bytes, which ends the series; the flag says whether they are. -/
def words (isFirst : Bool) : Nat → List Char → List Nat × Bool × List Char
  | 0, cs => ([], false, cs)
  | limit + 1, cs =>
    match separator? isFirst cs with
    | none => ([], false, cs)
    | some inner =>
      match if 0 < limit then bytes? inner else none with
      | some ((a, b, c, d), rest) => ([a * 256 + b, c * 256 + d], true, rest)
      | none =>
        match number? 16 65536 (some 4) true inner with
        | none => ([], false, cs)
        | some (w, rest) =>
          let (ws, inBytes, rest) := words false limit rest
          (w :: ws, inBytes, rest)

/-- Eight words, or fewer around `::`. -/
def eightWords? (cs : List Char) : Option (List Nat × List Char) :=
  let (front, inBytes, cs) := words true 8 cs
  if front.length = 8 then some (front, cs)
  else if inBytes then none
  else do
    let cs ← char? ':' (← char? ':' cs)
    let (back, _, cs) := words true (7 - front.length) cs
    pure (front ++ List.replicate (8 - front.length - back.length) 0 ++ back, cs)

/-- A scope, zero if there is none. -/
def scope (cs : List Char) : Nat × List Char :=
  match char? '%' cs with
  | none => (0, cs)
  | some inner => (number? 10 (2 ^ 32) none true inner).getD (0, cs)

/-- A colon and a port, and nothing after them. -/
def port? (cs : List Char) : Option Nat := do
  let (n, cs) ← number? 10 65536 none true (← char? ':' cs)
  if cs.isEmpty then some n else none

/-- Reads an address. -/
def read? (text : String) : Option SocketAddress :=
  let cs := text.toList
  match bytes? cs with
  | some ((a, b, c, d), cs) => (port? cs).map fun port => ⟨.bytes a b c d, port⟩
  | none => do
    let (ws, cs) ← eightWords? (← char? '[' cs)
    let (s, cs) := scope cs
    let port ← port? (← char? ']' cs)
    pure ⟨.words ws s, port⟩

/-! ### Writing -/

/-- A word in hexadecimal digits. -/
def writeWord (w : Nat) : String :=
  String.ofList (Nat.toDigits 16 w)

def writeBytes (a b c d : Nat) : String :=
  ".".intercalate [toString a, toString b, toString c, toString d]

/-- The length of the run of zeros at the front. -/
def zeros (ws : List Nat) : Nat :=
  (ws.takeWhile (· = 0)).length

/-- The start and the length of the first of the longest runs of zeros. -/
def longestZeros (ws : List Nat) : Nat × Nat :=
  (List.range ws.length).foldl
    (fun best i => if best.2 < zeros (ws.drop i) then (i, zeros (ws.drop i)) else best) (0, 0)

def writeWords (ws : List Nat) : String :=
  match ws with
  | [0, 0, 0, 0, 0, 65535, x, y] =>
    "::ffff:" ++ writeBytes (x / 256) (x % 256) (y / 256) (y % 256)
  | _ =>
    let part (ws : List Nat) := ":".intercalate (ws.map writeWord)
    let (start, count) := longestZeros ws
    if 1 < count then part (ws.take start) ++ "::" ++ part (ws.drop (start + count))
    else part ws

/-- The address as it is shown. -/
def write (a : SocketAddress) : String :=
  match a.host with
  | .bytes w x y z => writeBytes w x y z ++ ":" ++ toString a.port
  | .words ws s =>
    let scope := if s = 0 then "" else "%" ++ toString s
    "[" ++ writeWords ws ++ scope ++ "]:" ++ toString a.port

end SocketAddress

end Tidemark
