import Mathlib.Tactic.Common

/-
  The text of a socket address, as the standard library of
  the modelled language reads and writes it: dotted IPv4
  addresses, bracketed IPv6 addresses with compressed zeros,
  embedded IPv4 addresses and scopes.

  Main declarations:
    * `SocketText.Address`
    * `SocketText.read`
    * `SocketText.Address.write`
-/

------------------------------------------------------------
-- Numbers
------------------------------------------------------------

namespace Library

namespace SocketText

/- A reader takes what it reads off the front of a text. -/
abbrev Reader (Value : Type) :=
  List Char → Option (Value × List Char)

def digitValue
    (radix : Nat)
    (c : Char) : Option Nat :=
  let value :=
    if '0' ≤ c ∧ c ≤ '9' then some (c.toNat - '0'.toNat)
    else if 'a' ≤ c ∧ c ≤ 'z' then
      some (c.toNat - 'a'.toNat + 10)
    else if 'A' ≤ c ∧ c ≤ 'Z' then
      some (c.toNat - 'A'.toNat + 10)
    else none
  value.filter (· < radix)

/- The values of the leading digits, and what follows. -/
def takeDigits (radix : Nat) :
    List Char → List Nat × List Char
| [] => ([], [])
| c :: rest =>
    match digitValue radix c with
    | none => ([], c :: rest)
    | some d =>
        (d :: (takeDigits radix rest).1,
          (takeDigits radix rest).2)

def ofDigits
    (radix : Nat)
    (digits : List Nat) : Nat :=
  digits.foldl (fun n d => n * radix + d) 0

/-
  A number no larger than `largest`, with at most `maxDigits`
  digits if these are limited.
-/
def readNumber
    (radix : Nat)
    (maxDigits : Option Nat)
    (largest : Nat)
    (allowZeroPrefix : Bool) : Reader Nat := fun text =>
  let digits := (takeDigits radix text).1
  let value := ofDigits radix digits
  if digits.isEmpty then none
  else if maxDigits.any (· < digits.length) then none
  else if !allowZeroPrefix && digits.head? = some 0 &&
      1 < digits.length then none
  else if value ≤ largest then
    some (value, (takeDigits radix text).2)
  else none

def readChar (expected : Char) : Reader Unit
| [] => none
| c :: rest => if c = expected then some ((), rest) else none

/- Every item but the first has a separator before it. -/
def readSeparated {Value : Type}
    (separator : Char)
    (first : Bool)
    (read : Reader Value) : Reader Value := fun text =>
  if first then read text
  else do
    let (_, text) ← readChar separator text
    read text

end SocketText

end Library

------------------------------------------------------------
-- Addresses
------------------------------------------------------------

namespace Library

namespace SocketText

/-
  The flow label of an IPv6 address has no text, and is zero
  in every address that was read.
-/
inductive Address where
| v4 (a b c d : Nat) (port : Nat)
| v6 (segments : List Nat) (scope port : Nat)
deriving DecidableEq, Repr

def readOctet (first : Bool) : Reader Nat :=
  readSeparated '.' first (readNumber 10 (some 3) 255 false)

def readIpv4 : Reader (Nat × Nat × Nat × Nat) := fun text => do
  let (a, text) ← readOctet true text
  let (b, text) ← readOctet false text
  let (c, text) ← readOctet false text
  let (d, text) ← readOctet false text
  pure ((a, b, c, d), text)

def readGroup (first : Bool) : Reader Nat :=
  readSeparated ':' first (readNumber 16 (some 4) 65535 true)

/-
  As many groups as there are, up to the number of slots. An
  embedded IPv4 address fills two slots and ends the list,
  which the flag tells.
-/
def readGroups :
    Nat → Bool → List Char → List Nat × Bool × List Char
| 0, _, text => ([], false, text)
| slots + 1, first, text =>
    let embedded :=
      if 1 ≤ slots then readSeparated ':' first readIpv4 text
      else none
    match embedded with
    | some ((a, b, c, d), rest) =>
        ([a * 256 + b, c * 256 + d], true, rest)
    | none =>
        match readGroup first text with
        | none => ([], false, text)
        | some (group, rest) =>
            let more := readGroups slots false rest
            (group :: more.1, more.2)

/- Eight groups, or fewer around one `::`. -/
def readIpv6 : Reader (List Nat) := fun text =>
  let (front, embedded, rest) := readGroups 8 true text
  if front.length = 8 then some (front, rest)
  else if embedded then none
  else do
    let (_, rest) ← readChar ':' rest
    let (_, rest) ← readChar ':' rest
    let (back, _, rest) :=
      readGroups (8 - (front.length + 1)) true rest
    let zeros :=
      List.replicate (8 - front.length - back.length) 0
    pure (front ++ zeros ++ back, rest)

def readPort : Reader Nat := fun text => do
  let (_, text) ← readChar ':' text
  readNumber 10 none 65535 true text

def readScope : Reader Nat := fun text => do
  let (_, text) ← readChar '%' text
  readNumber 10 none 4294967295 true text

def readV4 : Reader Address := fun text => do
  let ((a, b, c, d), text) ← readIpv4 text
  let (port, text) ← readPort text
  pure (.v4 a b c d port, text)

def readV6 : Reader Address := fun text => do
  let (_, text) ← readChar '[' text
  let (segments, text) ← readIpv6 text
  let (scope, text) := (readScope text).getD (0, text)
  let (_, text) ← readChar ']' text
  let (port, text) ← readPort text
  pure (.v6 segments scope port, text)

/- The address a whole text is. -/
def read (text : List Char) : Option Address :=
  match (readV4 text).orElse fun _ => readV6 text with
  | some (address, []) => some address
  | _ => none

end SocketText

end Library

------------------------------------------------------------
-- Writing
------------------------------------------------------------

namespace Library

namespace SocketText

/- The first of the longest runs of zeros: start, length. -/
structure Span where
  start : Nat
  len : Nat
deriving DecidableEq, Repr

/- One segment of the scan, at its index. -/
def Span.extend
    (current : Span)
    (index segment : Nat) : Span :=
  if segment = 0 then
    if current.len = 0 then ⟨index, 1⟩
    else ⟨current.start, current.len + 1⟩
  else ⟨0, 0⟩

def scanZeros :
    Span → Span → Nat → List Nat → Span
| longest, _, _, [] => longest
| longest, current, index, segment :: rest =>
    let current := current.extend index segment
    let longest :=
      if longest.len < current.len then current else longest
    scanZeros longest current (index + 1) rest

def zeroSpan (segments : List Nat) : Span :=
  scanZeros ⟨0, 0⟩ ⟨0, 0⟩ 0 segments

def writeDecimal (n : Nat) : List Char :=
  Nat.toDigits 10 n

def writeIpv4 (a b c d : Nat) : List Char :=
  writeDecimal a ++ '.' :: writeDecimal b ++
    '.' :: writeDecimal c ++ '.' :: writeDecimal d

/- Groups in hexadecimal, with colons between them. -/
def writeGroups : List Nat → List Char
| [] => []
| [group] => Nat.toDigits 16 group
| group :: rest =>
    Nat.toDigits 16 group ++ ':' :: writeGroups rest

def writeIpv6 (segments : List Nat) : List Char :=
  match segments with
  | [0, 0, 0, 0, 0, 65535, high, low] =>
      "::ffff:".toList ++
        writeIpv4 (high / 256) (high % 256)
          (low / 256) (low % 256)
  | _ =>
      let span := zeroSpan segments
      if 1 < span.len then
        writeGroups (segments.take span.start) ++
          "::".toList ++
            writeGroups
              (segments.drop (span.start + span.len))
      else writeGroups segments

def Address.write : Address → List Char
| .v4 a b c d port =>
    writeIpv4 a b c d ++ ':' :: writeDecimal port
| .v6 segments scope port =>
    '[' :: writeIpv6 segments ++
      (if scope = 0 then []
       else '%' :: writeDecimal scope) ++
        "]:".toList ++ writeDecimal port

end SocketText

end Library
