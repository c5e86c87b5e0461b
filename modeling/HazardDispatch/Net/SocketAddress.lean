import HazardDispatch.Text.Hex
import HazardDispatch.Text.Pieces
import HazardDispatch.Word64

/-!
# Socket addresses

An IP address and a port, as they are read and written:

* `127.0.0.1:80`   four numbers without leading zeros;
* `[::1]:80`       eight groups of hexadecimal digits, where `::` stands for any number of zero groups;
                   the last two may be written as four numbers, and a scope may follow.

`SocketAddress.text` writes the longest run of zero groups as `::`, the first one of several, and the
groups in lower case. It names the last two groups by numbers if the address stands for one of four
numbers.
-/

namespace HazardDispatch.Net

/-- An address of four numbers. -/
structure Ipv4 where
  parts : List UInt8
deriving DecidableEq, Repr

/-- An address of eight groups, and its scope. -/
structure Ipv6 where
  groups : List UInt16
  scope : Nat
deriving DecidableEq, Repr

inductive SocketAddress where
  | v4 (ip : Ipv4) (port : UInt16)
  | v6 (ip : Ipv6) (port : UInt16)
deriving DecidableEq, Repr

/-! ## reading -/

/-- The value of a digit in a base up to 16. -/
def digit? (base : Nat) (c : Char) : Option Nat := (Hex.value? c).filter (· < base)

/-- The number that digits denote. -/
def ofDigits (base : Nat) (ds : List Nat) : Nat := ds.foldl (fun n d => n * base + d) 0

/-- A number below `bound` at the front, of at most `most` digits. -/
def number? (base bound : Nat) (most : Option Nat) (zeros : Bool) (cs : List Char) :
    Option (Nat × List Char) :=
  let (ds, rest) := Text.takeValues (digit? base) cs
  let fits := match most with
    | some n => decide (ds.length ≤ n)
    | none => true
  let padded := decide (1 < ds.length) && ds.head? == some 0
  let n := ofDigits base ds
  if ds.isEmpty || !fits || (padded && !zeros) || decide (bound ≤ n) then none else some (n, rest)

/-- What follows a character at the front. -/
def after? (c : Char) : List Char → Option (List Char)
  | d :: cs => if c = d then some cs else none
  | [] => none

/-- Four numbers at the front. -/
def Ipv4.read? (cs : List Char) : Option (Ipv4 × List Char) := do
  let part := number? 10 256 (some 3) false
  let (a, cs) ← part cs
  let (b, cs) ← part (← after? '.' cs)
  let (c, cs) ← part (← after? '.' cs)
  let (d, cs) ← part (← after? '.' cs)
  return (⟨[.ofNat a, .ofNat b, .ofNat c, .ofNat d]⟩, cs)

/-- The two groups that four numbers make. -/
def Ipv4.groups (ip : Ipv4) : List UInt16 :=
  match ip.parts with
  | [a, b, c, d] => [a.toUInt16 * 256 + b.toUInt16, c.toUInt16 * 256 + d.toUInt16]
  | _ => []

/-- The character that stands between groups, except before the first. -/
def betweenGroups (first : Bool) (cs : List Char) : Option (List Char) :=
  if first then some cs else after? ':' cs

/-- Up to `limit` groups at the front. The flag says that they end with four numbers. -/
def readGroups : Nat → Bool → List Char → List UInt16 × Bool × List Char
  | 0, _, cs => ([], false, cs)
  | limit + 1, first, cs =>
    let embedded := if limit = 0 then none else (betweenGroups first cs).bind Ipv4.read?
    match embedded with
    | some (ip, rest) => (ip.groups, true, rest)
    | none =>
      match (betweenGroups first cs).bind (number? 16 65536 (some 4) true) with
      | none => ([], false, cs)
      | some (g, rest) =>
        let (gs, ends, rest) := readGroups limit false rest
        (.ofNat g :: gs, ends, rest)

/-- Eight groups at the front. -/
def readEight? (cs : List Char) : Option (List UInt16 × List Char) := do
  let (front, ends, rest) := readGroups 8 true cs
  if front.length = 8 then return (front, rest)
  if ends then none
  let rest ← after? ':' (← after? ':' rest)
  let (back, _, rest) := readGroups (7 - front.length) true rest
  return (front ++ List.replicate (8 - front.length - back.length) 0 ++ back, rest)

/-- A port and nothing after it. -/
def port? (cs : List Char) : Option UInt16 := do
  let (n, rest) ← number? 10 65536 none true (← after? ':' cs)
  if rest.isEmpty then return .ofNat n else none

namespace SocketAddress

def readV4? (cs : List Char) : Option SocketAddress := do
  let (ip, rest) ← Ipv4.read? cs
  return .v4 ip (← port? rest)

def readV6? (cs : List Char) : Option SocketAddress := do
  let (groups, rest) ← readEight? (← after? '[' cs)
  let (scope, rest) := ((after? '%' rest).bind (number? 10 Word32.bound none true)).getD (0, rest)
  return .v6 ⟨groups, scope⟩ (← port? (← after? ']' rest))

def ofText? (s : String) : Option SocketAddress := (readV4? s.toList).or (readV6? s.toList)

def port : SocketAddress → UInt16
  | v4 _ p => p
  | v6 _ p => p

end SocketAddress

/-! ## writing -/

def Ipv4.text (ip : Ipv4) : String :=
  String.intercalate "." (ip.parts.map fun n => toString n.toNat)

def groupsText (gs : List UInt16) : String :=
  String.intercalate ":" (gs.map fun g => String.ofList (Nat.toDigits 16 g.toNat))

/-- The longest run of zeros, as its start and its length; the first one of several. -/
def longestZeros (gs : List UInt16) : Nat × Nat :=
  let runs := (List.range gs.length).map fun i => (i, ((gs.drop i).takeWhile (· == 0)).length)
  runs.foldl (fun best r => if best.2 < r.2 then r else best) (0, 0)

/-- The address of four numbers that the groups stand for. -/
def mapped? (gs : List UInt16) : Option Ipv4 :=
  match gs with
  | [0, 0, 0, 0, 0, 0xFFFF, a, b] =>
    some ⟨[(a / 256).toUInt8, a.toUInt8, (b / 256).toUInt8, b.toUInt8]⟩
  | _ => none

def Ipv6.text (ip : Ipv6) : String :=
  let gs := ip.groups
  match mapped? gs with
  | some v4 => "::ffff:" ++ v4.text
  | none =>
    let (start, n) := longestZeros gs
    if 1 < n then groupsText (gs.take start) ++ "::" ++ groupsText (gs.drop (start + n))
    else groupsText gs

def SocketAddress.text : SocketAddress → String
  | .v4 ip p => ip.text ++ ":" ++ toString p.toNat
  | .v6 ip p =>
    let scope := if ip.scope = 0 then "" else "%" ++ toString ip.scope
    "[" ++ ip.text ++ scope ++ "]:" ++ toString p.toNat

end HazardDispatch.Net
