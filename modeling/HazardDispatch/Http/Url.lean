import HazardDispatch.Http.Path

/-!
# What is asked for at an address

A client turns the part of an address after its authority into the target of a request. The path is
brought into a standard form: backslashes count as slashes, segments of one or two dots are walked,
and characters that have no place in a path are percent-encoded; what is encoded already stays as it
is. A question mark starts the query. What follows a number sign is not sent.
-/

namespace HazardDispatch.Http.Url

/-- The character stands for itself in a path. -/
def keptInPath (c : Char) : Bool :=
  decide (0x20 < c.toNat) && decide (c.toNat < 0x7F) && !"\"#<>?\x60\x7b\x7d".toList.contains c

def keptInQuery (c : Char) : Bool :=
  decide (0x20 < c.toNat) && decide (c.toNat < 0x7F) && !"\"#<>'".toList.contains c

/-- The written forms of one dot. -/
def isDot (s : List Char) : Bool :=
  let s := s.map Char.toLower
  s == ['.'] || s == "%2e".toList

/-- The written forms of two dots. -/
def isDotDot (s : List Char) : Bool :=
  let s := s.map Char.toLower
  s == "..".toList || s == ".%2e".toList || s == "%2e.".toList || s == "%2e%2e".toList

/-- The segments that are left after walking the dots. The last segment counts as open: dots in its
place leave an empty one. `above` are the segments walked so far, the last one first. -/
def walk (above : List (List Char)) : List (List Char) → List (List Char)
  | [] => above.reverse
  | [s] =>
    if isDotDot s then (above.tail.reverse ++ [[]])
    else if isDot s then above.reverse ++ [[]]
    else above.reverse ++ [Percent.encode keptInPath s]
  | s :: rest =>
    if isDotDot s then walk above.tail rest
    else if isDot s then walk above rest
    else walk (Percent.encode keptInPath s :: above) rest

def standardPath (path : List Char) : List Char :=
  let cs := path.map fun c => if c = '\\' then '/' else c
  let rest := match cs with
    | '/' :: r => r
    | r => r
  '/' :: List.intercalate ['/'] (walk [] (Text.pieces '/' rest))

/-- Tabs and line ends do not count, wherever they stand. -/
def isIgnored (c : Char) : Bool := c == '\t' || c == '\n' || c == '\r'

/-- What is asked for: path and query of an address, given from the end of its authority on. -/
def targetOf (rest : String) : String :=
  let cs := rest.toList.filter (!isIgnored ·)
  let cs := (cs.reverse.dropWhile fun c => decide (c.toNat ≤ 0x20)).reverse
  let cs := cs.takeWhile (· != '#')
  let path := cs.takeWhile (· != '?')
  let query := match cs.drop path.length with
    | '?' :: q => '?' :: Percent.encode keptInQuery q
    | _ => []
  String.ofList (standardPath path ++ query)

/-- The character ends an authority. -/
def endsAuthority (c : Char) : Bool := c == '/' || c == '?' || c == '#' || c == '\\'

def afterScheme (address : String) : List Char :=
  let cs := address.toList.filter (!isIgnored ·)
  ((cs.dropWhile (· != ':')).drop 1).dropWhile fun c => c == '/' || c == '\\'

/-- Host and port of an address. -/
def authority (address : String) : List Char :=
  (afterScheme address).takeWhile (!endsAuthority ·)

/-- The port of an authority, without the colon before it. -/
def portOf (authority : List Char) : List Char := (authority.dropWhile (· != ':')).drop 1

/-- The value of a row of ASCII digits, if the characters are one. -/
def digitsValue? (cs : List Char) : Option Nat :=
  cs.foldlM (fun n c => if c.isDigit then some (n * 10 + (c.toNat - '0'.toNat)) else none) 0

/-- A request can be sent to the address: its port is a number of 16 bits, or is left out. -/
def isAddress (address : String) : Bool :=
  let cs := authority address
  !cs.isEmpty && ((digitsValue? (portOf cs)).map fun n => decide (n < 65536)).getD false

/-- What is asked for at an address. -/
def target (address : String) : String :=
  targetOf (String.ofList ((afterScheme address).dropWhile (!endsAuthority ·)))

end HazardDispatch.Http.Url
