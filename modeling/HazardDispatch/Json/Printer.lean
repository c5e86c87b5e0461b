import HazardDispatch.Json.Syntax
import HazardDispatch.Text.Hex

/-!
# Compact JSON text

`Json.render` writes a value without blanks, in the order of the tree. A stray byte, which no value
built by this library holds, is written as the replacement character; what is missing after a
malformed place stays missing.
-/

namespace HazardDispatch

def Piece.hex (n : Nat) : List Char :=
  [Hex.digit (n / 4096 % 16), Hex.digit (n / 256 % 16), Hex.digit (n / 16 % 16), Hex.digit (n % 16)]

def Piece.render : Piece → List Char
  | .plain (.char c) => [c]
  | .plain (.stray _) => ['\uFFFD']
  | .short l _ => ['\\', l]
  | .unit n => '\\' :: 'u' :: Piece.hex n

def Body.render (b : Body) : List Char := '"' :: b.flatMap Piece.render ++ ['"']

namespace Json

mutual

def render : Json → List Char
  | .null => ['n', 'u', 'l', 'l']
  | .bool true => ['t', 'r', 'u', 'e']
  | .bool false => ['f', 'a', 'l', 's', 'e']
  | .num n => n.text
  | .str b => b.render
  | .arr items closed => '[' :: renderItems items ++ (if closed then [']'] else [])
  | .obj members closed => '{' :: renderMembers members ++ (if closed then ['}'] else [])
  | .broken => []

def renderItems : List Json → List Char
  | [] => []
  | [j] => render j
  | j :: js => render j ++ ',' :: renderItems js

def renderMembers : List (Body × Json) → List Char
  | [] => []
  | [(k, j)] => k.render ++ ':' :: render j
  | (k, j) :: ms => k.render ++ ':' :: render j ++ ',' :: renderMembers ms

end

def compact (j : Json) : String := String.ofList j.render

end Json
end HazardDispatch
