import HazardDispatch.Json.Decode
import HazardDispatch.Json.Printer
import HazardDispatch.Text.Base64

/-!
# Payloads

What a task takes and what it gives back: bytes that the dispatcher does not look into. In a message
they travel as base64 text. A payload made from a JSON value holds its compact text.
-/

namespace HazardDispatch

@[ext] structure Payload where
  bytes : List UInt8
deriving DecidableEq, Repr, Inhabited

namespace Payload

def empty : Payload := ⟨[]⟩

def size (p : Payload) : Nat := p.bytes.length

def isEmpty (p : Payload) : Bool := p.bytes.isEmpty

def ofText (s : String) : Payload := ⟨Utf8.bytes s⟩

/-- The compact text of a JSON value. -/
def ofValue (j : Json) : Payload := ofText j.compact

/-- Reads the bytes as a JSON text. -/
def decode {α : Type} (p : Payload) (read : Reader α) : Except DecodeError α :=
  (Document.ofBytes p.bytes).read read

def base64 (p : Payload) : String := String.ofList (Base64.encode p.bytes)

def ofBase64? (s : String) : Option Payload := (Base64.decode s.toList).map .mk

def toJson (p : Payload) : Json := .text p.base64

def ofJson : Reader Payload := fun j => do
  match ofBase64? (← Json.asText j) with
  | some p => return p
  | none => throw .mismatch

end Payload

/-- Why the content of a payload cannot be used. -/
def DecodeError.serializationMessage? (e : DecodeError) : Option String :=
  e.message?.map ("Serialization error: " ++ ·)

end HazardDispatch
