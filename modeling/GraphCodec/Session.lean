import GraphCodec.Document.Reader
import GraphCodec.Generator

/-!
# Sessions

The definitions, operations and configuration of a generator, edited step by step. A step that
fails leaves everything as it was.
-/

set_option autoImplicit false

namespace GraphCodec

/-- The list of a session that a step is for. -/
inductive Part where
  | definitions | operations
  deriving DecidableEq, Repr

/-- The position of an index in a list of some length; a negative one counts from the end. -/
def place? (length : Nat) (index : Int) : Option Nat :=
  let i := if index < 0 then index + length else index
  if 0 ≤ i ∧ i < length then some i.toNat else none

structure Session where
  definitions : List Definition := []
  operations : List Operation := []
  config : Config := {}

namespace Session

/-- Adds the definitions and operations of a document. -/
def add? (s : Session) (text : String) : Option Session :=
  (Document.parse? text).map fun doc =>
    { s with
      definitions := s.definitions ++ doc.types
      operations := s.operations ++ doc.operations }

/-- Removes one definition or operation. -/
def drop? (s : Session) (part : Part) (index : Int) : Option Session :=
  match part with
  | .definitions =>
    (place? s.definitions.length index).map fun i =>
      { s with definitions := s.definitions.eraseIdx i }
  | .operations =>
    (place? s.operations.length index).map fun i =>
      { s with operations := s.operations.eraseIdx i }

/-- Reverses the definitions. -/
def reverse (s : Session) : Session := { s with definitions := s.definitions.reverse }

/-- The generator of what the session holds now. -/
def generator (s : Session) (place : Place) : Except FileError Generator :=
  Generator.make place s.definitions s.operations s.config

end Session

end GraphCodec
