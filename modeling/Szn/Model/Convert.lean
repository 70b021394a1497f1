import Szn.Model.Formats

set_option autoImplicit false

namespace Szn

open Stateful

-- The standard streams of a program.
structure Console where
  cin : Istream
  cout : Ostream
  cerr : String
  deriving DecidableEq, Repr

namespace Convert

variable (P : Platform)

@[reducible] def inFormat (size : Nat) : Integer := ⟨size, .bigEndian⟩

@[reducible] def outFormat (size : Nat) : Integer := ⟨size, .littleEndian⟩

-- The try block: none where a runtime_error breaks out of the loop.
def nextElement {τ : Type} (size : Nat) :
    EStateM Failure (StreamSource × τ) (Option (BitVec (inFormat size).defaultBits)) :=
  try
    let element ←
      withLocal 0 ((inFormat size).deserialize (streamSource P) (inFormat size).defaultType)
    pure (some element)
  catch
    | .runtimeError _ => pure none
    | failure => throw failure

-- On the stream source over std::cin, and std::cout. The loop has no bound of its own.
def convertAll (size : Nat) : Nat → EStateM Failure (StreamSource × Ostream) Unit
  | 0 => throw .unrolled
  | turns + 1 => do
      match ← nextElement P size with
      | none => pure ()
      | some element =>
          onTarget ((outFormat size).serialize P streamSink (outFormat size).defaultType element)
          convertAll size turns

-- None where the option is not recognized.
def convertSize (argv : List String) : Option Nat :=
  match argv[1]? with
  | none => some 2
  | some "8" => some 1
  | some "16" => some 2
  | some "32" => some 4
  | some "64" => some 8
  | some _ => none

-- The exit code.
def main (turns : Nat) (argv : List String) : EStateM Failure Console Nat := fun console =>
  match convertSize argv with
  | none =>
      .ok 1 { console with
        cerr := console.cerr ++
          "Unrecognized option. Possible options are: 8, 16, 32 or 64\n" }
  | some size =>
      match convertAll P size turns (makeStreamSource console.cin, console.cout) with
      | .ok _ (source, out) => .ok 0 { console with cin := source.input, cout := out }
      | .error failure (source, out) =>
          .error failure { console with cin := source.input, cout := out }

end Convert

end Szn
