import Szn.Model.Convert
import Szn.Model.Language

set_option autoImplicit false

namespace Szn

open Stateful

namespace Zip

@[reducible] def u16 : Format := .integer ⟨Integer.le16, builtin .int16⟩ (.unsigned 16)

@[reducible] def u32 : Format := .integer ⟨Integer.le32, builtin .int32⟩ (.unsigned 32)

-- min_version, flags, compression, modification_time, modification_date, crc32,
-- compressed_size, uncompressed_size
@[reducible] def localFileHeaderBegin : Format :=
  .structureOf [u16, u16, u16, u16, u16, u32, u32, u32]

-- name_length, extra_length
@[reducible] def localFileHeaderLengths : Format := .structureOf [u16, u16]

structure LocalFileHeader where
  start : localFileHeaderBegin.Value
  name : List Byte
  extra : List Byte
  deriving DecidableEq

namespace LocalFileHeader

def compressedSize (header : LocalFileHeader) : BitVec 32 := header.start.2.2.2.2.2.2.1

def uncompressedSize (header : LocalFileHeader) : BitVec 32 := header.start.2.2.2.2.2.2.2.1

def fresh : LocalFileHeader := ⟨localFileHeaderBegin.fresh, [], []⟩

variable {σ : Type} (P : Platform)

def deserialize (source : Source σ) : EStateM Failure (σ × LocalFileHeader) Unit := do
  within start (fun start header => { header with start })
    (localFileHeaderBegin.deserialize P source)
  let lengths ← withLocal localFileHeaderLengths.fresh
    (localFileHeaderLengths.deserialize P source)
  within name (fun name header => { header with name }) (Szn.read source lengths.1.toNat)
  within extra (fun extra header => { header with extra }) (Szn.read source lengths.2.1.toNat)

end LocalFileHeader

def localFileSignature : BitVec 32 := 0x04034b50

-- The characters of a string.
def chars (text : String) : List Byte := text.toList.map fun c => BitVec.ofNat 8 c.toNat

-- std::cout << text
def print (text : List Byte) : EStateM Failure Console Unit := fun console =>
  match Ostream.write text console.cout with
  | .ok _ out => .ok () { console with cout := out }
  | .error failure out => .error failure { console with cout := out }

-- std::cerr << text
def complain (text : String) : EStateM Failure Console Unit :=
  modify fun console => { console with cerr := console.cerr ++ text }

def report (header : LocalFileHeader) : EStateM Failure Console Unit := do
  print (chars "first file name: ")
  print header.name
  print (chars "\n")
  print (chars "compressed size: ")
  print (chars (toString header.compressedSize.toNat))
  print (chars "\n")
  print (chars "uncompressed size: ")
  print (chars (toString header.uncompressedSize.toNat))
  print (chars "\n")

-- std::hex
def hex (number : Nat) : String := String.ofList (Nat.toDigits 16 number)

variable (P : Platform)

-- What main does with the stream source over the file.
def inspect : EStateM Failure (StreamSource × Console) Unit := do
  let signature ← withLocal 0 (Integer.le32.deserialize (streamSource P) (.unsigned 32))
  if localFileSignature = signature then
    let header ← withLocal LocalFileHeader.fresh (LocalFileHeader.deserialize P (streamSource P))
    onTarget (report header)
  else
    onTarget do
      complain "Unrecognized signature 0x"
      complain (hex signature.toNat)
      complain "\n"

-- The exit code; `files` has the contents of the files that can be opened.
def main (files : String → Option (List Byte)) (argv : List String) :
    EStateM Failure Console Nat := do
  match argv[1]? with
  | none => pure 1
  | some path =>
      match files path with
      | none =>
          complain "Cannot open the file\n"
          pure 1
      | some text => fun console =>
          match inspect P (makeStreamSource ⟨text, 0, false⟩, console) with
          | .ok _ (_, console) => .ok 0 console
          | .error failure (_, console) => .error failure console

end Zip

end Szn
