import Szn.Model.Bytes
import Szn.Model.ReaderWriter

set_option autoImplicit false

namespace Szn

open Stateful

variable {σ : Type} (P : Platform)

@[reducible] def unsignedItem (format : IntegerFormat) (value : BitVec (8 * format.byteSize)) :
    Item :=
  ⟨.integer format (.unsigned (8 * format.byteSize)), value⟩

-- The calls that szn::writer chains; each returns the writer.
namespace Writer

def be8 (destination : Sink σ) (v : BitVec 8) : EStateM Failure σ Unit :=
  value P destination (unsignedItem ⟨Szn.be8, builtin .int8⟩ v)

def be16 (destination : Sink σ) (v : BitVec 16) : EStateM Failure σ Unit :=
  value P destination (unsignedItem ⟨Szn.be16, builtin .int16⟩ v)

def be32 (destination : Sink σ) (v : BitVec 32) : EStateM Failure σ Unit :=
  value P destination (unsignedItem ⟨Szn.be32, builtin .int32⟩ v)

def be64 (destination : Sink σ) (v : BitVec 64) : EStateM Failure σ Unit :=
  value P destination (unsignedItem ⟨Szn.be64, builtin .int64⟩ v)

def le8 (destination : Sink σ) (v : BitVec 8) : EStateM Failure σ Unit :=
  value P destination (unsignedItem ⟨Integer.le8, builtin .int8⟩ v)

def le16 (destination : Sink σ) (v : BitVec 16) : EStateM Failure σ Unit :=
  value P destination (unsignedItem ⟨Integer.le16, builtin .int16⟩ v)

def le32 (destination : Sink σ) (v : BitVec 32) : EStateM Failure σ Unit :=
  value P destination (unsignedItem ⟨Integer.le32, builtin .int32⟩ v)

def le64 (destination : Sink σ) (v : BitVec 64) : EStateM Failure σ Unit :=
  value P destination (unsignedItem ⟨Integer.le64, builtin .int64⟩ v)

def boolean8 (destination : Sink σ) (v : Bool) : EStateM Failure σ Unit :=
  value P destination ⟨.boolean .boolean, v⟩

def raw (destination : Sink σ) (data : List Byte) : EStateM Failure σ Unit :=
  destination.write data

variable (charSigned : Bool) (length : IntegerFormat)

-- bytes<LengthFormat>(value), for a std::string
def bytes (destination : Sink σ) (v : List Byte) : EStateM Failure σ Unit :=
  Bytes.serializeString P length.toInteger charSigned destination v

-- bytes<LengthFormat>(pos, count)
def bytesCount (destination : Sink σ) (pos : List Byte) (count : Nat) : EStateM Failure σ Unit :=
  Vector.serializeCount P length.toInteger destination
    (Bytes.serializeChar P charSigned destination) pos count

end Writer

namespace Reader

def be8 (source : Source σ) : EStateM Failure (σ × BitVec 8) Unit :=
  value P source (.integer ⟨Szn.be8, builtin .int8⟩ (.unsigned 8))

def be16 (source : Source σ) : EStateM Failure (σ × BitVec 16) Unit :=
  value P source (.integer ⟨Szn.be16, builtin .int16⟩ (.unsigned 16))

def be32 (source : Source σ) : EStateM Failure (σ × BitVec 32) Unit :=
  value P source (.integer ⟨Szn.be32, builtin .int32⟩ (.unsigned 32))

def be64 (source : Source σ) : EStateM Failure (σ × BitVec 64) Unit :=
  value P source (.integer ⟨Szn.be64, builtin .int64⟩ (.unsigned 64))

def le8 (source : Source σ) : EStateM Failure (σ × BitVec 8) Unit :=
  value P source (.integer ⟨Integer.le8, builtin .int8⟩ (.unsigned 8))

def le16 (source : Source σ) : EStateM Failure (σ × BitVec 16) Unit :=
  value P source (.integer ⟨Integer.le16, builtin .int16⟩ (.unsigned 16))

def le32 (source : Source σ) : EStateM Failure (σ × BitVec 32) Unit :=
  value P source (.integer ⟨Integer.le32, builtin .int32⟩ (.unsigned 32))

def le64 (source : Source σ) : EStateM Failure (σ × BitVec 64) Unit :=
  value P source (.integer ⟨Integer.le64, builtin .int64⟩ (.unsigned 64))

def boolean8 (source : Source σ) : EStateM Failure (σ × Bool) Unit :=
  value P source (.boolean .boolean)

-- value<bytes<LengthFormat>>, for a std::string
def bytes (charSigned : Bool) (length : IntegerFormat) (source : Source σ) :
    EStateM Failure (σ × List Byte) Unit :=
  Bytes.deserializeString P length.toInteger charSigned source

end Reader

-- The arguments of writer::bytes: a range, or an iterator that may yield more, and a count.
inductive BytesArguments where
  | range
  | iteratorAndCount (more : List Byte)
  deriving DecidableEq

-- A call in a message, with its argument or with the variable it fills.
inductive Part where
  | be8 (v : BitVec 8)
  | be16 (v : BitVec 16)
  | be32 (v : BitVec 32)
  | be64 (v : BitVec 64)
  | le8 (v : BitVec 8)
  | le16 (v : BitVec 16)
  | le32 (v : BitVec 32)
  | le64 (v : BitVec 64)
  | boolean8 (v : Bool)
  | raw (data : List Byte)
  | bytes (length : IntegerFormat) (arguments : BytesArguments) (data : List Byte)
  deriving DecidableEq

variable (charSigned : Bool)

def Writer.part (destination : Sink σ) : Part → EStateM Failure σ Unit
  | .be8 v => Writer.be8 P destination v
  | .be16 v => Writer.be16 P destination v
  | .be32 v => Writer.be32 P destination v
  | .be64 v => Writer.be64 P destination v
  | .le8 v => Writer.le8 P destination v
  | .le16 v => Writer.le16 P destination v
  | .le32 v => Writer.le32 P destination v
  | .le64 v => Writer.le64 P destination v
  | .boolean8 v => Writer.boolean8 P destination v
  | .raw data => Writer.raw destination data
  | .bytes length .range data => Writer.bytes P charSigned length destination data
  | .bytes length (.iteratorAndCount more) data =>
      Writer.bytesCount P charSigned length destination (data ++ more) data.length

def Writer.message (destination : Sink σ) (parts : List Part) : EStateM Failure σ Unit :=
  parts.forM (Writer.part P charSigned destination)

variable {τ : Type}

def Reader.part (source : Source σ) : Part → EStateM Failure (σ × τ) Part
  | .be8 v => .be8 <$> withLocal v (Reader.be8 P source)
  | .be16 v => .be16 <$> withLocal v (Reader.be16 P source)
  | .be32 v => .be32 <$> withLocal v (Reader.be32 P source)
  | .be64 v => .be64 <$> withLocal v (Reader.be64 P source)
  | .le8 v => .le8 <$> withLocal v (Reader.le8 P source)
  | .le16 v => .le16 <$> withLocal v (Reader.le16 P source)
  | .le32 v => .le32 <$> withLocal v (Reader.le32 P source)
  | .le64 v => .le64 <$> withLocal v (Reader.le64 P source)
  | .boolean8 v => .boolean8 <$> withLocal v (Reader.boolean8 P source)
  -- The whole buffer is filled.
  | .raw data => .raw <$> withLocal data (Reader.raw source data.length)
  | .bytes length arguments data =>
      .bytes length arguments <$> withLocal data (Reader.bytes P charSigned length source)

def Reader.message (source : Source σ) : List Part → EStateM Failure (σ × τ) (List Part)
  | [] => pure []
  | part :: rest => do
      let first ← Reader.part P charSigned source part
      let others ← Reader.message source rest
      pure (first :: others)

end Szn
