/-
OrbitStream/Codec.lean

The libraries that the file formats are built on: protocol buffers, and zlib behind
`base/zlib_util.h`.  Neither is part of the repository.  They are parameters, with
what the formats rely on as properties of the messages that are written
(`Proto.Lossless`, `Zlib.Lossless`).
-/
import Mathlib.Data.List.Basic

namespace Orbit

/-- A type of protocol buffer messages.  `parse` is what a message holds after
`ParseFromArray`, whose result is not looked at. -/
structure Proto (P : Type*) where
  serialize : P → List UInt8
  parse : List UInt8 → P

/-- `ZlibCompress` and `ZlibUncompress`.  `uncompress` gives the contents of an output
buffer of the given size, unless zlib reports an error, which ends the program. -/
structure Zlib where
  compress : List UInt8 → List UInt8
  uncompress : List UInt8 → Nat → Option (List UInt8)

/-- `LOG(FATAL)`. -/
inductive Fatal
  | uncompress
  deriving DecidableEq, Repr

/-- A message that is written can be read. -/
def Proto.Lossless {P : Type*} (proto : Proto P) (m : P) : Prop :=
  proto.parse (proto.serialize m) = m

/-- A string that is compressed can be uncompressed; compressed strings are not
empty. -/
def Zlib.Lossless (z : Zlib) (s : List UInt8) : Prop :=
  z.compress s ≠ [] ∧ z.uncompress (z.compress s) s.length = some s

instance (z : Zlib) (s : List UInt8) : Decidable (z.Lossless s) :=
  inferInstanceAs (Decidable (_ ∧ _))

end Orbit
