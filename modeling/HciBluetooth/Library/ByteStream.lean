import Mathlib

/-!
# Input streams

A stream holds what is left of a file.  A read that asks for more gets what is
left and fails the stream; from a failed stream nothing is read.
-/

namespace ByteStream

structure Stream where
  rest : List UInt8
  failed : Bool

def openFile (file : List UInt8) : Stream := ⟨file, false⟩

def Stream.read (stream : Stream) (count : Nat) : List UInt8 × Stream :=
  if stream.failed then ([], stream)
  else (stream.rest.take count,
    ⟨stream.rest.drop count, decide (stream.rest.length < count)⟩)

/-- An array that held `old` when `bytes` have been read into it. -/
def readInto (old bytes : List UInt8) : List UInt8 :=
  bytes ++ old.drop bytes.length

@[simp] theorem read_append (bytes rest : List UInt8) :
    Stream.read ⟨bytes ++ rest, false⟩ bytes.length =
      (bytes, ⟨rest, false⟩) := by
  simp [Stream.read]

theorem readInto_of_length_eq {old bytes : List UInt8}
    (h : old.length = bytes.length) : readInto old bytes = bytes := by
  simp [readInto, ← h]

@[simp] theorem readInto_nil (old : List UInt8) : readInto old [] = old := rfl

end ByteStream
