import TraceProfile.Text.Split
import TraceProfile.Text.Utf8

/-!
# Text read in blocks

A text file is decoded block by block while its lines are used. Bytes that are no text are found
out when the block with the byte that shows it is decoded, and a sequence that the file cuts short
when the file has ended. The lines that ended in earlier blocks have been used by then.
-/

namespace TraceProfile.Text

/-- The bytes of a block. -/
def blockSize : Nat := 8192

/-- The bytes that are decoded before a flaw is found out, which the bytes left show. -/
def bytesBefore (bytes left : List UInt8) : List UInt8 :=
  if left.isEmpty then bytes
  else bytes.take ((bytes.length - left.length) / blockSize * blockSize)

/-- The lines of a text file that can be used, and the flaw that ends them. -/
structure LineReading where
  /-- The lines. -/
  lines : List String
  /-- The flaw, if the file is no text. -/
  flaw : Option Utf8Flaw
  deriving DecidableEq, Repr

/-- The lines of a text file. -/
def readLines (bytes : List UInt8) : LineReading :=
  let decoding := decodeUtf8 bytes
  match decoding.flaw with
  | none => ⟨fileLines (String.ofList decoding.chars), none⟩
  | some flaw =>
    ⟨endedLines (decodeUtf8 (bytesBefore bytes decoding.left)).chars, some flaw⟩

end TraceProfile.Text
