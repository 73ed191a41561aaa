/-!
# UTF-8

Bytes are decoded to characters by the shortest-form rule of UTF-8. A decoder stops at the
first sequence that no character has, and tells whether its first byte, a later byte or the
end of the bytes was at fault.
-/

namespace TraceProfile.Text

/-- What is wrong with the first ill-formed sequence. -/
inductive Utf8Flaw where
  /-- No sequence starts with this byte. -/
  | startByte
  /-- A later byte does not continue its sequence. -/
  | continuationByte
  /-- The bytes end inside a sequence. -/
  | unexpectedEnd
  deriving DecidableEq, Repr

/-- The wording of a flaw. -/
def Utf8Flaw.message : Utf8Flaw → String
  | .startByte => "invalid start byte"
  | .continuationByte => "invalid continuation byte"
  | .unexpectedEnd => "unexpected end of data"

/-- A byte that continues a sequence. -/
def isContinuation (b : UInt8) : Bool := 0x80 ≤ b && b ≤ 0xbf

/-- The second bytes that fit a first byte: they exclude the longer forms of smaller
characters, surrogates and what lies above the last character. -/
def secondFits (first second : UInt8) : Bool :=
  if first = 0xe0 then 0xa0 ≤ second && second ≤ 0xbf
  else if first = 0xed then 0x80 ≤ second && second ≤ 0x9f
  else if first = 0xf0 then 0x90 ≤ second && second ≤ 0xbf
  else if first = 0xf4 then 0x80 ≤ second && second ≤ 0x8f
  else isContinuation second

/-- Two bytes that start the code of a surrogate, which is no character. Such a sequence is found
out by the byte after these two. -/
def startsSurrogate (first second : UInt8) : Bool :=
  first = 0xed && 0xa0 ≤ second && second ≤ 0xbf

/-- The character whose code joins the payload of a first byte with six bits of each later
byte. -/
def joinBits (lead : Nat) (later : List UInt8) : Char :=
  Char.ofNat (later.foldl (fun code b => code * 64 + b.toNat % 64) lead)

/-- What bytes say up to their first flaw. -/
structure Decoding where
  /-- The characters. -/
  chars : List Char
  /-- The first flaw, if there is one. -/
  flaw : Option Utf8Flaw
  /-- The bytes from the one that shows the flaw on; none if the end shows it. -/
  left : List UInt8
  deriving DecidableEq, Repr

namespace Decoding

/-- Bytes that end without a flaw. -/
def done : Decoding := ⟨[], none, []⟩

/-- Bytes that start with a flaw. -/
def flawed (flaw : Utf8Flaw) (left : List UInt8) : Decoding := ⟨[], some flaw, left⟩

/-- A character in front. -/
def cons (c : Char) (d : Decoding) : Decoding := { d with chars := c :: d.chars }

end Decoding

/-- Bytes are decoded up to their first flaw. -/
def decodeUtf8 : List UInt8 → Decoding
  | [] => .done
  | a :: rest =>
    if a < 0x80 then (decodeUtf8 rest).cons (Char.ofNat a.toNat)
    else if a < 0xc2 || 0xf4 < a then .flawed .startByte (a :: rest)
    else
      match rest with
      | [] => .flawed .unexpectedEnd []
      | b :: rest =>
        if startsSurrogate a b then .flawed .continuationByte rest
        else if !secondFits a b then .flawed .continuationByte (b :: rest)
        else if a < 0xe0 then (decodeUtf8 rest).cons (joinBits (a.toNat % 32) [b])
        else
          match rest with
          | [] => .flawed .unexpectedEnd []
          | c :: rest =>
            if !isContinuation c then .flawed .continuationByte (c :: rest)
            else if a < 0xf0 then (decodeUtf8 rest).cons (joinBits (a.toNat % 16) [b, c])
            else
              match rest with
              | [] => .flawed .unexpectedEnd []
              | d :: rest =>
                if !isContinuation d then .flawed .continuationByte (d :: rest)
                else (decodeUtf8 rest).cons (joinBits (a.toNat % 8) [b, c, d])

/-- The text of a byte sequence, or the first flaw. -/
def decodeBytes (bytes : List UInt8) : Except Utf8Flaw String :=
  let decoding := decodeUtf8 bytes
  match decoding.flaw with
  | none => .ok (String.ofList decoding.chars)
  | some flaw => .error flaw

end TraceProfile.Text
