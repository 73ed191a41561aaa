import TraceProfile.Log
import TraceProfile.Mapping.Queue
import TraceProfile.Number.Numeral

/-!
# Symbol maps

A symbol map names the functions of generated code: each line holds a start address and a size,
both in base sixteen, and a name. Every function becomes a mapping of its own that is there from
time zero on. Lines of another form are skipped.
-/

namespace TraceProfile.SymbolMap

/-- What a line of a symbol map says. -/
inductive Line where
  /-- Nothing. -/
  | blank
  /-- Something that is no symbol. -/
  | malformed
  /-- A symbol at a range of addresses. -/
  | symbol (start size : Int) (name : String)
  deriving DecidableEq, Repr

/-- The meaning of a line without the blanks at its ends. -/
def readLine (line : String) : Line :=
  if line.isEmpty then .blank
  else
    match Text.splitAtMost ' ' 2 line with
    | [start, size, name] =>
      match Numeral.readHexadecimal start, Numeral.readHexadecimal size with
      | .ok start, .ok size => .symbol start size name
      | _, _ => .malformed
    | _ => .malformed

/-- A queue under construction, the lines left out on the way, and the fault that ended it. -/
structure Reading where
  /-- The queue, or what stopped its construction. -/
  result : Except Fault OpQueue
  /-- The reports on skipped lines. -/
  log : List LogRecord

/-- The operation of a symbol. -/
def operation (mapName : String) (category : Option Int) (start size : Int) (name : String) :
    Except Fault MappingOp :=
  MappingOp.add 0 ⟨start, start + size, 0, ⟨mapName, mapName, category, some name⟩⟩

/-- The operations of the lines from the given line number on are put at the end of a queue. -/
def readFrom (mapName : String) (category : Option Int) (q : OpQueue) (lineNumber : Nat) :
    List String → Reading
  | [] => ⟨.ok q, []⟩
  | line :: rest =>
    let line := Text.strip line
    match readLine line with
    | .blank => readFrom mapName category q (lineNumber + 1) rest
    | .malformed =>
      let reading := readFrom mapName category q (lineNumber + 1) rest
      { reading with log := .malformedSymbol mapName lineNumber line :: reading.log }
    | .symbol start size name =>
      if size = 0 then readFrom mapName category q (lineNumber + 1) rest
      else
        match operation mapName category start size name >>= q.push with
        | .error f => ⟨.error f, []⟩
        | .ok q => readFrom mapName category q (lineNumber + 1) rest

/-- The queue of the lines of a symbol map. -/
def read (mapName : String) (category : Option Int) (lines : List String) : Reading :=
  readFrom mapName category .empty 1 lines

end TraceProfile.SymbolMap
