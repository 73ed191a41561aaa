import TraceProfile.CommandLine.Switch
import TraceProfile.Text.Digit
import TraceProfile.Text.Split

/-!
# Words of a command line

Each argument is a plain word or a switch. A long switch may be shortened as long as its name
stays unambiguous, and a value may be attached to a switch: after an equals sign, or directly to
a short name. Arguments that look like a negative number or hold a space are plain unless they
name a switch. A double dash makes all further arguments plain.
-/

namespace TraceProfile.CommandLine

/-- Why a command line is not carried out. -/
inductive Ending where
  /-- There are no arguments. -/
  | noArguments
  /-- Help was asked for. -/
  | help
  /-- The arguments do not fit. -/
  | misuse
  deriving DecidableEq, Repr

/-- The exit status of a command line that is not carried out. -/
def Ending.status : Ending → Nat
  | noArguments => 1
  | help => 0
  | misuse => 2

/-- An argument as it is understood. -/
inductive Word where
  /-- A value or path. -/
  | plain (text : String)
  /-- The double dash. -/
  | divider
  /-- A switch under one of its names, and what is attached to it. -/
  | switch (s : Switch) (name : String) (attached : Option (List Char))
  /-- A switch that does not exist. -/
  | unknown
  deriving DecidableEq, Repr

/-- Decimal digits, at least one. -/
def isNumber (cs : List Char) : Bool := !cs.isEmpty && cs.all Text.isDecimal

/-- Digits, or digits after a point, with or without others before it. -/
def isPositive (cs : List Char) : Bool :=
  match cs.dropWhile Text.isDecimal with
  | [] => !cs.isEmpty
  | '.' :: fraction => isNumber fraction
  | _ => false

/-- A dash and a number; a line feed may follow. -/
def isNegativeNumber (cs : List Char) : Bool :=
  match cs with
  | '-' :: rest => isPositive (if rest.getLast? == some '\n' then rest.dropLast else rest)
  | _ => false

namespace Word

/-- The words that a long name may stand for. -/
def longCandidates (known : List Switch) (argument : String) : List Word :=
  let (start, value) :=
    match Text.cut? '=' argument with
    | some (start, value) => (start, some value.toList)
    | none => (argument, none)
  ((Switch.spellings known).filter fun spelling => spelling.1.startsWith start).map
    fun (name, s) => switch s name value

/-- The words that a short name with something attached to it may stand for. -/
def shortCandidates (known : List Switch) (argument : String) : List Word :=
  let name := String.ofList (argument.toList.take 2)
  ((Switch.ofName? known name).map fun s =>
    switch s name (some (argument.toList.drop 2))).toList

/-- The words that an argument without a full name may stand for. -/
def candidates (known : List Switch) (argument : String) : List Word :=
  if argument.startsWith "--" then longCandidates known argument
  else shortCandidates known argument

/-- A full name with a value after an equals sign. -/
def withValue? (known : List Switch) (argument : String) : Option Word := do
  let (name, value) ← Text.cut? '=' argument
  let s ← Switch.ofName? known name
  pure (switch s name (some value.toList))

/-- An argument that names no switch. -/
def nameless (argument : String) : Word :=
  if isNegativeNumber argument.toList || argument.toList.contains ' ' then plain argument
  else unknown

/-- An argument that starts with a dash. -/
def ofDashed (known : List Switch) (argument : String) : Except Ending Word :=
  match Switch.ofName? known argument, withValue? known argument with
  | some s, _ => .ok (switch s argument none)
  | none, some word => .ok word
  | none, none =>
    match candidates known argument with
    | [] => .ok (nameless argument)
    | [word] => .ok word
    | _ => .error .misuse

/-- An argument in front of any double dash. -/
def ofArgument (known : List Switch) (argument : String) : Except Ending Word :=
  if argument.startsWith "-" && argument != "-" then ofDashed known argument
  else .ok (plain argument)

/-- The words of arguments. -/
def ofArguments (known : List Switch) : List String → Except Ending (List Word)
  | [] => .ok []
  | argument :: rest =>
    if argument = "--" then .ok (divider :: rest.map plain)
    else do
      let word ← ofArgument known argument
      let words ← ofArguments known rest
      pure (word :: words)

end Word

end TraceProfile.CommandLine
