import FlowCanvas.Json.Token

/-!
Writing JSON. The compact form is the spellings of the tokens one after the other; the pretty form
puts every item and field on a line of its own, two spaces deeper than its container, and leaves
empty containers closed.
-/

namespace FlowCanvas.Json

def hexDigit (n : Nat) : Char := Nat.digitChar n

def escape (c : Char) : List Char :=
  if c = '"' then ['\\', '"']
  else if c = '\\' then ['\\', '\\']
  else if c = '\n' then ['\\', 'n']
  else if c = '\t' then ['\\', 't']
  else if c = '\r' then ['\\', 'r']
  else if c = '\x08' then ['\\', 'b']
  else if c = '\x0c' then ['\\', 'f']
  else if c.toNat < 0x20 then
    ['\\', 'u', '0', '0', hexDigit (c.toNat / 16), hexDigit (c.toNat % 16)]
  else [c]

def quote (s : String) : List Char := '"' :: (s.toList.flatMap escape ++ ['"'])

def writeInt (i : Int) : List Char :=
  if i < 0 then '-' :: Nat.toDigits 10 i.natAbs else Nat.toDigits 10 i.natAbs

def writeNumber : Number → List Char
  | .integer i => writeInt i
  | .single x => NumberStyle.single.write (Binary.ofSingle x)
  | .double x => NumberStyle.double.write (Binary.ofDouble x)

def writeScalar : Json → List Char
  | .bool true => "true".toList
  | .bool false => "false".toList
  | .number n => writeNumber n
  | .text s => quote s
  | _ => "null".toList

def Token.write : Token → List Char
  | .openArray => ['[']
  | .closeArray => [']']
  | .openObject => ['\x7b']
  | .closeObject => ['\x7d']
  | .comma => [',']
  | .colon => [':']
  | .scalar j => writeScalar j
  | .text (some s) => quote s
  | .word _ (some s) => s.toList
  | _ => []

def compact (j : Json) : List Char := j.tokens.flatMap Token.write

def lineBreak (level : Nat) : List Char := '\n' :: List.replicate (2 * level) ' '

mutual

def prettyAt (level : Nat) : Json → List Char
  | .array [] => "[]".toList
  | .array items => '[' :: prettyItems (level + 1) items ++ lineBreak level ++ [']']
  | .object [] => ['\x7b', '\x7d']
  | .object fields => '\x7b' :: prettyFields (level + 1) fields ++ lineBreak level ++ ['\x7d']
  | j => writeScalar j

def prettyItems (level : Nat) : List Json → List Char
  | [] => []
  | [j] => lineBreak level ++ prettyAt level j
  | j :: js => lineBreak level ++ prettyAt level j ++ ',' :: prettyItems level js

def prettyFields (level : Nat) : List (String × Json) → List Char
  | [] => []
  | [(k, j)] => lineBreak level ++ quote k ++ ':' :: ' ' :: prettyAt level j
  | (k, j) :: fs =>
    lineBreak level ++ quote k ++ ':' :: ' ' :: prettyAt level j ++ ',' :: prettyFields level fs

end

def write (j : Json) : String := String.ofList j.compact

def pretty (j : Json) : String := String.ofList (prettyAt 0 j)

end FlowCanvas.Json
