import FlowCanvas.Json.Value

/-!
The tokens of a JSON text and the machine that assembles them into a value. The machine goes over
the tokens once, with a stack of the containers that are open, and stops after one whole value; the
tokens that follow are its remainder. Printing goes the other way: a value is a list of tokens, and
each token has one spelling.
-/

namespace FlowCanvas.Json

/-- A scalar is a value by itself. A text is a value or a key, and is absent when it spells no
characters. A word is a bare key, or names a value if it is plainly spelled. -/
inductive Token
  | openArray
  | closeArray
  | openObject
  | closeObject
  | comma
  | colon
  | scalar (j : Json)
  | text (s : Option String)
  | word (plain : Bool) (s : Option String)
  | stray

/-- What may come next: a value; the first item of an array or its end; an item after a comma; a
key, likewise; the colon after a key; a comma or the end of the container. -/
inductive Expected
  | value
  | firstItem
  | nextItem
  | firstKey
  | nextKey
  | colon
  | separator

/-- An open container with what it holds so far, the latest first. A field whose key is read but
not its value is open as well. -/
inductive Frame
  | items (done : List Json)
  | fields (done : List (Option String × Json))
  | field (done : List (Option String × Json)) (key : Option String)

inductive Step
  | refuse
  | finish (j : Json)
  | proceed (stack : List Frame) (expected : Expected)

/-- The fields of a closed object; with an unreadable key the object cannot be read. -/
def close : List (Option String × Json) → List (String × Json) → Json
  | [], fields => .object fields
  | (some k, j) :: done, fields => close done ((k, j) :: fields)
  | (none, _) :: _, _ => .unreadable

def deliver (j : Json) : List Frame → Step
  | [] => .finish j
  | .items done :: stack => .proceed (.items (j :: done) :: stack) .separator
  | .field done key :: stack => .proceed (.fields ((key, j) :: done) :: stack) .separator
  | .fields _ :: _ => .refuse

def openKey (key : Option String) : List Frame → Step
  | .fields done :: stack => .proceed (.field done key :: stack) .colon
  | _ => .refuse

def closeItems : List Frame → Step
  | .items done :: stack => deliver (.array done.reverse) stack
  | _ => .refuse

def closeFields : List Frame → Step
  | .fields done :: stack => deliver (close done []) stack
  | _ => .refuse

def ofText : Option String → Json
  | some s => .text s
  | none => .unreadable

def named? : String → Option Json
  | "null" => some .null
  | "true" => some (.bool true)
  | "false" => some (.bool false)
  | "Infinity" => some (.number (.double (1 / 0)))
  | "NaN" => some (.number (.double (0 / 0)))
  | _ => none

def startValue (stack : List Frame) : Token → Step
  | .openArray => .proceed (.items [] :: stack) .firstItem
  | .openObject => .proceed (.fields [] :: stack) .firstKey
  | .scalar j => deliver j stack
  | .text s => deliver (ofText s) stack
  | .word true (some s) =>
    match named? s with
    | some j => deliver j stack
    | none => .refuse
  | _ => .refuse

def startKey (stack : List Frame) : Token → Step
  | .text s => openKey s stack
  | .word _ s => openKey s stack
  | _ => .refuse

/-- One token. With `lax`, a comma may precede the end of a container. -/
def step (lax : Bool) (stack : List Frame) : Expected → Token → Step
  | .value, t => startValue stack t
  | .firstItem, .closeArray => closeItems stack
  | .firstItem, t => startValue stack t
  | .nextItem, .closeArray => if lax then closeItems stack else .refuse
  | .nextItem, t => startValue stack t
  | .firstKey, .closeObject => closeFields stack
  | .firstKey, t => startKey stack t
  | .nextKey, .closeObject => if lax then closeFields stack else .refuse
  | .nextKey, t => startKey stack t
  | .colon, .colon => .proceed stack .value
  | .colon, _ => .refuse
  | .separator, .closeArray => closeItems stack
  | .separator, .closeObject => closeFields stack
  | .separator, .comma =>
    match stack with
    | .items _ :: _ => .proceed stack .nextItem
    | .fields _ :: _ => .proceed stack .nextKey
    | _ => .refuse
  | .separator, _ => .refuse

def assemble (lax : Bool) : List Frame → Expected → List Token → Option (Json × List Token)
  | _, _, [] => none
  | stack, expected, t :: ts =>
    match step lax stack expected t with
    | .refuse => none
    | .finish j => some (j, ts)
    | .proceed stack expected => assemble lax stack expected ts

def assemble? (lax : Bool) (ts : List Token) : Option (Json × List Token) :=
  assemble lax [] .value ts

mutual

def tokens : Json → List Token
  | .text s => [.text (some s)]
  | .array items => .openArray :: itemTokens items
  | .object fields => .openObject :: fieldTokens fields
  | j => [.scalar j]

def itemTokens : List Json → List Token
  | [] => [.closeArray]
  | [j] => j.tokens ++ [.closeArray]
  | j :: js => j.tokens ++ .comma :: itemTokens js

def fieldTokens : List (String × Json) → List Token
  | [] => [.closeObject]
  | [(k, j)] => .text (some k) :: .colon :: j.tokens ++ [.closeObject]
  | (k, j) :: fs => .text (some k) :: .colon :: j.tokens ++ .comma :: fieldTokens fs

end

end FlowCanvas.Json
