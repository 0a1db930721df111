import FlowCanvas.Number.Literal

/-!
The arguments of the command line. An option takes its value from behind an equals sign, from the
rest of its word after a short name, or from the next word unless that starts with a dash. No option
is given twice and nothing stands outside the options.
-/

namespace FlowCanvas.Command

inductive OutputFormat
  | json
  | svg
  | png
  deriving DecidableEq

inductive Setting
  | input
  | output
  | format
  | config
  | width
  | height
  | dump
  deriving DecidableEq

inductive Switch
  | setting (s : Setting)
  | check
  | help
  | version
  deriving DecidableEq

/-- What a command is asked to do; no format stands for JSON. -/
structure Arguments where
  input : Option String
  output : Option String
  format : Option OutputFormat
  config : Option String
  width : Option Float32
  height : Option Float32
  check : Bool
  dump : Option String

inductive Invocation
  | arrange (a : Arguments)
  | help
  | version

inductive UsageError
  | unknownOption (word : String)
  | unexpected (word : String)
  | noValue (s : Setting)
  | badValue (s : Setting) (value : String)
  | needlessValue (word : String)
  | repeated (s : Switch)

namespace OutputFormat

def ofName? : String → Option OutputFormat
  | "json" => some .json
  | "svg" => some .svg
  | "png" => some .png
  | _ => none

end OutputFormat

namespace Setting

def name : Setting → String
  | .input => "--input"
  | .output => "--output"
  | .format => "--outputFormat"
  | .config => "--configFile"
  | .width => "--width"
  | .height => "--height"
  | .dump => "--dumpLayout"

end Setting

namespace Switch

def ofLong? : String → Option Switch
  | "input" => some (.setting .input)
  | "output" => some (.setting .output)
  | "outputFormat" => some (.setting .format)
  | "configFile" => some (.setting .config)
  | "width" => some (.setting .width)
  | "height" => some (.setting .height)
  | "dumpLayout" => some (.setting .dump)
  | "check" => some .check
  | "help" => some .help
  | "version" => some .version
  | _ => none

def ofShort? : Char → Option Switch
  | 'i' => some (.setting .input)
  | 'o' => some (.setting .output)
  | 'e' => some (.setting .format)
  | 'c' => some (.setting .config)
  | 'w' => some (.setting .width)
  | 'H' => some (.setting .height)
  | 'h' => some .help
  | 'V' => some .version
  | _ => none

def name : Switch → String
  | .setting s => s.name
  | .check => "--check"
  | .help => "--help"
  | .version => "--version"

end Switch

namespace UsageError

def message : UsageError → String
  | .unknownOption word => "unexpected argument '" ++ word ++ "' found"
  | .unexpected word => "unexpected argument '" ++ word ++ "' found"
  | .noValue s => "a value is required for '" ++ s.name ++ "' but none was supplied"
  | .badValue s value => "invalid value '" ++ value ++ "' for '" ++ s.name ++ "'"
  | .needlessValue word => "unexpected value in '" ++ word ++ "' found"
  | .repeated s => "the argument '" ++ s.name ++ "' cannot be used multiple times"

end UsageError

namespace Arguments

def none : Arguments := ⟨.none, .none, .none, .none, .none, .none, false, .none⟩

def path? (value : String) : Option String := if value.isEmpty then .none else some value

def number? (value : String) : Option Float32 := (Literal.read? value.toList).map Literal.toSingle

def fill {β : Type} (s : Setting) (old : Option β) (read : String → Option β) (value : String)
    (put : Option β → Arguments) : Except UsageError Arguments :=
  match old, read value with
  | some _, _ => .error (.repeated (.setting s))
  | .none, some x => .ok (put (some x))
  | .none, .none => .error (.badValue s value)

def set (a : Arguments) (s : Setting) (value : String) : Except UsageError Arguments :=
  match s with
  | .input => fill s a.input path? value fun x => { a with input := x }
  | .output => fill s a.output path? value fun x => { a with output := x }
  | .format => fill s a.format OutputFormat.ofName? value fun x => { a with format := x }
  | .config => fill s a.config path? value fun x => { a with config := x }
  | .width => fill s a.width number? value fun x => { a with width := x }
  | .height => fill s a.height number? value fun x => { a with height := x }
  | .dump => fill s a.dump path? value fun x => { a with dump := x }

def setCheck (a : Arguments) : Except UsageError Arguments :=
  if a.check then .error (.repeated .check) else .ok { a with check := true }

/-- A word that cannot be the value of an option before it. A single dash can. -/
def isDashed (word : String) : Bool :=
  match word.toList with
  | '-' :: _ :: _ => true
  | _ => false

inductive Word
  | stop
  | long (name : String) (value : Option String)
  | short (name : Char) (rest : List Char)
  | plain

def afterEquals : List Char → Option String
  | '=' :: cs => some (String.ofList cs)
  | _ => .none

def word (s : String) : Word :=
  match s.toList with
  | ['-', '-'] => .stop
  | '-' :: '-' :: cs =>
    .long (String.ofList (cs.takeWhile (· ≠ '='))) (afterEquals (cs.dropWhile (· ≠ '=')))
  | '-' :: c :: cs => .short c cs
  | _ => .plain

def attached : List Char → Option String
  | [] => .none
  | '=' :: cs => some (String.ofList cs)
  | cs => some (String.ofList cs)

mutual

/-- Reads the words from left to right. Asking for help or the version ends the reading. -/
def readFrom (a : Arguments) : List String → Except UsageError Invocation
  | [] => .ok (.arrange a)
  | s :: rest =>
    match word s with
    | .stop =>
      match rest with
      | [] => .ok (.arrange a)
      | t :: _ => .error (.unexpected t)
    | .plain => .error (.unexpected s)
    | .long name value =>
      match Switch.ofLong? name, value with
      | .none, _ => .error (.unknownOption s)
      | some (.setting o), some v => (a.set o v).bind fun a => readFrom a rest
      | some (.setting o), .none => readValue a o rest
      | some _, some _ => .error (.needlessValue s)
      | some .check, .none => a.setCheck.bind fun a => readFrom a rest
      | some .help, .none => .ok .help
      | some .version, .none => .ok .version
    | .short c cs =>
      match Switch.ofShort? c with
      | .none => .error (.unknownOption s)
      | some .help => .ok .help
      | some .version => .ok .version
      | some .check => a.setCheck.bind fun a => readFrom a rest
      | some (.setting o) =>
        match attached cs with
        | some v => (a.set o v).bind fun a => readFrom a rest
        | .none => readValue a o rest

def readValue (a : Arguments) (o : Setting) : List String → Except UsageError Invocation
  | [] => .error (.noValue o)
  | v :: rest =>
    if isDashed v then .error (.noValue o) else (a.set o v).bind fun a => readFrom a rest

end

def read (words : List String) : Except UsageError Invocation := readFrom none words

end Arguments

end FlowCanvas.Command
