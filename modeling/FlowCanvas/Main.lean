import FlowCanvas.Command.Disk
import FlowCanvas.Command.Run

/-!
The program: a command line run on the machine that it is called on.
-/

namespace FlowCanvas.Command

/-- A machine gives the number of an error as it is or below zero. -/
def isNumber (n code : UInt32) : Bool := code == n || code == 0 - n

def describe : IO.Error → String
  | .noFileOrDirectory .. => DiskError.missing.message
  | .inappropriateType _ code details =>
    if isNumber 21 code then DiskError.isDirectory.message
    else if isNumber 20 code then DiskError.notDirectory.message
    else details
  | .invalidArgument _ code details =>
    if isNumber 36 code then DiskError.nameTooLong.message else details
  -- Reading a file as a text throws this when the file is none.
  | .userError _ => DiskError.notText.message
  | e => toString e

def attempt {β : Type} (x : IO β) : IO (Except String β) := do
  try
    return .ok (← x)
  catch e =>
    return .error (describe e)

def machine : Host IO where
  input := attempt do (← IO.getStdin).readToEnd
  read := fun path => attempt (IO.FS.readFile path)
  write := fun path content => attempt do
    match content with
    | .text t => IO.FS.writeFile path t
    | .image bytes => IO.FS.writeBinFile path bytes
  print := fun text => do
    let out ← IO.getStdout
    out.putStr text
    out.flush
  complain := fun line => IO.eprintln line

end FlowCanvas.Command

def main (words : List String) : IO UInt32 := do
  return (← FlowCanvas.Command.execute FlowCanvas.Command.machine .none words).toUInt32
