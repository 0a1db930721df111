import FlowCanvas.Command.Disk
import FlowCanvas.Command.Run

/-!
A world of files: what stands on the input and on the disk, and what has been printed. It is a host,
and a command on it is a function. Without libraries that function is total.
-/

namespace FlowCanvas.Command

structure World where
  input : String
  disk : Disk
  output : String
  complaints : List String

namespace World

def start (input : String) (disk : Disk) : World := ⟨input, disk, "", []⟩

def read (path : String) (w : World) : Except String String × World :=
  ((w.disk.read path).mapError DiskError.message, w)

def write (path : String) (content : Content) (w : World) : Except String Unit × World :=
  match w.disk.write path content with
  | .ok disk => (.ok (), { w with disk })
  | .error e => (.error e.message, w)

def print (text : String) (w : World) : Unit × World := ((), { w with output := w.output ++ text })

def complain (line : String) (w : World) : Unit × World :=
  ((), { w with complaints := w.complaints ++ [line] })

def host {m : Type → Type} [Monad m] : Host (StateT World m) where
  input := fun w => pure (.ok w.input, w)
  read := fun path w => pure (w.read path)
  write := fun path content w => pure (w.write path content)
  print := fun text w => pure (w.print text)
  complain := fun line w => pure (w.complain line)

def execute (words : List String) (w : World) : Nat × World :=
  (Command.execute host .none words w : Id _).run

/-- What comes of a command with libraries: an exit status and a world, or nothing at all if a pass
of dagre never comes back. -/
def executeWith (libraries : Libraries Option) (words : List String) (w : World) :
    Option (Nat × World) :=
  Command.execute host libraries.lift words w

end World

end FlowCanvas.Command
