/-!
Paths. A path is cut at its slashes into parts. An empty part and a single dot stay in the directory
they are met in, so that slashes may be doubled and may end a path.
-/

namespace FlowCanvas.Command.Path

def pieces : List Char → List (List Char)
  | [] => [[]]
  | c :: cs => if c = '/' then [] :: pieces cs else (pieces cs).modifyHead (c :: ·)

def parts (path : String) : List String := (pieces path.toList).map String.ofList

def stays (part : String) : Bool := part == "" || part == "."

def isAbsolute (path : String) : Bool := path.toList.head? == some '/'

def endsInSlash (path : String) : Bool := path.toList.getLast? == some '/'

/-- The parts of a path with slashes behind it, its last name replaced by a dot. -/
def above (path : String) : List String :=
  (((parts path).reverse.dropWhile (· == "")).drop 1).reverse ++ ["."]

def isInput (path : String) : Bool :=
  match parts path with
  | [] => false
  | name :: rest => name == "-" && rest.all stays

end FlowCanvas.Command.Path
