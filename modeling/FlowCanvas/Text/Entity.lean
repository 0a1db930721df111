/-!
Text inside markup. The five characters that markup gives a meaning to are written as entities, one
character after the other over the whole text; the ampersand comes first, so that the ampersands of
the entities themselves are left alone.
-/

namespace FlowCanvas.Entity

def table : List (Char × String) :=
  [('&', "&amp;"), ('<', "&lt;"), ('>', "&gt;"), ('"', "&quot;"), ('\x27', "&apos;")]

def replace (c : Char) (word : String) (cs : List Char) : List Char :=
  cs.flatMap fun d => if d = c then word.toList else [d]

theorem replace_append (c : Char) (word : String) (xs ys : List Char) :
    replace c word (xs ++ ys) = replace c word xs ++ replace c word ys := by
  simp [replace]

def encode (s : String) : String :=
  String.ofList (table.foldl (fun cs (c, word) => replace c word cs) s.toList)

end FlowCanvas.Entity
