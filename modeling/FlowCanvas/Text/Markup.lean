/-!
Markup trees. An element has a name, attributes in order and what is inside it; one with nothing
inside is written as a single tag. Attributes and text are written as they stand: whoever puts a
foreign text into a tree encodes it first.
-/

namespace FlowCanvas

inductive Markup
  | text (s : String)
  | element (name : String) (attributes : List (String × String)) (inside : List Markup)

namespace Markup

def writeAttribute (a : String × String) : List Char :=
  ' ' :: (a.1.toList ++ '=' :: '"' :: (a.2.toList ++ ['"']))

def openTag (name : String) (attributes : List (String × String)) : List Char :=
  '<' :: (name.toList ++ attributes.flatMap writeAttribute)

mutual

def write : Markup → List Char
  | .text s => s.toList
  | .element name attributes [] => openTag name attributes ++ ['/', '>']
  | .element name attributes (m :: ms) =>
    openTag name attributes ++ '>' :: (write m ++ writeAll ms ++ '<' :: '/' :: (name.toList ++ ['>']))

def writeAll : List Markup → List Char
  | [] => []
  | m :: ms => write m ++ writeAll ms

end

theorem writeAll_append (xs ys : List Markup) : writeAll (xs ++ ys) = writeAll xs ++ writeAll ys := by
  induction xs with
  | nil => simp [writeAll]
  | cons x xs ih => simp [writeAll, ih]

end Markup

end FlowCanvas
