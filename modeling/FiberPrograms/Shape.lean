import FiberPrograms.Fault

/-!
# Shapes shown for diagnosis

A shape is what is shown of a value for diagnosis: a word, a fiber under some label, a name with
one field in parentheses, or a name with named fields in braces, of which some may be left out.
A shape is written on one line, or laid out with four blanks for each level.

## Main definitions

* `Shape`, `Shape.Fields`: shapes and lists of named fields
* `Shape.inline`, `Shape.layout`: the two ways of writing a shape
-/

namespace FiberPrograms

mutual

/-- What is shown of a value for diagnosis. -/
inductive Shape where
  /-- A word, written as it stands. -/
  | word (text : String)
  /-- A fiber, under a label. -/
  | fiber (label : String) (id : FiberId)
  /-- A name with one field. -/
  | tuple (name : String) (field : Shape)
  /-- A name with named fields. -/
  | record (name : String) (fields : Shape.Fields)

/-- Named fields, closed or with some left out. -/
inductive Shape.Fields where
  | closed
  | open
  | field (name : String) (value : Shape) (rest : Shape.Fields)

end

namespace Shape

mutual

/-- A shape on one line. -/
def inline (name : FiberId → String) : Shape → String
  | word text => text
  | fiber label id => label ++ "(" ++ name id ++ ")"
  | tuple head field => head ++ "(" ++ inline name field ++ ")"
  | record head .closed => head
  | record head .open => head ++ " \x7b .. \x7d"
  | record head (.field key value rest) =>
      head ++ " \x7b " ++ key ++ ": " ++ inline name value ++ Fields.inline name rest

/-- The fields after the first, and the closing brace. -/
def Fields.inline (name : FiberId → String) : Fields → String
  | .closed => " \x7d"
  | .open => ", .. \x7d"
  | .field key value rest =>
      ", " ++ key ++ ": " ++ Shape.inline name value ++ Fields.inline name rest

end

/-- Move every line after the first one level to the right. -/
def indent (text : String) : String :=
  text.replace "\n" "\n    "

mutual

/-- A shape over several lines. -/
def layout (name : FiberId → String) : Shape → String
  | word text => text
  | fiber label id => label ++ "(" ++ name id ++ ")"
  | tuple head field => head ++ "(" ++ indent ("\n" ++ layout name field) ++ ",\n)"
  | record head .closed => head
  | record head .open => head ++ " \x7b .. \x7d"
  | record head (.field key value rest) =>
      head ++ " \x7b" ++ indent ("\n" ++ key ++ ": " ++ layout name value) ++ ","
        ++ Fields.layout name rest

/-- The fields after the first, each on a line of its own, and the closing brace. -/
def Fields.layout (name : FiberId → String) : Fields → String
  | .closed => "\n\x7d"
  | .open => indent "\n.." ++ "\n\x7d"
  | .field key value rest =>
      indent ("\n" ++ key ++ ": " ++ Shape.layout name value) ++ "," ++ Fields.layout name rest

end

end Shape

end FiberPrograms
