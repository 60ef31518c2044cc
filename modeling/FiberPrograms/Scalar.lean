import FiberPrograms.Value

/-!
# Scalar ground types

The ground types of programs over plain numbers, truth values, characters and text.

## Main definitions

* `Scalar`: the types, with their elements and their names
-/

namespace FiberPrograms

/-- Plain ground types. -/
inductive Scalar where
  | int64
  | uint64
  | int32
  | bool
  | char
  | unit
  | text
deriving DecidableEq, Repr

instance : Universe Scalar where
  El
    | .int64 => Int64
    | .uint64 => UInt64
    | .int32 => Int32
    | .bool => Bool
    | .char => Char
    | .unit => Unit
    | .text => String
  name
    | .int64 => "i64"
    | .uint64 => "u64"
    | .int32 => "i32"
    | .bool => "bool"
    | .char => "char"
    | .unit => "()"
    | .text => "alloc::string::String"

end FiberPrograms
