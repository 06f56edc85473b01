import NodeProbe.Text.Quoted

/-!
# Value types

Every attribute, parameter and result of a component declares the type of its
values.
-/
namespace NodeProbe

inductive ValueType where
  | u8 | u16 | u32 | u64
  /-- An unsigned number as wide as a pointer, which is 64 bits. -/
  | usize
  | i8 | i16 | i32 | i64
  | f32 | f64
  | bool
  | string
  | duration
  /-- One of a fixed list of names. -/
  | enum (name : String) (variants : List String)
  /-- Any number of values of one type. -/
  | list (element : ValueType)
deriving DecidableEq, Repr, Inhabited

namespace ValueType

def text : ValueType → String
  | u8 => "u8" | u16 => "u16" | u32 => "u32" | u64 => "u64" | usize => "usize"
  | i8 => "i8" | i16 => "i16" | i32 => "i32" | i64 => "i64"
  | f32 => "f32" | f64 => "f64"
  | bool => "bool" | string => "String" | duration => "Duration"
  | enum name _ => name
  | list element => "Vec<" ++ element.text ++ ">"

def integerRange? : ValueType → Option (Int × Int)
  | u8 => some (0, 255)
  | u16 => some (0, 65535)
  | u32 => some (0, 4294967295)
  | u64 | usize => some (0, 18446744073709551615)
  | i8 => some (-128, 127)
  | i16 => some (-32768, 32767)
  | i32 => some (-2147483648, 2147483647)
  | i64 => some (-9223372036854775808, 9223372036854775807)
  | _ => none

def isUnsigned : ValueType → Bool
  | u8 | u16 | u32 | u64 | usize => true
  | _ => false

def inspect : ValueType → String
  | u8 => "U8" | u16 => "U16" | u32 => "U32" | u64 => "U64" | usize => "Usize"
  | i8 => "I8" | i16 => "I16" | i32 => "I32" | i64 => "I64"
  | f32 => "F32" | f64 => "F64"
  | bool => "Bool" | string => "String" | duration => "Duration"
  | enum name variants =>
    "Enum \x7b name: " ++ Text.quoted name ++ ", variants: " ++ Text.quotedList variants ++ " \x7d"
  | list element => "List(" ++ element.inspect ++ ")"

end ValueType

end NodeProbe
