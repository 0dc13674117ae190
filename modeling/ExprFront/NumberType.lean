import ExprFront.Conversion

/-!
# Number types

The type that numerals are converted into is chosen by name, or as a fixed-width
scalar type, or as any converter.  `NumberType.resolve` turns the choice into a
converter, or says why it is none.
-/

namespace ExprFront

/-- The number types that have a name. -/
inductive NamedType where
  | integer
  | float
  | decimal
  | fraction
  | fixedInt (t : IntType)
  | fixedFloat (t : FloatType)
deriving DecidableEq, Repr

namespace NamedType

/-- The name of the type. -/
def name : NamedType → String
  | integer => "int"
  | float => "float"
  | decimal => "decimal"
  | fraction => "fraction"
  | fixedInt t => t.name
  | fixedFloat t => t.name

/-- The converter into the type. -/
def converter : NamedType → Converter
  | integer => Converter.integer
  | float => Converter.float
  | decimal => Converter.decimal
  | fraction => Converter.fraction
  | fixedInt t => Converter.fixedInt t
  | fixedFloat t => Converter.fixedFloat t

/-- All named types. -/
def all : List NamedType := [
  integer, float, decimal, fraction,
  fixedInt ⟨true, .w8⟩, fixedInt ⟨true, .w16⟩, fixedInt ⟨true, .w32⟩, fixedInt ⟨true, .w64⟩,
  fixedInt ⟨false, .w8⟩, fixedInt ⟨false, .w16⟩, fixedInt ⟨false, .w32⟩, fixedInt ⟨false, .w64⟩,
  fixedFloat .float16, fixedFloat .float32, fixedFloat .float64]

/-- The names of all types. -/
def names : List String := all.map name

/-- The type of a name. -/
def ofName? (s : String) : Option NamedType := all.find? (·.name = s)

end NamedType

/-- A scalar type of fixed width.  Not every one serves for numerals. -/
inductive ScalarType where
  | int (t : IntType)
  | float (t : FloatType)
  | unsupported (name : String)
deriving DecidableEq, Repr

namespace ScalarType

/-- The scalar types by name. -/
def byName : List (String × ScalarType) :=
  [("int8", int ⟨true, .w8⟩), ("int16", int ⟨true, .w16⟩), ("int32", int ⟨true, .w32⟩),
    ("int64", int ⟨true, .w64⟩), ("intp", int ⟨true, .w64⟩),
    ("uint8", int ⟨false, .w8⟩), ("uint16", int ⟨false, .w16⟩), ("uint32", int ⟨false, .w32⟩),
    ("uint64", int ⟨false, .w64⟩), ("uintp", int ⟨false, .w64⟩),
    ("float16", float .float16), ("float32", float .float32), ("float64", float .float64),
    ("complex64", unsupported "complex64"), ("complex128", unsupported "complex128"),
    ("bool", unsupported "bool"), ("bool_", unsupported "bool")]

/-- The scalar types by kind letter and size in bytes. -/
def byCode : List (String × ScalarType) :=
  [("i1", int ⟨true, .w8⟩), ("i2", int ⟨true, .w16⟩), ("i4", int ⟨true, .w32⟩),
    ("i8", int ⟨true, .w64⟩), ("u1", int ⟨false, .w8⟩), ("u2", int ⟨false, .w16⟩),
    ("u4", int ⟨false, .w32⟩), ("u8", int ⟨false, .w64⟩),
    ("f2", float .float16), ("f4", float .float32), ("f8", float .float64),
    ("c8", unsupported "complex64"), ("c16", unsupported "complex128"),
    ("b1", unsupported "bool"), ("?", unsupported "bool")]

/-- The scalar type of a description: a name, or a code after an optional mark of
byte order, which does not matter. -/
def ofDescription? (s : String) : Option ScalarType :=
  let unmarked := match s.toList with
    | '<' :: cs | '>' :: cs | '=' :: cs | '|' :: cs => String.ofList cs
    | cs => String.ofList cs
  (byName.lookup s).or (byCode.lookup unmarked)

end ScalarType

/-- A choice of number type. -/
inductive NumberType where
  /-- A type given by its name. -/
  | named (name : String)
  /-- A scalar type of fixed width. -/
  | scalar (t : ScalarType)
  /-- Any converter. -/
  | custom (convert : Converter)
  /-- Something that is no number type, as it is shown in messages. -/
  | unusable (shown : String)

/-- Why a choice of number type is none. -/
inductive NumberTypeError where
  | unknownName (name : String)
  | unsupported (name : String)
  | unusable (shown : String)
deriving DecidableEq, Repr

/-- The text of the failure. -/
def NumberTypeError.message : NumberTypeError → String
  | unknownName s =>
    "Unknown number type " ++ Text.quoted s ++ "; expected one of "
      ++ String.intercalate ", " NamedType.names
  | unsupported s => "Unsupported numpy number type: " ++ s
  | unusable s => "Cannot use " ++ s ++ " as a number type"

namespace NumberType

/-- The converter that a choice of number type stands for. -/
def resolve : NumberType → Except NumberTypeError Converter
  | named s =>
    match NamedType.ofName? s with
    | some t => .ok t.converter
    | none => .error (.unknownName s)
  | scalar (.int t) => .ok (Converter.fixedInt t)
  | scalar (.float t) => .ok (Converter.fixedFloat t)
  | scalar (.unsupported s) => .error (.unsupported s)
  | custom convert => .ok convert
  | unusable s => .error (.unusable s)

/-- The type that numerals have unless another is chosen. -/
def standard : NumberType := named "float"

end NumberType

end ExprFront
