/-!
Cursors and types as a C parser hands them out: entries of a table that refer to each other by
number. A reading that the parser refuses is `none`.
-/
namespace HeaderBind

/-- A property that may be unreadable. -/
abbrev Reading (α : Type) := Option α

/-- The number of a cursor in its table. -/
abbrev CursorId := Nat

/-- The number of a type in its table; `none` is the invalid type. -/
abbrev TypeId := Option Nat

inductive CursorKind where
  | struct | union | enum | enumConstant | field | typedef | function | object | packedAttr
  | other (name : String)
  deriving DecidableEq, Repr

namespace CursorKind

def name : CursorKind → String
  | struct => "STRUCT_DECL"
  | union => "UNION_DECL"
  | enum => "ENUM_DECL"
  | enumConstant => "ENUM_CONSTANT_DECL"
  | field => "FIELD_DECL"
  | typedef => "TYPEDEF_DECL"
  | function => "FUNCTION_DECL"
  | object => "VAR_DECL"
  | packedAttr => "PACKED_ATTR"
  | other name => name

def ofName (name : String) : CursorKind :=
  ([struct, union, enum, enumConstant, field, typedef, function, object, packedAttr].find?
    (·.name == name)).getD (other name)

def isRecord : CursorKind → Bool
  | struct | union => true
  | _ => false

/-- Records and enumerations: what a tag names. -/
def isTag : CursorKind → Bool
  | struct | union | enum => true
  | _ => false

end CursorKind

inductive TypeKind where
  | invalid | void | bool | charSigned | charUnsigned | schar | uchar | short | ushort | int | uint
  | long | ulong | longlong | ulonglong | wchar | char16 | char32 | float | double | longdouble
  | pointer | elaborated | typedef | record | enum | constantArray | incompleteArray | variableArray
  | functionProto | functionNoProto
  | other (name : String)
  deriving DecidableEq, Repr

namespace TypeKind

def named : List (TypeKind × String) :=
  [(invalid, "INVALID"), (void, "VOID"), (bool, "BOOL"), (charSigned, "CHAR_S"),
    (charUnsigned, "CHAR_U"), (schar, "SCHAR"), (uchar, "UCHAR"), (short, "SHORT"),
    (ushort, "USHORT"), (int, "INT"), (uint, "UINT"), (long, "LONG"), (ulong, "ULONG"),
    (longlong, "LONGLONG"), (ulonglong, "ULONGLONG"), (wchar, "WCHAR"), (char16, "CHAR16"),
    (char32, "CHAR32"), (float, "FLOAT"), (double, "DOUBLE"), (longdouble, "LONGDOUBLE"),
    (pointer, "POINTER"), (elaborated, "ELABORATED"), (typedef, "TYPEDEF"), (record, "RECORD"),
    (enum, "ENUM"), (constantArray, "CONSTANTARRAY"), (incompleteArray, "INCOMPLETEARRAY"),
    (variableArray, "VARIABLEARRAY"), (functionProto, "FUNCTIONPROTO"),
    (functionNoProto, "FUNCTIONNOPROTO")]

def name (k : TypeKind) : String :=
  match k with
  | other name => name
  | _ => (named.lookup k).getD ""

def ofName (name : String) : TypeKind :=
  ((named.find? (·.2 == name)).map (·.1)).getD (other name)

def isArray : TypeKind → Bool
  | constantArray | incompleteArray | variableArray => true
  | _ => false

def isFunction : TypeKind → Bool
  | functionProto | functionNoProto => true
  | _ => false

end TypeKind

structure Location where
  file : Option String
  line : Int
  column : Int
  deriving DecidableEq, Repr

/-- `width` is there exactly for bit fields. `offset` is a member's place in bits, negative when the
parser cannot tell it. -/
structure Cursor where
  kind : CursorKind
  name : String
  usr : Reading String
  location : Reading Location
  type : Reading TypeId
  isDefinition : Reading Bool
  definition : Option CursorId
  storage : Reading String
  width : Option Int
  offset : Reading Int
  underlying : TypeId
  enumType : TypeId
  value : Int
  arguments : List CursorId
  children : List CursorId
  deriving Repr

/-- `canonical` is the type behind all sugar; `element` and `count` belong to arrays, `result`,
`parameters` and `variadic` to functions, `declaration` to declared types. -/
structure CursorType where
  kind : TypeKind
  name : Reading String
  size : Reading Int
  align : Reading Int
  isConst : Reading Bool
  canonical : Reading TypeId
  pointee : TypeId
  named : TypeId
  element : TypeId
  count : Int
  result : TypeId
  parameters : List TypeId
  variadic : Bool
  declaration : Option CursorId
  deriving Repr

/-- A parsed unit of C: all cursors and types, and the cursors at the top, in order. -/
structure CursorTable where
  cursors : Array Cursor
  types : Array CursorType
  tops : List CursorId
  deriving Repr

/-- The cursor of a type that has no declaration, and of numbers outside the table. -/
def Cursor.absent : Cursor where
  kind := .other "NO_DECL_FOUND"
  name := ""
  usr := some ""
  location := some ⟨none, 0, 0⟩
  type := some none
  isDefinition := some false
  definition := none
  storage := some "NONE"
  width := none
  offset := some (-1)
  underlying := none
  enumType := none
  value := 0
  arguments := []
  children := []

def CursorType.invalid : CursorType where
  kind := .invalid
  name := some ""
  size := some (-1)
  align := some (-1)
  isConst := some false
  canonical := some none
  pointee := none
  named := none
  element := none
  count := -1
  result := none
  parameters := []
  variadic := false
  declaration := none

namespace CursorTable

def empty : CursorTable := ⟨#[], #[], []⟩

def cursor (t : CursorTable) (c : CursorId) : Cursor := t.cursors.getD c .absent

def type (t : CursorTable) : TypeId → CursorType
  | some i => t.types.getD i .invalid
  | none => .invalid

end CursorTable

end HeaderBind
