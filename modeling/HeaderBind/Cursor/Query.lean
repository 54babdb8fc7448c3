import HeaderBind.Cursor
import HeaderBind.Scalar
import HeaderBind.CType
/-!
Questions about cursors and types, with the answer that stands in where the parser refuses a reading.
-/
namespace HeaderBind

namespace Location

/-- The place as messages show it. -/
def text (l : Location) : String :=
  l.file.getD "<unknown>" ++ ":" ++ toString l.line ++ ":" ++ toString l.column

end Location

namespace Cursor

/-- Where the cursor stands. -/
def place (c : Cursor) : String :=
  match c.location with
  | some l => l.text
  | none => "<unknown>:0:0"

/-- The file the cursor stands in. -/
def origin (c : Cursor) : Option String := c.location.bind (·.file)

def defines (c : Cursor) : Bool := c.isDefinition.getD false

def isStatic (c : Cursor) : Bool := c.storage == some "STATIC"

def typeId (c : Cursor) : TypeId := c.type.getD none

/-- The key of a cursor that the parser gives no identifier: kind, place and name. -/
def placeKey (c : Cursor) : String :=
  let l := c.location.getD ⟨none, 0, 0⟩
  c.kind.name ++ ":" ++ l.file.getD "" ++ ":" ++ toString l.line ++ ":" ++ toString l.column ++
    ":" ++ c.name

/-- What tells the declared thing from all others: the parser's own identifier where there is one. -/
def key (c : Cursor) : String :=
  match c.usr with
  | some usr => if usr.isEmpty then c.placeKey else usr
  | none => c.placeKey

end Cursor

namespace TypeKind

def intKind? : TypeKind → Option IntKind
  | bool => some .bool
  | charSigned | charUnsigned => some .char
  | schar => some .schar
  | uchar => some .uchar
  | short => some .short
  | ushort => some .ushort
  | int => some .int
  | uint => some .uint
  | long => some .long
  | ulong => some .ulong
  | longlong => some .longlong
  | ulonglong => some .ulonglong
  | wchar => some .wchar
  | char16 => some .char16
  | char32 => some .char32
  | _ => none

def floatKind? : TypeKind → Option FloatKind
  | float => some .float
  | double => some .double
  | longdouble => some .longdouble
  | _ => none

end TypeKind

namespace CursorTable

variable (t : CursorTable)

/-- The defining cursor where there is one, else the cursor itself. -/
def definitionOf (c : CursorId) : CursorId := (t.cursor c).definition.getD c

def keyOf (c : CursorId) : String := (t.cursor c).key

/-- The declaration of a type. -/
def declarationOf (type : CursorType) : CursorId := type.declaration.getD t.cursors.size

/-- The type behind all sugar; the type itself where that cannot be read. -/
def canonicalOf (type : TypeId) : TypeId := (t.type type).canonical.getD type

def canonicalKind (type : TypeId) : TypeKind :=
  match (t.type type).canonical with
  | some canonical => (t.type canonical).kind
  | none => (t.type type).kind

def layoutOf (type : TypeId) : Layout :=
  match (t.type type).size, (t.type type).align with
  | some size, some align => ⟨size, align⟩
  | _, _ => .unknown

def isConst (type : TypeId) : Bool := (t.type type).isConst.getD false

/-- More steps than a chain of types takes that never comes back to one of its members. -/
def chainBound : Nat := t.types.size + 1

/-- Whether the type, seen behind its sugar, or the element type of an array at some depth, is
const. -/
def isConstStorage (type : TypeId) : Bool :=
  go t.chainBound (t.canonicalOf type)
where
  go : Nat → TypeId → Bool
    | 0, _ => false
    | bound + 1, type =>
      if t.isConst type then true
      else if (t.type type).kind.isArray then go bound (t.type type).element
      else false

/-- The type behind elaboration and, unless `direct`, behind pointers and arrays. -/
def strippedType (direct : Bool) : Nat → TypeId → TypeId
  | 0, type => type
  | bound + 1, type =>
    let info := t.type type
    if info.kind = .elaborated then strippedType direct bound info.named
    else if direct then type
    else if info.kind = .pointer then strippedType direct bound info.pointee
    else if info.kind.isArray then strippedType direct bound info.element
    else type

/-- The record or enumeration that a type is made from. -/
def tagOf? (direct : Bool) (type : TypeId) : Option CursorId :=
  let info := t.type (t.strippedType direct t.chainBound type)
  if info.kind = .record ∨ info.kind = .enum then
    let decl := t.declarationOf info
    if (t.cursor decl).kind.isTag then some (t.definitionOf decl) else none
  else none

/-- The byte just past a member, where the parser can tell it. -/
def fieldEnd? (c : CursorId) : Option Int := do
  let cursor := t.cursor c
  let offset ← cursor.offset
  let type ← cursor.type
  let size ← (t.type type).size
  if offset < 0 ∨ size < 0 then none else some (offset / 8 + size)

/-- The enumerators of an enumeration. -/
def variantsOf (c : CursorId) : List (String × Int) :=
  (t.cursor c).children.filterMap fun child =>
    let cursor := t.cursor child
    if cursor.kind = .enumConstant then some (cursor.name, cursor.value) else none

end CursorTable

end HeaderBind
