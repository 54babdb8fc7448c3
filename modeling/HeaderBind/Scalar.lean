/-!
Scalar kinds of C and the ctypes names they are bound to. An integer kind has two names: the one of a
value of that kind, and the one used where ctypes wants an integer (enum storage and bit fields).
-/
namespace HeaderBind

inductive IntKind where
  | bool | char | schar | uchar | short | ushort | int | uint | long | ulong | longlong | ulonglong
  | wchar | char16 | char32
  deriving DecidableEq, Repr, Inhabited

namespace IntKind

def all : List IntKind :=
  [bool, char, schar, uchar, short, ushort, int, uint, long, ulong, longlong, ulonglong,
    wchar, char16, char32]

def name : IntKind → String
  | bool => "BOOL" | char => "CHAR" | schar => "SCHAR" | uchar => "UCHAR" | short => "SHORT"
  | ushort => "USHORT" | int => "INT" | uint => "UINT" | long => "LONG" | ulong => "ULONG"
  | longlong => "LONGLONG" | ulonglong => "ULONGLONG" | wchar => "WCHAR" | char16 => "CHAR16"
  | char32 => "CHAR32"

def ofName? (name : String) : Option IntKind :=
  all.find? (·.name == name)

/-- The ctypes name of a value of this kind. -/
def ctype : IntKind → String
  | bool => "ctypes.c_bool" | char => "ctypes.c_char" | schar => "ctypes.c_byte"
  | uchar => "ctypes.c_ubyte" | short => "ctypes.c_short" | ushort => "ctypes.c_ushort"
  | int => "ctypes.c_int" | uint => "ctypes.c_uint" | long => "ctypes.c_long"
  | ulong => "ctypes.c_ulong" | longlong => "ctypes.c_longlong" | ulonglong => "ctypes.c_ulonglong"
  | wchar => "ctypes.c_wchar" | char16 => "ctypes.c_uint16" | char32 => "ctypes.c_uint32"

def signed : IntKind → Bool
  | char | schar | short | int | long | longlong | wchar => true
  | bool | uchar | ushort | uint | ulong | ulonglong | char16 | char32 => false

/-- The ctypes integer usable as enum storage or as the type of a bit field. -/
def integralCtype : IntKind → String
  | char => "ctypes.c_byte"
  | bool => "ctypes.c_ubyte"
  | wchar => "ctypes.c_int32"
  | kind => kind.ctype

end IntKind

inductive FloatKind where
  | float | double | longdouble
  deriving DecidableEq, Repr, Inhabited

namespace FloatKind

def all : List FloatKind := [float, double, longdouble]

def name : FloatKind → String
  | float => "FLOAT" | double => "DOUBLE" | longdouble => "LONGDOUBLE"

def ofName? (name : String) : Option FloatKind :=
  all.find? (·.name == name)

def ctype : FloatKind → String
  | float => "ctypes.c_float" | double => "ctypes.c_double" | longdouble => "ctypes.c_longdouble"

end FloatKind

/-- The names by which a run overrides the storage of every enum, in alphabetical order. -/
def enumOverrides : List (String × IntKind) :=
  [("schar", .schar), ("sint", .int), ("slong", .long), ("slonglong", .longlong),
    ("sshort", .short), ("uchar", .uchar), ("uint", .uint), ("ulong", .ulong),
    ("ulonglong", .ulonglong), ("ushort", .ushort)]

end HeaderBind
