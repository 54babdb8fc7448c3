import HeaderBind.Binding.Item
/-!
Names in a generated module: which a declaration may have, which the module keeps for itself, and how
a library's name becomes that of its link group.
-/
namespace HeaderBind.Name

/-- The keywords of Python. -/
def keywords : List String :=
  ["False", "None", "True", "and", "as", "assert", "async", "await", "break", "class", "continue",
    "def", "del", "elif", "else", "except", "finally", "for", "from", "global", "if", "import", "in",
    "is", "lambda", "nonlocal", "not", "or", "pass", "raise", "return", "try", "while", "with",
    "yield"]

/-- The name something is bound under: a keyword gets an underscore behind it. -/
def bound (name : String) : String :=
  if name ∈ keywords then name ++ "_" else name

/-- Names that the module's own first part defines. -/
def reserved : List String :=
  ["ctypes", "enum", "warnings", "_load_library", "_LinkGroup", "_extern", "_global", "_Copyable",
    "_Debuggable", "_check_layout", "_opaque", "_opaque_types", "_OPAQUE_UNITS"]

/-- Attributes that every link group has. -/
def groupMembers : List String :=
  ["_handle", "_library_", "_kind_", "_prefix_", "_dll_"]

/-- Names that an enumeration cannot have as members. -/
def isReservedMember (name : String) : Bool :=
  match name.toList with
  | ['m', 'r', 'o'] => true
  | '_' :: '_' :: _ => true
  | '_' :: _ :: rest => rest.getLast? == some '_'
  | _ => false

/-- A library's name as part of an identifier. -/
def identifierPart (library : String) : String :=
  String.ofList (library.toList.map fun c =>
    if c.isAlphanum || c = '_' then c else '_')

/-- The name of the link group for a library, without its kind. -/
def groupBase (link : Link) : String := "lib_" ++ identifierPart (link.1.getD "")

/-- The names of the link groups for the links. Links whose names would be equal get their kind
behind them. -/
def groups (links : List Link) : List String :=
  let bases := links.map groupBase
  links.map fun link =>
    let base := groupBase link
    if 1 < bases.count base then base ++ "_" ++ link.2.word else base

end HeaderBind.Name
