/-!
The fixed first part of a generated module: a banner, the imports, and the runtime that the bindings
below it rest on.
-/
namespace HeaderBind.Preamble

def banner : String := "# automatically generated by ctbindgen"

def imports : String :=
  "\n".intercalate ["import ctypes", "import ctypes.util", "import enum", "import warnings"]

/-- Opens the library of a link group, or the running process. -/
def loadLibrary : List String := [
  "def _load_library(name, kind):",
  "    if name is None or kind == \"static\":",
  "        return ctypes.CDLL(None)",
  "    path = ctypes.util.find_library(name)",
  "    if path is None and kind == \"framework\":",
  "        path = \"/System/Library/Frameworks/\x7b0\x7d.framework/\x7b0\x7d\".format(name)",
  "    return ctypes.CDLL(path or name)"]

/-- The base class of link groups. -/
def linkGroup : List String := [
  "class _LinkGroup:",
  "    _library_ = None",
  "    _kind_ = \"dynamic\"",
  "    _prefix_ = \"\"",
  "",
  "    @classmethod",
  "    def _handle(cls):",
  "        dll = cls.__dict__.get(\"_dll_\")",
  "        if dll is None:",
  "            dll = _load_library(cls._library_, cls._kind_)",
  "            cls._dll_ = dll",
  "        return dll"]

/-- A function of a link group, looked up when it is first used. -/
def functionMember : List String := [
  "class _extern:",
  "    def __init__(self, symbol, restype, argtypes):",
  "        self.symbol = symbol",
  "        self.restype = restype",
  "        self.argtypes = argtypes",
  "        self.name = symbol",
  "",
  "    def __set_name__(self, owner, name):",
  "        self.name = name",
  "",
  "    def __get__(self, obj, owner):",
  "        fn = getattr(owner._handle(), self.symbol)",
  "        fn.restype = self.restype",
  "        fn.argtypes = self.argtypes",
  "        setattr(owner, self.name, fn)",
  "        return fn"]

/-- An object of a link group; a constant one is read as a copy. -/
def objectMember : List String := [
  "class _global:",
  "    def __init__(self, symbol, ctype, mutable=True):",
  "        self.symbol = symbol",
  "        self.ctype = ctype",
  "        self.mutable = mutable",
  "",
  "    def __get__(self, obj, owner):",
  "        value = self.ctype.in_dll(owner._handle(), self.symbol)",
  "        if self.mutable:",
  "            return value",
  "        return self.ctype.from_buffer_copy(value)"]

def copyable : List String := [
  "class _Copyable:",
  "    __slots__ = ()",
  "",
  "    def __copy__(self):",
  "        return type(self).from_buffer_copy(self)",
  "",
  "    clone = __copy__"]

def debuggable : List String := [
  "class _Debuggable:",
  "    __slots__ = ()",
  "",
  "    def __repr__(self):",
  "        body = \", \".join(",
  "            \"\x7b\x7d=\x7b!r\x7d\".format(f[0], getattr(self, f[0]))",
  "            for f in self._fields_",
  "            if f[0] != \"_padding_\"",
  "        )",
  "        return \"\x7b\x7d(\x7b\x7d)\".format(type(self).__name__, body)"]

def storageTables : List String := [
  "_OPAQUE_UNITS = \x7b1: ctypes.c_uint8, 2: ctypes.c_uint16, 4: ctypes.c_uint32, " ++
    "8: ctypes.c_uint64\x7d",
  "_opaque_types = \x7b\x7d"]

/-- Bytes of a size and alignment, one class to each pair. -/
def storage : List String := [
  "def _opaque(size, align):",
  "    \"\"\"Storage with the size and alignment of a type that has no binding.\"\"\"",
  "    cls = _opaque_types.get((size, align))",
  "    if cls is None:",
  "        unit = _OPAQUE_UNITS.get(align) if size % align == 0 else None",
  "        unit = unit or ctypes.c_ubyte",
  "        cls = type(",
  "            \"_Opaque\x7b\x7d_\x7b\x7d\".format(size, align),",
  "            (ctypes.Structure,),",
  "            \x7b\"_fields_\": [(\"_storage\", unit * (size // ctypes.sizeof(unit)))]\x7d,",
  "        )",
  "        _opaque_types[(size, align)] = cls",
  "    return cls"]

/-- The check that a record has the layout that C gives it. -/
def checkLayout : List String := [
  "def _check_layout(cls, size, align):",
  "    got = (ctypes.sizeof(cls), ctypes.alignment(cls))",
  "    if got != (size, align):",
  "        warnings.warn(",
  "            \"\x7b\x7d: ctypes layout \x7b\x7d/\x7b\x7d differs from C layout \x7b\x7d/\x7b\x7d\".format(",
  "                cls.__name__, got[0], got[1], size, align",
  "            ),",
  "            RuntimeWarning,",
  "        )"]

/-- The definitions that every generated module starts with, two empty lines between them. -/
def runtime : String :=
  "\n\n\n".intercalate <| List.map ("\n".intercalate ·)
    [loadLibrary, linkGroup, functionMember, objectMember, copyable, debuggable, storageTables,
      storage, checkLayout]

/-- The parts in order. -/
def parts : List String := [banner, imports, runtime]

end HeaderBind.Preamble
