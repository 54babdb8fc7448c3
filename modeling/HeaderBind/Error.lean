import HeaderBind.Binding.Error
import HeaderBind.FileTree
import HeaderBind.RunFile
/-! Why a run cannot start, and why it cannot hand over what it made. -/
namespace HeaderBind

inductive ConfigurationError where
  | noLibrary
  | unknownEnumOverride (name : String)
  | unopenable (path : String) (fault : OpenFault)
  | runFile (p : RunFile.Problem)
  deriving DecidableEq

def ConfigurationError.message : ConfigurationError → String
  | noLibrary => "No libclang found, is it installed?"
  | unknownEnumOverride name =>
    "unknown enum override `" ++ name ++ "` (expected one of " ++
      ", ".intercalate (enumOverrides.map (·.1)) ++ ")"
  | unopenable path fault => "cannot open output `" ++ path ++ "`: " ++ fault.describe path
  | runFile p => p.message

/-- What keeps an open stream from taking text. -/
inductive WriteFault where
  | closed | brokenPipe
  /-- Any other refusal of the system, in its own words. -/
  | other (reason : String)
  deriving DecidableEq, Repr

def WriteFault.reason : WriteFault → String
  | closed => "I/O operation on closed file"
  | brokenPipe => "[Errno 32] Broken pipe"
  | other reason => reason

def WriteFault.message (fault : WriteFault) : String := "could not write bindings: " ++ fault.reason

end HeaderBind
