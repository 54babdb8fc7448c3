import HeaderBind.Error
import HeaderBind.Journal
/-! Handing over the text of a module, to a stream that is open or to a file of its own. -/
namespace HeaderBind.Output

/-- What a stream holds after the text was written to it, unless something is wrong with it. -/
def toStream (fault : Option WriteFault) (text : String) : Except WriteFault String :=
  match fault with
  | some fault => .error fault
  | none => .ok text

/-- What a file holds after the text was written to it, and what is told. -/
def toFile (tree : FileTree) (path text : String) :
    Except ConfigurationError String × List Event :=
  match tree.openFault? path with
  | some fault => (.error (.unopenable path fault), [])
  | none => (.ok text, [.trace .info Reporter.writer ("Wrote " ++ path)])

end HeaderBind.Output
