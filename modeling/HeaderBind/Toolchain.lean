import HeaderBind.Error
import HeaderBind.Toolchain.Compiler
import HeaderBind.Toolchain.Library
/-!
The toolchain: a C parser that was found, and the system include directories to hand to it.
-/
namespace HeaderBind

structure Toolchain where
  library : Option String
  searchPaths : List String
  deriving DecidableEq

namespace Toolchain

/-- The arguments that make the parser look into the system directories after all others. -/
def arguments (t : Toolchain) : List String :=
  t.searchPaths.flatMap fun directory => ["-idirafter", directory]

/-- Tells which library was found. -/
def announcement (library : String) : Event :=
  .trace .info Reporter.toolchain ("Using libclang from " ++ library)

/-- What came of looking for a toolchain. -/
structure Located where
  outcome : Except ConfigurationError Toolchain
  loader : Library.Loader
  ran : List (List String)
  events : List Event

/-- Finds the library, then asks the compilers. -/
def locate (s : Library.Surroundings) (run : String → Compiler.Run) (compilers : List String)
    (l : Library.Loader) : Located :=
  match Library.find s l with
  | (none, l) => ⟨.error .noLibrary, l, [], l.events⟩
  | (some library, l) =>
    let survey := Compiler.survey run compilers
    ⟨.ok ⟨some library, survey.directories⟩, l, survey.ran,
      l.events ++ announcement library :: survey.events⟩

/-- Makes sure that the library is loaded. -/
def ensureLoaded (tree : FileTree) (loads : String → Bool) (path : Option String)
    (l : Library.Loader) : Except ConfigurationError Unit × Library.Loader :=
  let l := Library.ensure tree loads path l
  (if l.loaded then .ok () else .error .noLibrary, l)

end Toolchain

/-- How a run comes by its toolchain: it looks for one, or it is given one whose library has to load. A
library may be loaded already, and a file may be set to load it from. -/
inductive FrontEnd where
  | sought (s : Library.Surroundings) (run : String → Compiler.Run) (compilers : List String)
      (loaded : Bool) (file : Option String)
  | given (t : Toolchain) (tree : FileTree) (loads : String → Bool) (loaded : Bool)
      (file : Option String)

/-- What comes of it, and what is told meanwhile. -/
def FrontEnd.toolchain : FrontEnd → Except ConfigurationError Toolchain × List Event
  | sought s run compilers loaded file =>
    let found := Toolchain.locate s run compilers (.start loaded file)
    (found.outcome, found.events)
  | given t tree loads loaded file =>
    let (outcome, l) := Toolchain.ensureLoaded tree loads t.library (.start loaded file)
    (outcome.map fun _ => t, l.events)

end HeaderBind
