import HeaderBind.FileTree.Wildcard
import HeaderBind.Journal
/-!
Finding the library that parses C. It is loaded at most once; until then it can be told which file or
which directory to load from.
-/
namespace HeaderBind

namespace Library

/-- A request to the loader. -/
inductive Request where
  | useFile (path : String)
  | useDirectory (path : String)
  | load (target : String)
  deriving DecidableEq

/-- What the loader knows, and what it was asked and told so far. -/
structure Loader where
  loaded : Bool
  file : Option String
  directory : Option String
  requests : List Request
  events : List Event
  deriving DecidableEq

/-- A loader that was not asked anything yet. -/
def Loader.start (loaded : Bool) (file : Option String) : Loader := ⟨loaded, file, none, [], []⟩

/-- What is loaded when the loader is told nothing. -/
def usualTarget : String := "<default>"

def nonempty (s : Option String) : Option String := s.filter (!·.isEmpty)

namespace Loader

/-- What would be loaded now. -/
def target (l : Loader) : String :=
  (nonempty l.file <|> nonempty l.directory).getD usualTarget

/-- The name under which the loaded library is reported. -/
def name (l : Loader) : String := (nonempty l.file).getD usualTarget

def useFile (l : Loader) (path : String) : Loader :=
  { l with file := some path, requests := l.requests ++ [.useFile path] }

def useDirectory (l : Loader) (path : String) : Loader :=
  { l with directory := some path, requests := l.requests ++ [.useDirectory path] }

/-- Loads the library unless it is loaded; `loads` tells which targets can be loaded. -/
def load (loads : String → Bool) (l : Loader) : Loader :=
  if l.loaded then l
  else
    let asked : Loader := { l with requests := l.requests ++ [.load l.target] }
    if loads l.target then { asked with loaded := true }
    else { asked with
      events := l.events ++ [.trace .debug Reporter.toolchain
        ("libclang did not load: cannot load " ++ l.target)] }

end Loader

/-- What a search for the library depends on. -/
structure Surroundings where
  /-- The file that the environment names. -/
  file : Option String
  /-- The directory that the environment names. -/
  directory : Option String
  /-- Files to try at last, perhaps with wildcards. -/
  candidates : List String
  tree : FileTree
  loads : String → Bool

/-- The files that a candidate stands for. -/
def candidateFiles (t : FileTree) (candidate : String) : List String :=
  if Wildcard.isPattern candidate.toList then Wildcard.paths t candidate
  else if t.isFile candidate then [candidate]
  else []

/-- Tries the files in order. -/
def tryFiles (loads : String → Bool) : List String → Loader → Option String × Loader
  | [], l => (none, l)
  | file :: rest, l =>
    let l := (l.useFile file).load loads
    if l.loaded then (some file, l) else tryFiles loads rest l

/-- Loads a library: the file that the environment names if it is there, else its directory, else
the usual one, else the first candidate that loads. A named file or directory that is there is the
only one tried. -/
def find (s : Surroundings) (l : Loader) : Option String × Loader :=
  if l.loaded then (some l.name, l)
  else match (nonempty s.file).filter s.tree.exists? with
    | some file =>
      let l := (l.useFile file).load s.loads
      (if l.loaded then some file else none, l)
    | none =>
      match (nonempty s.directory).filter s.tree.isDirectory with
      | some directory =>
        let l := (l.useDirectory directory).load s.loads
        (if l.loaded then some directory else none, l)
      | none =>
        let l := l.load s.loads
        if l.loaded then (some l.name, l)
        else tryFiles s.loads (s.candidates.flatMap (candidateFiles s.tree)) l

/-- Loads the library from a file or directory that is known; without one, the usual library. -/
def ensure (tree : FileTree) (loads : String → Bool) (path : Option String) (l : Loader) : Loader :=
  match nonempty path with
  | some path =>
    if l.loaded then l
    else if tree.isDirectory path then (l.useDirectory path).load loads
    else if tree.isFile path then (l.useFile path).load loads
    else l.load loads
  | none => l.load loads

end Library

end HeaderBind
