import HeaderBind.Text.Quoted
/-!
A small tree of files below a working directory. Directories are there for the sake of the files in
them. Above the working directory there are other directories, and nothing is known of what they
hold.
-/
namespace HeaderBind

/-- A path taken apart at its slashes. -/
abbrev PathParts := List (List Char)

namespace PathParts

/-- The text between slashes, piece by piece. -/
def split : List Char → PathParts
  | [] => [[]]
  | c :: rest =>
    if c = '/' then [] :: split rest
    else match split rest with
      | [] => [[c]]
      | piece :: more => (c :: piece) :: more

/-- Pieces that lead nowhere else: nothing between two slashes, or a single point. -/
def isIdle (piece : List Char) : Bool := piece = [] || piece = ['.']

end PathParts

/-- The paths of the files, taken apart. -/
structure FileTree where
  files : List PathParts
  deriving DecidableEq

/-- Why a path cannot be opened for writing. -/
inductive OpenFault where
  | missing | notDirectory | isDirectory | nameTooLong
  /-- Any other refusal of the system, in its own words. -/
  | other (reason : String)
  deriving DecidableEq, Repr

def OpenFault.describe (fault : OpenFault) (path : String) : String :=
  (match fault with
    | missing => "[Errno 2] No such file or directory: "
    | notDirectory => "[Errno 20] Not a directory: "
    | isDirectory => "[Errno 21] Is a directory: "
    | nameTooLong => "[Errno 36] File name too long: "
    | other reason => reason ++ ": ") ++ Text.quoted path

namespace FileTree

inductive Kind where
  | file | directory
  deriving DecidableEq, Repr

/-- A place: so many directories above the working directory, and from there down along the names. -/
structure Place where
  above : Nat
  names : PathParts
  deriving DecidableEq

namespace Place

/-- The working directory. -/
def start : Place := ⟨0, []⟩

/-- The directory that the place is in. -/
def parent (p : Place) : Place :=
  if p.names.isEmpty then { p with above := p.above + 1 } else { p with names := p.names.dropLast }

def child (p : Place) (name : List Char) : Place := { p with names := p.names ++ [name] }

end Place

/-- Bytes that a name may have, and that a path may have. -/
def nameLimit : Nat := 255

def pathLimit : Nat := 4095

def ofPaths (paths : List String) : FileTree :=
  ⟨paths.map fun path => (PathParts.split path.toList).filter (!PathParts.isIdle ·)⟩

/-- What is at a place. -/
def kindAt (t : FileTree) (p : Place) : Option Kind :=
  if p.names.isEmpty then some .directory
  else if p.above ≠ 0 then none
  else if t.files.contains p.names then some .file
  else if t.files.any fun f => p.names.isPrefixOf f then some .directory
  else none

/-- Where one piece of a path leads from a place, which has to be a directory. -/
def step (t : FileTree) (here : Place) (piece : List Char) : Except OpenFault Place :=
  match t.kindAt here with
  | none => .error .missing
  | some .file => .error .notDirectory
  | some .directory =>
    if PathParts.isIdle piece then .ok here
    else if piece = ['.', '.'] then .ok here.parent
    else if nameLimit < (String.ofList piece).utf8ByteSize then .error .nameTooLong
    else .ok (here.child piece)

/-- Where the pieces lead; all but the last must lead to directories. -/
def walk (t : FileTree) (here : Place) (pieces : PathParts) : Except OpenFault Place :=
  pieces.foldlM t.step here

/-- A path cut into the pieces up to its last name, and whether slashes stand behind that. -/
def cut (path : String) : PathParts × Bool :=
  let pieces := PathParts.split path.toList
  let named := (pieces.reverse.dropWhile List.isEmpty).reverse
  (named, named.length < pieces.length)

/-- Why a path leads nowhere, whatever the tree holds. -/
def pathFault? (path : String) : Option OpenFault :=
  if path.isEmpty || path.startsWith "/" then some .missing
  else if pathLimit < path.utf8ByteSize then some .nameTooLong
  else none

/-- Where a path leads. -/
def follow (t : FileTree) (path : String) : Except OpenFault Place :=
  match pathFault? path with
  | some fault => .error fault
  | none => t.walk .start (cut path).1

/-- What is at a path; a slash behind a file's name hides the file. -/
def kind? (t : FileTree) (path : String) : Option Kind :=
  match t.follow path with
  | .ok place =>
    match t.kindAt place with
    | some .file => if (cut path).2 then none else some .file
    | other => other
  | .error _ => none

def exists? (t : FileTree) (path : String) : Bool := (t.kind? path).isSome

def isFile (t : FileTree) (path : String) : Bool := t.kind? path == some .file

def isDirectory (t : FileTree) (path : String) : Bool := t.kind? path == some .directory

/-- The names in a directory. -/
def names (t : FileTree) (directory : Place) : List (List Char) :=
  if directory.above ≠ 0 then []
  else (t.files.filterMap fun f =>
    if directory.names.isPrefixOf f then (f.drop directory.names.length).head? else none).eraseDups

/-- What stands in the way of writing a file at the path. The name itself is looked at last, and not
at all when a slash behind it asks for a directory. -/
def openFault? (t : FileTree) (path : String) : Option OpenFault :=
  match pathFault? path with
  | some fault => some fault
  | none =>
    let (named, slash) := cut path
    match t.walk .start named.dropLast with
    | .error fault => some fault
    | .ok directory =>
      match t.step directory (if slash then [] else named.getLast?.getD []) with
      | .error fault => some fault
      | .ok place =>
        if slash || t.kindAt place == some .directory then some .isDirectory else none

end FileTree

end HeaderBind
