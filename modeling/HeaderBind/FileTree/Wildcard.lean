import HeaderBind.FileTree
/-!
File names with wildcards. A star stands for any text, a question mark for one character, and brackets
for one character in a set; a bracket that is never closed stands for itself. Each piece of a path
is matched by itself, and hidden names only by pieces that start with a dot.
-/
namespace HeaderBind.Wildcard

inductive Token where
  | star
  | one
  | literal (c : Char)
  /-- A character that is in one of the ranges, or in none of them. -/
  | range (negated : Bool) (ranges : List (Char × Char))
  deriving DecidableEq

/-- Whether the text has wildcards. -/
def isPattern (s : List Char) : Bool := s.any fun c => c = '*' || c = '?' || c = '['

/-- The ranges between brackets; a single character is a range of one. -/
def ranges : List Char → List (Char × Char)
  | low :: '-' :: high :: rest => (low, high) :: ranges rest
  | c :: rest => (c, c) :: ranges rest
  | [] => []

/-- The inside of a bracket and what follows it; a closing bracket that comes first is inside. -/
def bracket? (s : List Char) : Option (List Char × List Char) :=
  let (lead, rest) := match s with
    | '!' :: ']' :: rest => (['!', ']'], rest)
    | '!' :: rest => (['!'], rest)
    | ']' :: rest => ([']'], rest)
    | rest => ([], rest)
  match rest.dropWhile (· != ']') with
  | ']' :: after => some (lead ++ rest.takeWhile (· != ']'), after)
  | _ => none

def setToken (inside : List Char) : Token :=
  match inside with
  | '!' :: members => .range true (ranges members)
  | members => .range false (ranges members)

/-- The tokens of a pattern of at most `bound` characters. -/
def tokensUpTo : Nat → List Char → List Token
  | 0, _ | _, [] => []
  | bound + 1, '*' :: rest => .star :: tokensUpTo bound rest
  | bound + 1, '?' :: rest => .one :: tokensUpTo bound rest
  | bound + 1, '[' :: rest =>
    match bracket? rest with
    | some (inside, after) => setToken inside :: tokensUpTo bound after
    | none => .literal '[' :: tokensUpTo bound rest
  | bound + 1, c :: rest => .literal c :: tokensUpTo bound rest

def tokens (pattern : List Char) : List Token := tokensUpTo pattern.length pattern

/-- Whether a character fits a token that stands for one. -/
def Token.fits (c : Char) : Token → Bool
  | star => false
  | one => true
  | literal d => c = d
  | range negated ranges => (ranges.any fun (low, high) => low ≤ c && c ≤ high) != negated

/-- Whether `rest` accepts some end of the text. -/
def someEnd (rest : List Char → Bool) : List Char → Bool
  | [] => rest []
  | c :: s => rest (c :: s) || someEnd rest s

/-- Whether the tokens stand for the whole text. -/
def accepts : List Token → List Char → Bool
  | [], s => s.isEmpty
  | .star :: ts, s => someEnd (accepts ts) s
  | t :: ts, s =>
    match s with
    | c :: s => t.fits c && accepts ts s
    | [] => false

def isHidden (name : List Char) : Bool := name.head? = some '.'

/-- Whether a file's name matches one piece of a pattern. -/
def matchesName (piece name : List Char) : Bool :=
  (isHidden piece || !isHidden name) && accepts (tokens piece) name

/-- A name in a directory; no directory is the working directory. -/
def inside (directory name : List Char) : List Char :=
  if directory.isEmpty then name
  else if directory.getLast? = some '/' then directory ++ name
  else directory ++ '/' :: name

/-- The directory before the first piece with wildcards, as the pattern spells it, and the pieces
from there on. Among those, slashes that stand together count once, and slashes at the end count as
one empty piece. -/
def cut (pattern : List Char) : List Char × PathParts :=
  let pieces := PathParts.split pattern
  let plain := (pieces.takeWhile (!isPattern ·)).reverse.dropWhile List.isEmpty
  let wild := pieces.dropWhile (!isPattern ·)
  (['/'].intercalate plain.reverse,
    wild.filter (!·.isEmpty) ++ if wild.getLast? = some [] then [[]] else [])

/-- The paths in a directory that a piece with wildcards matches; directories only unless the piece
is the last. -/
def matching (t : FileTree) (last : Bool) (directory piece : List Char) : PathParts :=
  match if directory.isEmpty then .ok .start else t.follow (String.ofList directory) with
  | .error _ => []
  | .ok place =>
    let names := (t.names place).filter (matchesName piece)
    let kept := if last then names
      else names.filter fun name => t.kindAt (place.child name) == some .directory
    kept.map (inside directory)

/-- The paths in a directory that one piece leads to. A piece without wildcards leads to what it
names, and an empty piece to the directory itself. -/
def step (t : FileTree) (last : Bool) (piece directory : List Char) : PathParts :=
  if isPattern piece then matching t last directory piece
  else
    let path := inside directory piece
    if t.exists? (String.ofList path) then [path] else []

/-- The paths that the pieces of a pattern lead to, from some directories on. -/
def follow (t : FileTree) : PathParts → PathParts → PathParts
  | [], directories => directories
  | piece :: rest, directories => follow t rest (directories.flatMap (step t rest.isEmpty piece))

/-- The paths that match a pattern, greatest first. -/
def paths (t : FileTree) (pattern : String) : List String :=
  let (directory, pieces) := cut pattern.toList
  let found := if pattern.startsWith "/" then [] else follow t pieces [directory]
  (found.map String.ofList).mergeSort fun a b => !(a < b)

end HeaderBind.Wildcard
