/-!
Sheets of lines. A sheet is written from top to bottom; chunks on it stand apart by two empty lines
when one of two neighbours is a block, and directly below each other otherwise.
-/
namespace HeaderBind

/-- `afterBlock` tells whether the chunk written last is a block. -/
structure Sheet where
  lines : List String
  indent : Int
  afterBlock : Bool
  deriving DecidableEq, Repr

/-- A line at a depth of indentation. -/
structure SheetLine where
  depth : Nat
  text : String
  deriving DecidableEq, Repr

/-- Lines that belong together. -/
structure Chunk where
  block : Bool
  lines : List SheetLine
  deriving DecidableEq, Repr

namespace Sheet

def blank : Sheet := ⟨[], 0, false⟩

/-- Four blanks for each step of indentation; no text, no blanks. -/
def indented (depth : Int) (text : String) : String :=
  if text.isEmpty then ""
  else String.ofList (List.replicate (4 * depth.toNat) ' ') ++ text

/-- Writes a line at the current indentation. -/
def line (s : Sheet) (text : String) : Sheet :=
  { s with lines := s.lines ++ [indented s.indent text] }

def shift (s : Sheet) (steps : Int) : Sheet :=
  { s with indent := s.indent + steps }

/-- Starts a chunk: sets it apart from what is above it where it has to be. -/
def start (s : Sheet) (block : Bool) : Sheet :=
  let apart := !s.lines.isEmpty && (block || s.afterBlock)
  { s with lines := if apart then s.lines ++ ["", ""] else s.lines, afterBlock := block }

/-- Writes a whole chunk below the others. -/
def put (s : Sheet) (c : Chunk) : Sheet :=
  c.lines.foldl (fun s l => (s.shift l.depth).line l.text |>.shift (-l.depth)) (s.start c.block)

/-- The sheet without the empty lines at its end. -/
def trimmed (s : Sheet) : Sheet :=
  { s with lines := (s.lines.reverse.dropWhile String.isEmpty).reverse }

/-- The text of the sheet; it ends with one line end. -/
def text (s : Sheet) : String :=
  "\n".intercalate s.trimmed.lines ++ "\n"

/-- The sheet with the chunks on it. -/
def ofChunks (cs : List Chunk) : Sheet := cs.foldl put blank

end Sheet

end HeaderBind
