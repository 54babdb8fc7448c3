import HeaderBind.Text.Blank
import HeaderBind.Text.Search
/-!
The list of system include directories in what a compiler tells about itself: the lines between a
line that holds the opening words and a line that starts with the closing words.
-/
namespace HeaderBind.SearchList

def opening : List Char := "#include <...> search starts here:".toList

def closing : List Char := "End of search list.".toList

/-- What marks a directory of frameworks. -/
def frameworkMark : List Char := "(framework directory)".toList

def isOpening (line : List Char) : Bool := Text.occursIn opening line

def isClosing (line : List Char) : Bool := closing.isPrefixOf line

/-- The directory on a line, which is empty for an empty line. -/
def directory (line : List Char) : List Char :=
  let path := Text.trim line
  if frameworkMark.isSuffixOf path then
    Text.trim (path.take (path.length - frameworkMark.length))
  else path

/-- The directories on the lines after an opening line. -/
def inside : List (List Char) → List (List Char)
  | [] => []
  | line :: rest =>
    if isOpening line then inside rest
    else if isClosing line then []
    else if (directory line).isEmpty then inside rest
    else directory line :: inside rest

/-- The directories that the lines list. -/
def ofLines : List (List Char) → List (List Char)
  | [] => []
  | line :: rest => if isOpening line then inside rest else ofLines rest

/-- The directories that a compiler's text lists, in order. -/
def ofText (text : String) : List String :=
  (ofLines (Text.lines text.toList)).map String.ofList

end HeaderBind.SearchList
