import HeaderBind.Decl
/-! Why a set of declarations cannot be used, with the place where this was noticed. -/
namespace HeaderBind

/-- What a key is declared as for the second time. -/
inductive Redeclared where
  | record | enum | typedef
  deriving DecidableEq, Repr

def Redeclared.phrase : Redeclared → String
  | record => "a record"
  | enum => "an enum"
  | typedef => "a typedef"

inductive ResolutionError where
  | frozen (key : String)
  | unresolved (key : String)
  | typedefCycle (key name : String)
  | dangling (owner : Decl) (key : String)
  | embeddingCycle (owner : Decl) (names : List String)
  | unknownType (place spelling : String)
  | conflicting (place : String) (previous : Decl)
  | redeclared (place : String) (previous : Decl) (as : Redeclared)
  /-- The description of a type leads back into itself without passing a declaration. -/
  | endless (place : String)
  deriving DecidableEq

namespace ResolutionError

/-- Where the fault was noticed. -/
def place : ResolutionError → String
  | frozen key | unresolved key | typedefCycle key _ => key
  | dangling owner _ | embeddingCycle owner _ => owner.describe
  | unknownType place _ | conflicting place _ | redeclared place _ _ | endless place => place

/-- What the fault is. -/
def detail : ResolutionError → String
  | frozen _ => "declaration graph is frozen"
  | unresolved _ => "unresolved named reference"
  | typedefCycle _ name => "typedef cycle through `" ++ name ++ "`"
  | dangling _ key => "dangling reference to `" ++ key ++ "`"
  | embeddingCycle _ names => "embedding cycle " ++ " -> ".intercalate names
  | unknownType _ spelling => "unsupported type `" ++ spelling ++ "`"
  | conflicting _ previous => "conflicting redeclaration of " ++ previous.describe
  | redeclared _ previous as => previous.describe ++ " redeclared as " ++ as.phrase
  | endless _ => "description of a type never ends"

def message (e : ResolutionError) : String := e.place ++ ": " ++ e.detail

end ResolutionError

end HeaderBind
