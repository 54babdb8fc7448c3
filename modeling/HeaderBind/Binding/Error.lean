import HeaderBind.Decl.Error
/-! Why no module can be made from a graph of declarations. -/
namespace HeaderBind

inductive GenerationError where
  | notType (d : Decl)
  | circular (name : String)
  | collision (name first second : String)
  /-- The graph was not whole. -/
  | unresolved (e : ResolutionError)
  /-- A typedef that is not bound holds itself, so no expression for it ends. This is no failure that
  anything reports: it stands where writing the expression would not come to an end. -/
  | endless (key : String)
  deriving DecidableEq

def GenerationError.message : GenerationError → String
  | notType d => d.describe ++ " cannot be used as a type"
  | circular name => "circular definition through `" ++ name ++ "`"
  | collision name first second =>
    "name `" ++ name ++ "` is emitted for both " ++ first ++ " and " ++ second
  | unresolved e => e.message
  | endless key => "expression for `" ++ key ++ "` never ends"

end HeaderBind
