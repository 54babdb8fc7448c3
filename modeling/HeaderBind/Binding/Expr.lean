/-!
ctypes expressions. The text of an expression is what a generated module says; its names are the
module-level names that the text mentions.
-/
namespace HeaderBind

mutual

inductive Expr where
  /-- The result of a function that has none. -/
  | none
  /-- A number type of ctypes, by its name. -/
  | scalar (ctype : String)
  | voidPointer
  | charPointer
  | wcharPointer
  /-- Bytes of a size and alignment. -/
  | storage (size align : Int)
  | name (n : String)
  | pointer (target : Expr)
  | times (elem : Expr) (count : Int)
  | callback (result : Expr) (params : Exprs)
  deriving DecidableEq

inductive Exprs where
  | nil
  | cons (head : Expr) (tail : Exprs)
  deriving DecidableEq

end

instance : Inhabited Expr := ⟨.none⟩
instance : Inhabited Exprs := ⟨.nil⟩

mutual

def Expr.text : Expr → String
  | .none => "None"
  | .scalar ctype => ctype
  | .voidPointer => "ctypes.c_void_p"
  | .charPointer => "ctypes.c_char_p"
  | .wcharPointer => "ctypes.c_wchar_p"
  | .storage size align => "_opaque(" ++ toString size ++ ", " ++ toString align ++ ")"
  | .name n => n
  | .pointer target => "ctypes.POINTER(" ++ target.text ++ ")"
  | .times elem count => elem.text ++ " * " ++ toString count
  | .callback result params => "ctypes.CFUNCTYPE(" ++ result.text ++ params.text ++ ")"

/-- The expressions, a comma before each. -/
def Exprs.text : Exprs → String
  | .nil => ""
  | .cons head tail => ", " ++ head.text ++ tail.text

end

mutual

/-- The names of items that the text mentions. -/
def Expr.names : Expr → List String
  | .name n => [n]
  | .pointer target => target.names
  | .times elem _ => elem.names
  | .callback result params => result.names ++ params.names
  | _ => []

def Exprs.names : Exprs → List String
  | .nil => []
  | .cons head tail => head.names ++ tail.names

end

end HeaderBind
