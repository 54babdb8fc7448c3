import HeaderBind.Text.Quoted
/-! Values in a run file, and how messages spell them. -/
namespace HeaderBind.RunFile

mutual

/-- A value; a number that is not whole is kept in its shortest decimal form. Dates, binary data and sets are
no values here, and the keys of a mapping are texts: files with anything else in them are not looked at. -/
inductive Value where
  | null
  | bool (b : Bool)
  | int (n : Int)
  | real (decimal : String)
  | text (s : String)
  | list (vs : Values)
  | map (es : Entries)
  deriving DecidableEq

inductive Values where
  | nil
  | cons (head : Value) (tail : Values)
  deriving DecidableEq

/-- The entries of a mapping in the order written. -/
inductive Entries where
  | nil
  | cons (key : String) (value : Value) (rest : Entries)
  deriving DecidableEq

end

instance : Inhabited Value := ⟨.null⟩
instance : Inhabited Values := ⟨.nil⟩
instance : Inhabited Entries := ⟨.nil⟩

namespace Values

def toList : Values → List Value
  | nil => []
  | cons head tail => head :: tail.toList

def ofList : List Value → Values
  | [] => nil
  | head :: tail => cons head (ofList tail)

end Values

namespace Entries

def toList : Entries → List (String × Value)
  | nil => []
  | cons key value rest => (key, value) :: rest.toList

def ofList : List (String × Value) → Entries
  | [] => nil
  | (key, value) :: rest => cons key value (ofList rest)

end Entries

mutual

/-- The form in which a message quotes the value. -/
def Value.quoted : Value → String
  | .null => "None"
  | .bool b => if b then "True" else "False"
  | .int n => toString n
  | .real decimal => decimal
  | .text s => Text.quoted s
  | .list vs => "[" ++ vs.quoted ++ "]"
  | .map es => "\x7b" ++ es.quoted ++ "\x7d"

/-- The quoted forms with commas between them. -/
def Values.quoted : Values → String
  | .nil => ""
  | .cons head .nil => head.quoted
  | .cons head (.cons next tail) => head.quoted ++ ", " ++ (Values.cons next tail).quoted

def Entries.quoted : Entries → String
  | .nil => ""
  | .cons key value .nil => Text.quoted key ++ ": " ++ value.quoted
  | .cons key value (.cons next other rest) =>
    Text.quoted key ++ ": " ++ value.quoted ++ ", " ++ (Entries.cons next other rest).quoted

end

namespace Value

/-- The value by itself: a text without quotes, anything else as it is quoted. -/
def plain : Value → String
  | text s => s
  | v => v.quoted

/-- The word for the kind of value. -/
def kindWord : Value → String
  | null => "NoneType"
  | bool _ => "bool"
  | int _ => "int"
  | real _ => "float"
  | text _ => "str"
  | list _ => "list"
  | map _ => "dict"

def text? : Value → Option String
  | text s => some s
  | _ => none

end Value

/-- The texts of a list that holds nothing else. -/
def Values.texts? (vs : Values) : Option (List String) :=
  vs.toList.mapM Value.text?

def Entries.get? (es : Entries) (key : String) : Option Value :=
  es.toList.lookup key

end HeaderBind.RunFile
