/-!
Double-quoted literals: a backslash stands before every backslash and every double quote of the
text, and nothing else changes.
-/
namespace HeaderBind.Text.DoubleQuoted

/-- The inside of the literal. -/
def encode : List Char → List Char
  | [] => []
  | c :: rest => if c = '\\' || c = '"' then '\\' :: c :: encode rest else c :: encode rest

/-- Reads the inside of a literal back; refuses a quote that no backslash precedes and a backslash
that escapes neither of the two. -/
def decode : List Char → Option (List Char)
  | [] => some []
  | '\\' :: c :: rest => if c = '\\' || c = '"' then (decode rest).map (c :: ·) else none
  | c :: rest => if c = '\\' || c = '"' then none else (decode rest).map (c :: ·)

/-- The literal over characters, its two quotes included. -/
def literal (s : List Char) : List Char :=
  '"' :: encode s ++ ['"']

end DoubleQuoted

/-- The double-quoted literal of a text. -/
def doubleQuoted (s : String) : String :=
  String.ofList (DoubleQuoted.literal s.toList)

end HeaderBind.Text
