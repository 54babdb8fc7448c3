/-!
Fresh names: the wanted name when it is free, else the first free one of `name_1`, `name_2`, and so
on. One candidate more than there are taken names is enough, since the candidates all differ.
-/
namespace HeaderBind.Text

/-- The candidate with the number; the wanted name itself has number zero. -/
def nameCandidate (base : String) (n : Nat) : String :=
  if n = 0 then base else base ++ "_" ++ toString n

/-- The first candidate that is not taken. -/
def freshName (taken : List String) (base : String) : String :=
  (((List.range (taken.length + 1)).map (nameCandidate base)).find? (· ∉ taken)).getD base

end HeaderBind.Text
