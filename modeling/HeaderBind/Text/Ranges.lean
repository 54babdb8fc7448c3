/-! Sets of code points as ranges, both ends included. -/
namespace HeaderBind.Text

/-- Whether some range holds the code point. -/
def inRanges (table : List (Nat × Nat)) (n : Nat) : Bool :=
  table.any fun range => range.1 ≤ n && n ≤ range.2

end HeaderBind.Text
