import HeaderBind.Cursor.Query
import HeaderBind.Text.Quoted
/-! The cursor tree as indented lines, for a reader who wants to know what the parser saw. -/
namespace HeaderBind.CursorTable

variable (t : CursorTable)

/-- One cursor at a depth: kind, name, place and type. -/
def dumpLine (depth : Nat) (c : CursorId) : String :=
  let cursor := t.cursor c
  let type := match cursor.type with
    | some type => (t.type type).name.getD ""
    | none => ""
  String.ofList (List.replicate (2 * depth) ' ') ++ cursor.kind.name ++ " " ++
    Text.quoted cursor.name ++ " <" ++ cursor.place ++ "> type=" ++ Text.quoted type

/-- The lines of a cursor and all below it. No branch of a tree is longer than the table. -/
def dumpLines : Nat → Nat → CursorId → List String
  | 0, _, _ => []
  | bound + 1, depth, c =>
    t.dumpLine depth c :: (t.cursor c).children.flatMap (dumpLines bound (depth + 1))

/-- The dump of the top cursors that `keep` accepts. -/
def dump (keep : Cursor → Bool) : String :=
  let lines := (t.tops.filter fun c => keep (t.cursor c)).flatMap
    (t.dumpLines (t.cursors.size + 1) 0)
  "\n".intercalate lines ++ (if lines.isEmpty then "" else "\n")

end HeaderBind.CursorTable
