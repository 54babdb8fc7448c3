import HeaderBind.Binding.Error
import HeaderBind.Binding.Item
import HeaderBind.DepthFirst
/-!
The order of items: every item stands behind the items it depends on, and no item moves unless
another needs it earlier.
-/
namespace HeaderBind.Item

variable {ε : Type}

/-- The other items in the list that the item with the name depends on. -/
def needs (items : List (Item ε)) (name : String) : List String :=
  match items.find? (·.name == name) with
  | some item =>
    item.dependsOn.filter fun other => other != name && items.any (·.name == other)
  | none => []

/-- The items in order; fails at the first item that depends on itself through others. -/
def ordered (items : List (Item ε)) : Except GenerationError (List (Item ε)) :=
  match DepthFirst.order (needs items) (items.map name) with
  | .ok names => .ok (names.filterMap fun name => items.find? (·.name == name))
  | .error cycle => .error (.circular (cycle.getLast?.getD ""))

end HeaderBind.Item
