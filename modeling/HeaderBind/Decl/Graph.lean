import HeaderBind.Decl.Error
/-!
The declaration graph: declarations in the order they were first added, one to a key. Once frozen it
takes no further declaration. `canonical` looks through typedefs and ends because it opens every
declaration at most once.
-/
namespace HeaderBind

structure DeclGraph where
  decls : List Decl
  frozen : Bool
  keys_nodup : (decls.map Decl.key).Nodup

namespace DeclGraph

def empty : DeclGraph := ⟨[], false, List.nodup_nil⟩

instance : Inhabited DeclGraph := ⟨empty⟩

def keys (g : DeclGraph) : List String := g.decls.map Decl.key

def size (g : DeclGraph) : Nat := g.decls.length

def get? (g : DeclGraph) (key : String) : Option Decl :=
  g.decls.find? (·.key == key)

def contains (g : DeclGraph) (key : String) : Bool :=
  g.decls.any (·.key == key)

theorem contains_iff {g : DeclGraph} {key : String} : g.contains key = true ↔ key ∈ g.keys := by
  simp [contains, keys]

/-- The declaration with the key, which must be there. -/
def lookup (g : DeclGraph) (key : String) : Except ResolutionError Decl :=
  match g.get? key with
  | some d => .ok d
  | none => .error (.unresolved key)

/-- Puts a declaration whose key is not there yet behind all others. -/
def push (g : DeclGraph) (d : Decl) (fresh : d.key ∉ g.keys) : DeclGraph where
  decls := g.decls ++ [d]
  frozen := g.frozen
  keys_nodup := by
    rw [List.map_append, List.nodup_append]
    refine ⟨g.keys_nodup, by simp, ?_⟩
    intro a ha b hb hab
    simp only [List.map_cons, List.map_nil, List.mem_singleton] at hb
    exact fresh (hb ▸ hab ▸ ha)

/-- Adds a declaration unless its key is taken, and tells which declaration has the key now. -/
def add (g : DeclGraph) (d : Decl) : Except ResolutionError (Decl × DeclGraph) :=
  if g.frozen then .error (.frozen d.key)
  else if taken : d.key ∈ g.keys then .ok ((g.get? d.key).getD d, g)
  else .ok (d, g.push d taken)

/-- Changes one declaration in place; its key stays. -/
def modify (g : DeclGraph) (key : String) (f : Decl → Decl)
    (keeps : ∀ d, (f d).key = d.key) : DeclGraph where
  decls := g.decls.map fun d => if d.key == key then f d else d
  frozen := g.frozen
  keys_nodup := by
    have same : (g.decls.map fun d => if d.key == key then f d else d).map Decl.key
        = g.decls.map Decl.key := by
      rw [List.map_map]
      apply List.map_congr_left
      intro d _
      simp only [Function.comp]
      split
      · exact keeps d
      · rfl
    rw [same]
    exact g.keys_nodup

/-- Gives the declaration with the key another body. -/
def setBody (g : DeclGraph) (key : String) (body : Decl.Body) : DeclGraph :=
  g.modify key (fun d => { d with body := body }) fun _ => rfl

/-- Marks the declaration with the key as bound. -/
def retain (g : DeclGraph) (key : String) : DeclGraph :=
  g.modify key (fun d => { d with retained := true }) fun _ => rfl

/-- The type behind typedefs, where `unseen` are the keys not opened so far. -/
def canonicalFrom (g : DeclGraph) (unseen : List String) :
    CType → Except ResolutionError CType
  | .named key =>
    match g.get? key with
    | none => .error (.unresolved key)
    | some d =>
      match d.body with
      | .typedef target =>
        if key ∈ unseen then g.canonicalFrom (unseen.erase key) target
        else .error (.typedefCycle d.key d.name)
      | _ => .ok (.named key)
  | type => .ok type
termination_by unseen.length
decreasing_by
  rename_i h
  rw [List.length_erase_of_mem h]
  have := List.length_pos_of_mem h
  omega

/-- The type behind typedefs: the first that is not a typedef's name. -/
def canonical (g : DeclGraph) (type : CType) : Except ResolutionError CType :=
  g.canonicalFrom g.keys type

end DeclGraph

end HeaderBind
