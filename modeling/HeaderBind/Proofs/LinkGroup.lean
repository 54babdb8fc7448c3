import HeaderBind.Decl.Embedding
import HeaderBind.Proofs.Member
import Mathlib
/-!
# Names inside a link group

The members of a link group are assignments in the body of one class. A name in an assignment means
the member of that name when one stands in front, and a private name is rewritten. Nothing keeps
either from happening, so both statements say exactly which functions and objects go well together.
Modules are evaluated with the equations of `StateT`, which come only with the whole of Mathlib.
-/
namespace HeaderBind

/-- A name that is rewritten inside a class: two underscores in front, and not two behind. -/
def Name.isPrivate (name : String) : Bool :=
  ['_', '_'].isPrefixOf name.toList && !(['_', '_'].isSuffixOf name.toList)

namespace Name

theorem isPrivate_bound (name : String) : isPrivate (bound name) = isPrivate name := by
  unfold bound
  split
  · rename_i keyword
    revert name
    decide
  · rfl

end Name

namespace Item

/-- Whether a name that the member has or mentions is rewritten. -/
def Member.Mangled (m : Member) : Prop :=
  Name.isPrivate m.name = true ∨ ∃ w ∈ m.words, Name.isPrivate w.name = true

namespace LinkGroup

/-- No member mentions a name that a member in front of it has. -/
def Unshadowed (g : LinkGroup Expr) : Prop :=
  g.members.Pairwise fun first second => ∀ w ∈ second.words, w.name ≠ first.name

/-- No member has or mentions a name that is rewritten. -/
def Unmangled (g : LinkGroup Expr) : Prop := ∀ m ∈ g.members, ¬ m.Mangled

end LinkGroup

end Item

namespace Binder

variable {b : Binder}

/-! ## Names that mean an earlier member -/

/-- Whether a member for the first declaration hides what one for the second mentions. -/
def Shadows (b : Binder) (d e : Decl) : Prop := ∃ w, b.Uses e w ∧ w.name = Name.bound d.name

/-- Link groups go without a hidden name exactly when no function or object is bound under a name
that one behind it is written with. -/
theorem groups_unshadowed_iff {items : List (Item Expr)} (succeeds : b.items.1 = .ok items) :
    (∀ g, .linkGroup g ∈ items → g.Unshadowed) ↔
      b.externs.Pairwise fun d e => ¬ b.Shadows d e := by
  refine groups_iff succeeds (P := List.Pairwise fun d e => ¬ b.Shadows d e) .nil ?_
  intro members presented
  refine Paired.pairwise_iff presented fun {d m e n} first second => ?_
  simp only [Shadows, not_exists, not_and, first.name, second.words]

/-- A record, a function of the same name, and another function that takes a pointer to the
record. -/
def statCalls : Binder where
  graph :=
    { decls := [⟨"s", "stat", none, true, false,
          .record ⟨false, [⟨"mode", .int .int, none, false⟩], false, none, none, 0, true, ⟨4, 4⟩⟩⟩,
        ⟨"f", "stat", none, true, false, .function (.mk
          (.cons "file" (.pointer (.int .char) true)
            (.cons "buf" (.pointer (.named "s") false) .nil))
          (.int .int) false)⟩,
        ⟨"g", "fstat", none, true, false, .function (.mk
          (.cons "fd" (.int .int) (.cons "buf" (.pointer (.named "s") false) .nil))
          (.int .int) false)⟩]
      frozen := true
      keys_nodup := by decide }
  options := .default

def statGroup : Item.LinkGroup Expr :=
  ⟨"lib", none, .dynamic, "",
    [⟨"stat", "stat", .scalar "ctypes.c_int", [.charPointer, .pointer (.name "stat")], false⟩,
      ⟨"fstat", "fstat", .scalar "ctypes.c_int",
        [.scalar "ctypes.c_int", .pointer (.name "stat")], false⟩], [], []⟩

theorem statCalls_items : ∃ r, statCalls.items.1 = .ok [.record r, .linkGroup statGroup] :=
  ⟨⟨_, _, _, _, _, _, _, _, _, _, _, _, _⟩, by cbv⟩

theorem statGroup_shadowed : ¬ statGroup.Unshadowed := by
  unfold Item.LinkGroup.Unshadowed
  decide

/-- The second function takes a pointer to the first one and not to the record. -/
theorem member_hides_record : ¬ ∀ (b : Binder) (items : List (Item Expr)),
    b.graph.freeze = .ok b.graph → b.items.1 = .ok items →
      ∀ g, .linkGroup g ∈ items → g.Unshadowed := by
  intro claimed
  obtain ⟨r, succeeds⟩ := statCalls_items
  exact statGroup_shadowed (claimed statCalls _ (by cbv) succeeds _ (by simp))

theorem statCalls_hides : ∃ items, statCalls.items.1 = .ok items ∧
    ¬ statCalls.externs.Pairwise fun d e => ¬ statCalls.Shadows d e := by
  obtain ⟨r, succeeds⟩ := statCalls_items
  refine ⟨_, succeeds, fun apart => ?_⟩
  exact statGroup_shadowed ((groups_unshadowed_iff succeeds).mpr apart _ (by simp))

/-! ## Names that are rewritten -/

/-- Whether a function or object has a private name or is written with a type that has. -/
def Mangles (b : Binder) (d : Decl) : Prop :=
  Name.isPrivate d.name = true ∨
    ∃ t ∈ d.types, ∃ n, b.Writes .value t (.item n) ∧ Name.isPrivate n = true

theorem writes_private {place : Place} {t : CType} {w : Word} (h : b.Writes place t w)
    (rewritten : Name.isPrivate w.name = true) : ∃ n, w = .item n := by
  induction h with
  | elem _ ih | functionPointerPart _ _ ih | functionPart _ _ ih | pointer _ _ _ ih
  | through _ _ _ _ ih | targetPart _ _ ih => exact ih rewritten
  | named => exact ⟨_, rfl⟩
  | _ => exact absurd rewritten (by decide)

theorem Presents.mangled_iff {d : Decl} {m : Item.Member} (h : b.Presents d m) :
    m.Mangled ↔ b.Mangles d := by
  unfold Item.Member.Mangled Mangles
  rw [h.name, Name.isPrivate_bound]
  refine or_congr_right ⟨?_, ?_⟩
  · rintro ⟨w, hw, rewritten⟩
    cases (h.words w).mp hw with
    | ofFunction | ofObject => exact absurd rewritten (by decide)
    | ofType ht written =>
      obtain ⟨n, rfl⟩ := writes_private written rewritten
      exact ⟨_, ht, n, written, rewritten⟩
  · rintro ⟨t, ht, n, written, rewritten⟩
    exact ⟨_, (h.words _).mpr (.ofType ht written), rewritten⟩

/-- Link groups go without a rewritten name exactly when no function or object has a private name
and none is written with a type that has. -/
theorem groups_unmangled_iff {items : List (Item Expr)} (succeeds : b.items.1 = .ok items) :
    (∀ g, .linkGroup g ∈ items → g.Unmangled) ↔ ∀ d ∈ b.externs, ¬ b.Mangles d := by
  refine groups_iff succeeds (P := fun externs => ∀ d ∈ externs, ¬ b.Mangles d)
    (Q := fun members => ∀ m ∈ members, ¬ m.Mangled) (by simp) ?_
  intro members presented
  exact Paired.forall_iff presented fun presents => not_congr presents.mangled_iff.symm

/-- A function with a private name that takes a pointer to a record with one. -/
def overflowCall : Binder where
  graph :=
    { decls := [⟨"s", "__stream", none, true, false,
          .record ⟨false, [⟨"fd", .int .int, none, false⟩], false, none, none, 0, true, ⟨4, 4⟩⟩⟩,
        ⟨"f", "__overflow", none, true, false, .function (.mk
          (.cons "to" (.pointer (.named "s") false) (.cons "c" (.int .int) .nil))
          (.int .int) false)⟩]
      frozen := true
      keys_nodup := by decide }
  options := .default

def overflowGroup : Item.LinkGroup Expr :=
  ⟨"lib", none, .dynamic, "",
    [⟨"__overflow", "__overflow", .scalar "ctypes.c_int",
      [.pointer (.name "__stream"), .scalar "ctypes.c_int"], false⟩], [], []⟩

theorem overflowCall_items :
    ∃ r, overflowCall.items.1 = .ok [.record r, .linkGroup overflowGroup] :=
  ⟨⟨_, _, _, _, _, _, _, _, _, _, _, _, _⟩, by cbv⟩

theorem overflowGroup_mangled : ¬ overflowGroup.Unmangled :=
  fun plain => plain _ List.mem_cons_self (.inl (by decide))

/-- Neither the function nor the record goes by its own name inside the group. -/
theorem private_names_kept : ¬ ∀ (b : Binder) (items : List (Item Expr)),
    b.graph.freeze = .ok b.graph → b.items.1 = .ok items →
      ∀ g, .linkGroup g ∈ items → g.Unmangled := by
  intro claimed
  obtain ⟨r, succeeds⟩ := overflowCall_items
  exact overflowGroup_mangled (claimed overflowCall _ (by cbv) succeeds _ (by simp))

theorem overflowCall_mangles : ∃ items, overflowCall.items.1 = .ok items ∧
    ¬ ∀ d ∈ overflowCall.externs, ¬ overflowCall.Mangles d := by
  obtain ⟨r, succeeds⟩ := overflowCall_items
  refine ⟨_, succeeds, fun plain => ?_⟩
  exact overflowGroup_mangled ((groups_unmangled_iff succeeds).mpr plain _ (by simp))

end Binder

end HeaderBind
