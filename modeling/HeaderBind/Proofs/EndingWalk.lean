import HeaderBind.Proofs.ClosedUnit
import HeaderBind.Proofs.Walk.Agreement
import Mathlib.Data.Set.Card
/-!
# Collecting ends

Declarations may refer to each other in any way. Where chains of types that pass no declaration end,
and no cursor stands below itself, collecting never goes deeper than its bound, and no larger bound
makes a difference.
-/
namespace HeaderBind

section Height

variable {α : Type} (step : α → α → Prop) (nodes : Finset α)

/-- How many of the nodes can be come to from a node, with the node itself. -/
noncomputable def height (a : α) : Nat := {b | b ∈ nodes ∧ Relation.ReflTransGen step a b}.ncard

variable {step nodes} {a b : α}

theorem height_le : height step nodes a ≤ nodes.card := by
  rw [← Set.ncard_coe_finset nodes]
  exact Set.ncard_le_ncard (fun _ h => h.1) nodes.finite_toSet

theorem height_eq_zero (alone : a ∉ nodes) (none : ∀ b, ¬ step a b) : height step nodes a = 0 := by
  refine (Set.ncard_eq_zero (nodes.finite_toSet.subset fun _ h => h.1)).mpr ?_
  ext b
  refine ⟨fun ⟨mem, reach⟩ => ?_, nofun⟩
  rcases reach.cases_head with rfl | ⟨c, first, _⟩
  · exact alone mem
  · exact none c first

theorem height_pos (mem : a ∈ nodes) : 0 < height step nodes a :=
  (Set.ncard_pos (nodes.finite_toSet.subset fun _ h => h.1)).mpr ⟨a, mem, .refl⟩

/-- Where no steps lead back to where they began, the height falls with each of them. -/
theorem height_lt (acyclic : ∀ a, ¬ Relation.TransGen step a a) (mem : a ∈ nodes) (move : step a b) :
    height step nodes b < height step nodes a := by
  refine Set.ncard_lt_ncard ?_ (nodes.finite_toSet.subset fun _ h => h.1)
  refine (Set.ssubset_iff_of_subset ?_).mpr ⟨a, ⟨mem, .refl⟩, ?_⟩
  · exact fun c ⟨hc, reach⟩ => ⟨hc, reach.head move⟩
  · exact fun ⟨_, back⟩ => acyclic a (.head' move back)

end Height

theorem bareName_empty : bareName "" = "" := by
  have plain : BareName.unqualified [] = [] := by
    rw [BareName.unqualified]
    rfl
  have bare : BareName.strip [] = BareName.untagged (BareName.unqualified []) := rfl
  rw [bareName, String.toList_empty, bare, plain]
  rfl

namespace CursorTable

variable (t : CursorTable)

/-- The types of the table; all others are the invalid one. -/
def typeIds : Finset TypeId := (Finset.range t.types.size).map .some

/-- What a parser guarantees of its cursors and types: chains of types that pass no declaration end,
a type of a typedef that no cursor declares has another type for its canonical one, as it has where
canonical types are no typedefs, and no cursor stands below itself. -/
structure Ends : Prop where
  types : WellFounded fun b a => t.TypeStep a b
  sugar : ∀ {a}, (t.type a).kind = .typedef →
    (t.cursor (t.declarationOf (t.type a))).kind ≠ .typedef → t.canonicalOf a ≠ a
  cursors : ∀ c, ¬ DepthFirst.Cyclic (fun c => (t.cursor c).children) c

variable {t} {a b : TypeId}

theorem type_eq_invalid (outside : a ∉ t.typeIds) : t.type a = .invalid := by
  rcases a with _ | i
  · rfl
  · have : t.types.size ≤ i := by simpa [typeIds] using outside
    simp [type, Array.getD, Nat.not_lt.mpr this]

theorem TypeStep.eq_none_of_invalid (step : t.TypeStep a b) (outside : a ∉ t.typeIds) :
    a ≠ none ∧ b = none := by
  have invalid := type_eq_invalid outside
  cases step with
  | canonical other =>
    have same : t.canonicalOf a = none := by rw [canonicalOf, invalid]; rfl
    rw [same] at other ⊢
    exact ⟨other.symm, rfl⟩
  | _ kind => simp [invalid, CursorType.invalid, TypeKind.isArray, TypeKind.isFunction] at kind

/-- Nothing is behind a type that is not in the table. -/
theorem strippedType_invalid (direct : Bool) (bound : Nat) (outside : a ∉ t.typeIds) :
    t.strippedType direct bound a = a := by
  cases bound with
  | zero => rfl
  | succ bound =>
    simp [strippedType, type_eq_invalid outside, CursorType.invalid, TypeKind.isArray]

theorem isConstStorage_invalid (bound : Nat) (outside : a ∉ t.typeIds) :
    isConstStorage.go t bound a = false := by
  cases bound with
  | zero => rfl
  | succ bound =>
    simp [isConstStorage.go, isConst, type_eq_invalid outside, CursorType.invalid, TypeKind.isArray]

variable (t) in
/-- How many types of the table can be come to from a type. -/
noncomputable def typeHeight (a : TypeId) : Nat := height t.TypeStep t.typeIds a

variable (t) in
theorem typeHeight_le (a : TypeId) : t.typeHeight a ≤ t.types.size :=
  height_le.trans_eq (by simp [typeIds])

variable (t) in
/-- How many cursors of the table stand at or below a cursor. -/
noncomputable def cursorHeight (c : CursorId) : Nat :=
  height (fun c child => child ∈ (t.cursor c).children) (Finset.range t.cursors.size) c

variable (t) in
theorem cursorHeight_le (c : CursorId) : t.cursorHeight c ≤ t.cursors.size :=
  height_le.trans_eq (by simp)

namespace Ends

variable (ends : t.Ends)
include ends

theorem typeHeight_lt (mem : a ∈ t.typeIds) (step : t.TypeStep a b) :
    t.typeHeight b < t.typeHeight a := by
  refine height_lt (fun a circle => ?_) mem step
  exact ends.types.transGen.irrefl.irrefl a (Relation.transGen_swap.mpr circle)

/-- The types can be ranked: by their heights, and the invalid type below the numbers outside the
table. -/
theorem exists_ranked : ∃ rank, t.Ranked rank := by
  refine ⟨fun a => t.typeHeight a + if a = none then 0 else 1, ?_, fun a => ?_, ends.sugar⟩
  · intro a b step
    by_cases mem : a ∈ t.typeIds
    · have := ends.typeHeight_lt mem step
      have : a ≠ none := by
        rintro rfl
        simp [typeIds] at mem
      simp only [this, if_false]
      split <;> omega
    · -- a number outside the table leads to the invalid type, and that leads nowhere
      obtain ⟨some, rfl⟩ := step.eq_none_of_invalid mem
      have alone : t.typeHeight none = 0 := by
        refine height_eq_zero (by simp [typeIds]) fun b step => ?_
        exact (step.eq_none_of_invalid (by simp [typeIds])).1 rfl
      simp [alone, some]
  · have := t.typeHeight_le a
    split <;> omega

/-- Looking behind elaboration, pointers and arrays ends. -/
theorem strippedType_eq (direct : Bool) {n m : Nat} (deep : t.typeHeight a ≤ n) (deeper : n ≤ m) :
    t.strippedType direct m a = t.strippedType direct n a := by
  induction n generalizing a m with
  | zero =>
    have outside : a ∉ t.typeIds := fun mem => Nat.not_lt.mpr deep (height_pos mem)
    rw [strippedType_invalid direct m outside, strippedType]
  | succ n ih =>
    obtain ⟨m, rfl⟩ : ∃ m', m = m' + 1 := ⟨m - 1, by omega⟩
    by_cases mem : a ∈ t.typeIds
    · have below {b : TypeId} (step : t.TypeStep a b) :
          t.strippedType direct m b = t.strippedType direct n b :=
        ih (by have := ends.typeHeight_lt mem step; omega) (Nat.le_of_succ_le_succ deeper)
      simp only [strippedType]
      split
      · exact below (.named ‹_›)
      · split
        · rfl
        · split
          · exact below (.pointee ‹_›)
          · split
            · exact below (.element ‹_›)
            · rfl
    · rw [strippedType_invalid direct _ mem, strippedType_invalid direct _ mem]

/-- Looking for a constant element ends. -/
theorem isConstStorage_eq {n m : Nat} (deep : t.typeHeight a ≤ n) (deeper : n ≤ m) :
    isConstStorage.go t m a = isConstStorage.go t n a := by
  induction n generalizing a m with
  | zero =>
    have outside : a ∉ t.typeIds := fun mem => Nat.not_lt.mpr deep (height_pos mem)
    rw [isConstStorage_invalid m outside, isConstStorage.go]
  | succ n ih =>
    obtain ⟨m, rfl⟩ : ∃ m', m = m' + 1 := ⟨m - 1, by omega⟩
    by_cases mem : a ∈ t.typeIds
    · simp only [isConstStorage.go]
      split
      · rfl
      · split
        · rename_i isArray
          have := ends.typeHeight_lt mem (.element isArray)
          exact ih (by omega) (Nat.le_of_succ_le_succ deeper)
        · rfl
    · rw [isConstStorage_invalid _ mem, isConstStorage_invalid _ mem]

end Ends

end CursorTable

namespace Collector

open Collect (State exec)

variable {w : Collector}

/-- Looking for the names that are spelled ends. -/
theorem spelledNames_eq (ends : w.table.Ends) {c : CursorId} {n m : Nat}
    (deep : w.table.cursorHeight c ≤ n) (deeper : n ≤ m) : w.spelledNames m c = w.spelledNames n c := by
  have nothing {c : CursorId} (bound : Nat) (outside : c ∉ Finset.range w.table.cursors.size) :
      w.spelledNames bound c = [] := by
    cases bound with
    | zero => rfl
    | succ bound =>
      rw [spelledNames, CursorTable.cursor_eq_absent (by simpa using outside)]
      simp [bareName_empty, Cursor.absent, CursorKind.isRecord]
  induction n generalizing c m with
  | zero =>
    have outside : c ∉ Finset.range w.table.cursors.size :=
      fun mem => Nat.not_lt.mpr deep (height_pos mem)
    rw [nothing m outside, spelledNames]
  | succ n ih =>
    obtain ⟨m, rfl⟩ : ∃ m', m = m' + 1 := ⟨m - 1, by omega⟩
    by_cases mem : c ∈ Finset.range w.table.cursors.size
    · have below (child : CursorId) (hc : child ∈ (w.table.cursor c).children) :
          w.spelledNames m child = w.spelledNames n child := by
        have lower : w.table.cursorHeight child < w.table.cursorHeight c :=
          height_lt ends.cursors mem hc
        exact ih (by omega) (Nat.le_of_succ_le_succ deeper)
      simp only [spelledNames]
      congr 1
      refine List.flatMap_congr fun child hc => below child ?_
      split at hc
      · exact (List.mem_filter.mp hc).1
      · cases hc
    · rw [nothing _ mem, nothing _ mem]

/-- The walk over a unit does not depend on its bound, and goes nowhere too deep. -/
theorem walk_ends (ends : w.table.Ends) (tops : List CursorId) {bound : Nat}
    (deep : w.depthBound ≤ bound) :
    exec (w.walk (w.visit bound) tops) .start = exec (w.walk (w.visit w.depthBound) tops) .start ∧
    ∀ place, (exec (w.walk (w.visit w.depthBound) tops) .start).1 ≠ .error (.endless place) := by
  obtain ⟨rank, ranked⟩ := ends.exists_ranked
  have proceeds : Proceeds w (fun _ => false) True .start (w.walk (w.visit w.depthBound) tops) :=
    w.visitUntil_false _ ▸ proceeds_walk tops sound_start (fun _ => ranked) fun _ _ => rfl
  have shallow (place : String) :
      (exec (w.walk (w.visit w.depthBound) tops) .start).1 ≠ .error (.endless place) :=
    fun failed => (proceeds.fails failed).deep trivial place rfl
  refine ⟨?_, shallow⟩
  have agrees : VisitAgrees (fun _ => True) (w.visit w.depthBound) (w.visit bound) :=
    w.visitUntil_false _ ▸ visitAgrees deep (.inr fun _ => trivial) fun _ _ => trivial
  rcases agrees.walk tops .start with same | ⟨⟨place, failed⟩, _⟩
  · exact same.symm
  · exact absurd failed (shallow place)

/-- Where chains of types end and no cursor stands below itself, collecting ends, with a graph or
with a failure that tells what is wrong with the declarations. It does not depend on how deep it may
go, and neither does anything it looks up in the table. -/
theorem collect_ends (ends : w.table.Ends) (tops : List CursorId) :
    ((∃ g, (exec (w.collect tops) .start).1 = .ok g) ∨
      ∃ e, (exec (w.collect tops) .start).1 = .error e ∧ ∀ place, e ≠ .endless place) ∧
    (∀ bound, w.depthBound ≤ bound →
      exec (w.collectWithin bound tops) .start = exec (w.collect tops) .start) ∧
    (∀ bound c, w.table.cursors.size + 1 ≤ bound →
      w.spelledNames bound c = w.spelledNames (w.table.cursors.size + 1) c) ∧
    ∀ bound a, w.table.chainBound ≤ bound →
      (∀ direct, w.table.strippedType direct bound a =
        w.table.strippedType direct w.table.chainBound a) ∧
      CursorTable.isConstStorage.go w.table bound a =
        CursorTable.isConstStorage.go w.table w.table.chainBound a := by
  refine ⟨?_, fun bound deep => ?_, fun bound c deep => ?_, fun bound a deep => ?_⟩
  · rcases outcome : (exec (w.collect tops) .start).1 with e | g
    · refine .inr ⟨e, rfl, fun place same => ?_⟩
      rcases walk_of_failed outcome with failed | failed
      · exact (walk_ends ends tops (Nat.le_refl _)).2 place (same ▸ failed)
      · rcases DeclGraph.check_eq_error (DeclGraph.freeze_eq_error failed) with
          ⟨_, _, _, _, _, told⟩ | ⟨_, _, _, told⟩
        · exact nomatch told.symm.trans same
        · exact nomatch told.symm.trans same
    · exact .inl ⟨g, rfl⟩
  · rw [collect, exec_collectWithin, exec_collectWithin, (walk_ends ends tops deep).1]
  · have := w.table.cursorHeight_le c
    exact spelledNames_eq ends (by omega) deep
  · have height : w.table.typeHeight a ≤ w.table.chainBound :=
      (w.table.typeHeight_le a).trans (Nat.le_succ _)
    exact ⟨fun direct => ends.strippedType_eq direct height deep, ends.isConstStorage_eq height deep⟩

/-- A list in C: a structure with a member that points to it. -/
def listNode : CursorTable where
  cursors := #[
    { Cursor.absent with
      kind := .struct, name := "node", usr := some "c:@S@node", type := some (some 0)
      isDefinition := some true, definition := some 0, children := [1] },
    { Cursor.absent with
      kind := .field, name := "next", usr := some "c:@S@node@FI@next", type := some (some 1) }]
  types := #[
    { CursorType.invalid with kind := .record, canonical := some (some 0), declaration := some 0 },
    { CursorType.invalid with kind := .pointer, canonical := some (some 1), pointee := some 2 },
    { CursorType.invalid with kind := .elaborated, canonical := some (some 0), named := some 0 }]
  tops := [0]

/-- How many types the types of the list lead to. -/
def listNodeRank : TypeId → Nat
  | none => 0
  | some 1 => 3
  | some 2 => 2
  | some _ => 1

theorem listNode_type (a : TypeId) :
    a = some 0 ∨ a = some 1 ∨ a = some 2 ∨ a ∉ listNode.typeIds := by
  by_cases mem : a ∈ listNode.typeIds
  · obtain ⟨i, hi, rfl⟩ : ∃ i < 3, some i = a := by simpa [CursorTable.typeIds, listNode] using mem
    simp only [Option.some.injEq]
    omega
  · exact .inr (.inr (.inr mem))

theorem listNode_ends : listNode.Ends := by
  refine ⟨Subrelation.wf (fun {b a} step => ?_) (InvImage.wf listNodeRank Nat.lt_wfRel.wf),
    fun {a} kind => ?_, fun c circle => ?_⟩
  · change listNodeRank b < listNodeRank a
    rcases listNode_type a with rfl | rfl | rfl | outside
    case inr.inr.inr =>
      obtain ⟨other, rfl⟩ := step.eq_none_of_invalid outside
      obtain ⟨i, rfl⟩ := Option.ne_none_iff_exists'.mp other
      change 0 < listNodeRank (some i)
      unfold listNodeRank
      split <;> simp_all
    all_goals
      cases step with
      | parameter kind _ => exact absurd kind (by decide)
      | canonical other => revert other; decide
      | _ kind => revert kind; decide
  · rcases listNode_type a with rfl | rfl | rfl | outside
    case inr.inr.inr =>
      rw [CursorTable.type_eq_invalid outside] at kind
      cases kind
    all_goals exact absurd kind (by decide)
  · have later (c child : CursorId) (h : child ∈ (listNode.cursor c).children) : c < child := by
      rcases c with _ | _ | c
      · obtain rfl := List.mem_singleton.mp h
        exact Nat.zero_lt_one
      · cases h
      · cases h
    have circle : Relation.TransGen (· < ·) c c := Relation.TransGen.mono later c c circle
    rw [Relation.transGen_eq_self] at circle
    exact Nat.lt_irrefl c circle

/-- Collecting a structure that points to itself ends. -/
theorem collect_ends_listNode : listNode.Ends ∧
    ∀ bound, (⟨listNode, .default⟩ : Collector).depthBound ≤ bound →
      exec (collectWithin ⟨listNode, .default⟩ bound listNode.tops) .start =
        exec (collect ⟨listNode, .default⟩ listNode.tops) .start :=
  ⟨listNode_ends, (collect_ends (w := ⟨listNode, .default⟩) listNode_ends listNode.tops).2.1⟩

end Collector

end HeaderBind
