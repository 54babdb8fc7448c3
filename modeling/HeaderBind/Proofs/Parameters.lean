import HeaderBind.Proofs.Expression
import HeaderBind.Proofs.Walk.Decay
import HeaderBind.Proofs.Redeclaration
/-!
# How parameters are passed

In a graph that was collected no parameter is an array or a function, nor the name of a typedef that
stands for an array, at any depth: where the parser knows arrays by any name, and the typedefs of one
key agree on whether they stand for an array.
-/
namespace HeaderBind

namespace CursorTable

variable {t : CursorTable} {type : TypeId}

/-- What is an array behind all typedefs is an array, or the name of a typedef for one. -/
theorem arrayish_of_behind {g : DeclGraph} (passes : ∀ d ∈ g.decls, t.Passes d) {read c : CType}
    (behind : g.Behind read c) (isArray : ∃ elem length, c = .array elem length) : t.Arrayish read := by
  induction behind with
  | plain =>
    obtain ⟨elem, length, rfl⟩ := isArray
    exact .array elem length
  | through found body _ ih =>
    obtain ⟨known, rfl⟩ := DeclGraph.get?_eq_some_iff.mp found
    exact .named ((passes _ known).arrays _ body (ih isArray))

theorem canonicalKind_invalid (outside : type ∉ t.typeIds) : t.canonicalKind type = .invalid := by
  rw [canonicalKind, type_eq_invalid outside]
  rfl

theorem mem_typeIds_of_isArray (isArray : (t.canonicalKind type).isArray = true) :
    type ∈ t.typeIds := by
  by_contra outside
  rw [canonicalKind_invalid outside] at isArray
  cases isArray

/-- The parser knows arrays if it does so one step behind what each type of the table is written as. -/
theorem knowsArrays_of_step
    (step : ∀ i < t.types.size, ((t.type (some i)).kind.isArray ||
      (t.desugared? (some i)).any fun inner => (t.canonicalKind inner).isArray) = true →
        (t.canonicalKind (some i)).isArray = true) : t.KnowsArrays := by
  have known {type : TypeId} (written : ((t.type type).kind.isArray ||
      (t.desugared? type).any fun inner => (t.canonicalKind inner).isArray) = true) :
      (t.canonicalKind type).isArray = true := by
    by_cases inside : type ∈ t.typeIds
    · obtain ⟨i, lt, rfl⟩ : ∃ i < t.types.size, some i = type := by simpa [typeIds] using inside
      exact step i lt written
    · have nothing : t.desugared? type = none := by
        simp [desugared?, canonicalKind_invalid inside, type_eq_invalid inside, CursorType.invalid]
      rw [nothing, type_eq_invalid inside] at written
      cases written
  intro type ends
  induction ends with
  | array isArray => exact known (by simp [isArray])
  | behind same _ ih => exact known (by simp [same, ih])

end CursorTable

namespace Collector

open Collect (State exec)

/-- Every declaration of a graph that was collected passes its parameters as they are. -/
theorem passes_of_collected {w : Collector} {bound : Nat} {tops : List CursorId} {g : DeclGraph}
    {last : State} (agree : w.table.ArraysAgree) (knows : w.table.KnowsArrays)
    (collected : exec (w.collectWithin bound tops) .start = (.ok g, last)) :
    ∀ d ∈ g.decls, w.table.Passes d := by
  obtain ⟨walked, run, frozen, _⟩ := walk_of_collected collected
  obtain ⟨_, rfl⟩ := DeclGraph.freeze_eq_ok frozen
  have walks : w.Fits (w.walk (w.visit bound) tops) fun _ => True :=
    .bind (.change fun _ fitting => ⟨fitting.decls, fitting.folded, fitting.placed⟩)
      fun _ _ => forM_fits agree knows tops
  have start : w.Fitting .start := by
    constructor <;> exact fun _ mem => absurd mem List.not_mem_nil
  exact (walks _ _ _ start run).1.decls

/-- No parameter of a collected graph, at any depth, is an array, a function, or a name that stands for
an array. -/
theorem parameters_decay (w : Collector) (tops : List CursorId) (agree : w.table.ArraysAgree)
    (knows : w.table.KnowsArrays) (g : DeclGraph) (last : State)
    (collected : exec (w.collect tops) .start = (.ok g, last)) :
    ∀ d ∈ g.decls, ∀ p ∈ d.innerParams,
      (∀ elem length, p ≠ .array elem length) ∧ (∀ sig, p ≠ .function sig) ∧
        ∀ elem length, g.canonical p ≠ .ok (.array elem length) := by
  have passes := passes_of_collected agree knows collected
  intro d known p inner
  have fit := (passes d known).params p inner
  refine ⟨fun elem length same => ?_, fit.notFunction, fun elem length canonical => ?_⟩
  · exact fit.notArray (same ▸ .array elem length)
  · have behind := DeclGraph.behind_of_canonicalFrom canonical
    exact fit.notArray (CursorTable.arrayish_of_behind passes behind ⟨elem, length, rfl⟩)

/-- `typedef int T[3]; void (*f)(T x, int y[2]);` -/
def passedArrays : Collector where
  options := .default
  table := {
    cursors := #[
      typedefAt "T" "c:@T@T" 1 13 (some 3) (some 1),
      cursorAt .object "f" "c:@f" 2 8 (some 6)]
    types := #[
      typeOf .int 4 4 (some 0),
      { typeOf .constantArray 12 4 (some 1) with element := some 0, count := 3 },
      { typeOf .constantArray 8 4 (some 2) with element := some 0, count := 2 },
      { typeOf .typedef 12 4 (some 1) with declaration := some 0 },
      typeOf .void 1 1 (some 4),
      { typeOf .functionProto 1 4 (some 5) with result := some 4, parameters := [some 3, some 2] },
      { typeOf .pointer 8 8 (some 6) with pointee := some 5 }]
    tops := [0, 1] }

theorem parameters_decay_passedArrays : ∃ g last,
    (passedArrays.table.ArraysAgree ∧ passedArrays.table.KnowsArrays ∧
      exec (passedArrays.collect [0, 1]) .start = (.ok g, last) ∧
      ∃ d ∈ g.decls, d.innerParams = [.pointer (.int .int) false, .pointer (.int .int) false]) ∧
    ∀ d ∈ g.decls, ∀ p ∈ d.innerParams,
      (∀ elem length, p ≠ .array elem length) ∧ (∀ sig, p ≠ .function sig) ∧
        ∀ elem length, g.canonical p ≠ .ok (.array elem length) := by
  have oneTypedef : ∀ c < 2, (passedArrays.table.cursor c).kind = .typedef → c = 0 := by
    decide +kernel
  have noTag : ∀ c < 2, (passedArrays.table.cursor c).kind.isTag = false := by decide +kernel
  have ends : passedArrays.table.EndsInArray (passedArrays.table.cursor 0).underlying :=
    .array (by decide +kernel)
  have agree : passedArrays.table.ArraysAgree := by
    refine ⟨fun c isTypedef _ => ?_, fun c isTag _ => ?_⟩
    · rwa [oneTypedef c (lt_size_of_typedef isTypedef) isTypedef]
    · rw [noTag c (lt_size_of_isTag isTag)] at isTag
      cases isTag
  have knows : passedArrays.table.KnowsArrays :=
    CursorTable.knowsArrays_of_step (by decide +kernel)
  have evaluated :
      (exec (passedArrays.walk (passedArrays.visit passedArrays.depthBound) [0, 1]) .start).1.isOk
        = true ∧
      (∀ d ∈ (passedArrays.lastState [0, 1]).graph.decls, ∀ key ∈ d.valueKeys,
        (passedArrays.lastState [0, 1]).graph.valueKeys key = []) ∧
      ∃ d ∈ (passedArrays.lastState [0, 1]).graph.decls,
        d.innerParams = [.pointer (.int .int) false, .pointer (.int .int) false] := by
    decide +kernel
  obtain ⟨run, flat, passed⟩ := evaluated
  obtain ⟨g, last, collected, decls, -⟩ := collected_of_walk run flat
  exact ⟨g, last, ⟨agree, knows, collected, decls ▸ passed⟩,
    parameters_decay passedArrays [0, 1] agree knows g last collected⟩

/-- `typedef int T[3]; typedef int T; extern T v; void f(T x);`, where the object has the first typedef
for its type and the parameter has the second. The second is at the top, after the object. -/
def passedUnseen : Collector where
  options := .default
  table := {
    cursors := #[
      typedefAt "T" "c:@T@T" 1 13 (some 2) (some 1),
      typedefAt "T" "c:@T@T" 2 13 (some 3) (some 0),
      cursorAt .object "v" "c:@v" 3 10 (some 2),
      { cursorAt .function "f" "c:@F@f" 4 5 (some 4) with arguments := [4] },
      cursorAt (.other "PARM_DECL") "x" "c:input.h@F@f@x" 4 9 (some 3)]
    types := #[
      typeOf .int 4 4 (some 0),
      { typeOf .constantArray 12 4 (some 1) with element := some 0, count := 3 },
      { typeOf .typedef 12 4 (some 1) with declaration := some 0 },
      { typeOf .typedef 4 4 (some 0) with declaration := some 1 },
      { typeOf .functionProto 1 4 (some 4) with result := some 0, parameters := [some 3] }]
    tops := [2, 1, 3] }

/-- A typedef that was entered for the object is not compared when it is seen at the top, so a
parameter that the parser knows as a number has the name of an array. -/
theorem passed_as_array : ¬ ∀ (w : Collector) (tops : List CursorId) (g : DeclGraph) (last : State),
    (∀ type, (w.table.canonicalKind type).isArray = true ↔ w.table.EndsInArray type) →
    exec (w.collect tops) .start = (.ok g, last) →
    ∀ d ∈ g.decls, ∀ p ∈ d.innerParams,
      (∀ elem length, p ≠ .array elem length) ∧ (∀ sig, p ≠ .function sig) ∧
        ∀ elem length, g.canonical p ≠ .ok (.array elem length) := by
  intro all
  have evaluated :
      (exec (passedUnseen.walk (passedUnseen.visit passedUnseen.depthBound) [2, 1, 3]) .start).1.isOk
        = true ∧
      (∀ d ∈ (passedUnseen.lastState [2, 1, 3]).graph.decls, ∀ key ∈ d.valueKeys,
        (passedUnseen.lastState [2, 1, 3]).graph.valueKeys key = []) ∧
      (∃ d ∈ (passedUnseen.lastState [2, 1, 3]).graph.decls, .named "c:@T@T" ∈ d.innerParams) ∧
      ∃ d ∈ (passedUnseen.lastState [2, 1, 3]).graph.decls, d.key = "c:@T@T" ∧
        d.body = .typedef (.array (.int .int) (some 3)) := by
    decide +kernel
  have arrays : ∀ i < 5, (passedUnseen.table.canonicalKind (some i)).isArray = true →
      i = 1 ∨ i = 2 := by
    decide +kernel
  have ends : passedUnseen.table.EndsInArray (some 1) := .array (by decide +kernel)
  have knows : passedUnseen.table.KnowsArrays :=
    CursorTable.knowsArrays_of_step (by decide +kernel)
  have exactly (type : TypeId) : (passedUnseen.table.canonicalKind type).isArray = true ↔
      passedUnseen.table.EndsInArray type := by
    refine ⟨fun isArray => ?_, knows type⟩
    obtain ⟨i, lt, rfl⟩ : ∃ i < 5, some i = type := by
      simpa [CursorTable.typeIds, passedUnseen] using CursorTable.mem_typeIds_of_isArray isArray
    rcases arrays i lt isArray with rfl | rfl
    · exact ends
    · exact .behind (by decide +kernel) ends
  obtain ⟨run, flat, ⟨d, known, inner⟩, e, entered, key, body⟩ := evaluated
  have passed := all passedUnseen [2, 1, 3] _ _ exactly (exec_collect_of_walk run flat) d known _ inner
  have found : (passedUnseen.closedState [2, 1, 3]).graph.get? "c:@T@T" = some e :=
    DeclGraph.get?_eq_some_iff.mpr ⟨entered, key⟩
  have unseen : "c:@T@T" ∈ (passedUnseen.closedState [2, 1, 3]).graph.keys :=
    DeclGraph.mem_keys_iff.mpr ⟨e, found⟩
  refine passed.2.2 (.int .int) (some 3) ?_
  simp [DeclGraph.canonical, DeclGraph.canonicalFrom, found, body, unseen]

end Collector
end HeaderBind
