import HeaderBind.Proofs.Failure
import HeaderBind.Proofs.Walk.Tops
import HeaderBind.Proofs.WholeGraph
/-!
# Graphs of a unit are closed

At every point of the walk over a unit, types mention nothing but typedefs, records and enumerations
of the graph. So the check finds no dangling mention in it, and no module made from it mentions a
function or an object as a type.
-/
namespace HeaderBind

namespace DeclGraph

variable {g : DeclGraph}

theorem Closed.whole (closed : g.Closed) : g.Whole :=
  fun d hd key mem => mem_keys_of_namesType (closed d hd key mem)

/-- A closed graph fails the check only at a circle. -/
theorem Closed.check_ne_dangling (closed : g.Closed) (owner : Decl) (key : String) :
    g.check ≠ .error (.dangling owner key) := by
  intro failed
  rcases check_eq_error failed with ⟨d, hd, k, mem, absent, _⟩ | ⟨_, _, _, same⟩
  · exact absent (closed.whole d hd k mem)
  · cases same

theorem freeze_eq_ok {h : DeclGraph} (frozen : g.freeze = .ok h) :
    g.check = .ok () ∧ h = { g with frozen := true } := by
  unfold freeze at frozen
  split at frozen
  · rename_i checked
    exact ⟨checked, (Except.ok.inj frozen).symm⟩
  · cases frozen

theorem freeze_eq_error {e : ResolutionError} (failed : g.freeze = .error e) : g.check = .error e := by
  unfold freeze at failed
  split at failed
  · cases failed
  · rename_i checked
    exact Except.error.inj failed ▸ checked

end DeclGraph

namespace Binder

variable {b : Binder}

/-- Types of a closed graph's declarations fail to be written only by being looked through, or by never
ending. -/
theorem typesFailIn_of_closed {P : GenerationError → Prop} (closed : b.graph.Closed)
    (endless : ∀ key, P (.endless key))
    (canonical : ∀ {type : CType}, (∀ key ∈ type.keys, b.graph.namesType key = true) →
      FailsIn P (b.canonical type)) : b.TypesFailIn P := by
  have typed {d : Decl} (hd : d ∈ b.graph.decls) {type : CType} (mem : type ∈ d.types) :
      ∀ k ∈ type.keys, b.graph.namesType k = true :=
    fun k hk => closed d hd k (List.mem_flatMap.mpr ⟨type, mem, hk⟩)
  have render (d : Decl) (hd : d ∈ b.graph.decls) (type : CType) (mem : type ∈ d.types) :
      FailsIn P (b.render type) :=
    value_failsIn (declared_failsIn closed endless canonical (b.graph.size + 1)) type (typed hd mem)
  refine ⟨fun d hd => ?_, render, fun d hd type mem =>
    renderBitField_failsIn (canonical (typed hd mem)) (render d hd type mem)⟩
  obtain ⟨emitted, emits⟩ := emits_ok (closed.whole d hd)
  rw [emits]
  exact .ok _

/-- Items fail to be put in order only at a circle. -/
theorem ordered_failsIn {P : GenerationError → Prop} (circular : ∀ name, P (.circular name))
    (items : List (Item Expr)) : FailsIn P (Item.ordered items) := by
  unfold Item.ordered
  split
  · exact .ok _
  · exact .error (circular _)

/-- No module made from a closed graph mentions what is no type as one. -/
theorem items_ne_notType (closed : b.graph.Closed) (d : Decl) : b.items.1 ≠ .error (.notType d) := by
  have types : b.TypesFailIn fun e => ∀ d, e ≠ .notType d := by
    refine typesFailIn_of_closed closed (by simp) fun {type} _ => ?_
    unfold Binder.canonical
    split
    · exact .ok _
    · exact .error (by simp)
  have failed := items_failsIn types (by simp) fun parts _ => ordered_failsIn (by simp) _
  exact fun same => failed _ same d rfl

end Binder

namespace Collector

open Collect (exec)

/-- At every point of the walk over a unit, types mention nothing but typedefs, records and
enumerations of the graph. So collecting never fails at a dangling mention, and what it gives is
such a graph, from which no module fails to be made because something cannot be used as a type. -/
theorem collected_closed (w : Collector) (tops : List CursorId) :
    (∀ s, w.Point tops s → s.graph.Closed) ∧
    (∀ owner key, (exec (w.collect tops) .start).1 ≠ .error (.dangling owner key)) ∧
    ∀ g, (exec (w.collect tops) .start).1 = .ok g →
      g.Closed ∧ ∀ options d, (Binder.items ⟨g, options⟩).1 ≠ .error (.notType d) := by
  have walk := proceeds_visit tops (sound_start (w := w))
  have sound := walk.path.sound sound_start
  refine ⟨fun s point => (sound_of_point point).closed, fun owner key failed => ?_,
    fun g collected => ?_⟩
  · rcases walk_of_failed failed with failed | failed
    · exact (walk.fails failed).bound owner key rfl
    · exact sound.closed.check_ne_dangling owner key (DeclGraph.freeze_eq_error failed)
  · obtain ⟨t, run, frozen, _⟩ := walk_of_collected (Prod.ext collected rfl)
    rw [run] at sound
    obtain ⟨_, rfl⟩ := DeclGraph.freeze_eq_ok frozen
    have closed : ({ t.graph with frozen := true } : DeclGraph).Closed := sound.closed
    exact ⟨closed, fun options d => Binder.items_ne_notType closed d⟩

end Collector

end HeaderBind
