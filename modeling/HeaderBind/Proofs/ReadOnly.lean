import HeaderBind.Proofs.RetainedParts
import HeaderBind.Proofs.Walk.Frozen
/-!
# Collecting on into a frozen graph

Once a unit is collected its graph takes no further declaration: collecting on ends where it would
enter one, and every key stays, with its name and sort. But only what is entered is checked for that.
A record that is known by name only is still completed from a definition, and what is not bound yet is
still marked; nothing else changes, and nothing at all where nothing waits for either.
-/
namespace HeaderBind

theorem DeclGraph.freeze_of_frozen {g h : DeclGraph} (frozen : g.frozen = true)
    (again : g.freeze = .ok h) : h = g := by
  obtain ⟨_, rfl⟩ := freeze_eq_ok again
  rw [← frozen]

namespace Collector

open Collect (State exec)

variable {w : Collector} {tops more : List CursorId} {g : DeclGraph} {s t : State}

/-- Closing the graph of a sound state leaves it sound. -/
theorem Sound.freeze {events : List Event} (sound : w.Sound s)
    (passes : s.graph.freeze = .ok g) : w.Sound { s with graph := g, events := events } := by
  obtain ⟨_, rfl⟩ := DeclGraph.freeze_eq_ok passes
  exact ⟨sound.closed, sound.placed, sound.folded, sound.nested, sound.parts⟩

theorem Sound.sealed (sound : w.Sound s) (frozen : s.graph.frozen = true) : w.Sealed s :=
  ⟨frozen, sound.placed, fun folds => (sound.folded folds).2⟩

/-- The state in which a unit was collected. -/
theorem sealed_of_collected (collected : exec (w.collect tops) .start = (.ok g, s)) :
    w.Sealed s ∧ s.graph = g := by
  obtain ⟨last, run, frozen, same⟩ := state_of_collected collected
  have sound : Sound w last := by
    have path := (proceeds_visit tops (sound_start (w := w))).path
    rw [run] at path
    exact path.sound sound_start
  rw [same]
  refine ⟨(sound.freeze frozen).sealed ?_, rfl⟩
  obtain ⟨_, rfl⟩ := DeclGraph.freeze_eq_ok frozen
  rfl

/-- What is told when collecting ends changes no declaration, nor does closing a graph that is closed. -/
theorem kept_of_collectWithin (fixed : w.Sealed s) (bound : Nat) :
    w.Kept more [] s (exec (w.collectWithin bound more) s).2 := by
  have walked := ((readsOn_visit w more bound).walk fixed).kept
  rw [exec_collectWithin]
  generalize exec (w.walk (w.visit bound) more) s = out at walked ⊢
  obtain ⟨e | _, last⟩ := out
  · exact walked.trans (.quiet walked.fixed ⟨rfl, rfl, rfl⟩)
  · rcases frozen : last.graph.freeze with e | h
    · simp only [frozen]
      exact walked.trans (.quiet walked.fixed ⟨rfl, rfl, rfl⟩)
    · simp only [frozen]
      have same : h = last.graph := DeclGraph.freeze_of_frozen walked.fixed.frozen frozen
      exact walked.trans (.quiet walked.fixed ⟨same, rfl, rfl⟩)

/-- Closing a graph changes no declaration. -/
theorem decls_collectWithin (w : Collector) (bound : Nat) (tops : List CursorId) (s : State) :
    (exec (w.collectWithin bound tops) s).2.graph.decls =
      (exec (w.walk (w.visit bound) tops) s).2.graph.decls := by
  rw [exec_collectWithin]
  rcases exec (w.walk (w.visit bound) tops) s with ⟨e | _, last⟩
  · rfl
  · rcases frozen : last.graph.freeze with e | h
    · simp only [frozen]
    · obtain ⟨_, rfl⟩ := DeclGraph.freeze_eq_ok frozen
      simp only [frozen]

/-- Collecting on, whether it fails or not, leaves a collected graph frozen, with the same keys in the
same order. Every declaration keeps what it is written with, unless it is a record without a
definition that some cursor of its key defines, and keeps its mark if it has one. The graph is just
what it was unless something waits: a record for such a definition, or a declaration that is not bound
for a cursor, listed or a tag inside a record, where the options ask for it. -/
theorem frozen_graph_kept (collected : exec (w.collect tops) .start = (.ok g, s))
    (later : (exec (w.collect more) s).2 = t) :
    t.graph.frozen = true ∧ t.graph.keys = g.keys ∧
    (∀ d ∈ g.decls, ∃ e ∈ t.graph.decls, d.Becomes e ∧
      (e.body = d.body ∨ d.body.settled = false ∧ e.body.settled = true ∧ w.Defined d.key)) ∧
    ((∀ key, ¬ w.Waits more s key) → t.graph = g) := by
  obtain ⟨fixed, rfl⟩ := sealed_of_collected collected
  have kept : w.Kept more [] s t := later ▸ kept_of_collectWithin fixed w.depthBound
  refine ⟨kept.fixed.frozen, kept.keys, fun d mem => ?_, fun none => ?_⟩
  · have found : s.graph.get? d.key = some d := DeclGraph.get?_eq_some_iff.mpr ⟨mem, rfl⟩
    obtain ⟨e, found', becomes⟩ := kept.grows d.key d found
    have mem' := (DeclGraph.get?_eq_some_iff.mp found').1
    exact ⟨e, mem', becomes, kept.bodies List.not_mem_nil found found'⟩
  · rcases kept.cause rfl with ⟨same, _⟩ | ⟨key, waits⟩
    · exact same
    · exact absurd waits (none key)

/-- Nothing waits where every record is complete and all is bound. -/
theorem not_waits (done : ∀ d ∈ s.graph.decls, d.body.settled = true ∧ d.retained = true)
    (key : String) : ¬ w.Waits more s key := by
  rintro (⟨found, waits, _⟩ | ⟨found, unbound, _, _⟩)
  · rw [(done _ (DeclGraph.get?_eq_some_iff.mp found).1).1] at waits
    cases waits
  · rw [(done _ (DeclGraph.get?_eq_some_iff.mp found).1).2] at unbound
    cases unbound

/-! ## A record that is defined later -/

/-- `struct s; extern struct s *v;` in one file and `struct s { int x; };` in another, collected with
the options. -/
def definedLater (options : CollectOptions) : Collector where
  options := options
  table := {
    cursors := #[
      { cursorAt .struct "s" "c:@S@s" 1 8 (some 0) with location := some ⟨some "a.h", 1, 8⟩ },
      { cursorAt .object "v" "c:@v" 2 18 (some 1) with
        location := some ⟨some "a.h", 2, 18⟩, storage := some "EXTERN" },
      { cursorAt .struct "s" "c:@S@s" 1 8 (some 2) with
        location := some ⟨some "b.h", 1, 8⟩
        isDefinition := some true, definition := some 2, children := [3] },
      { cursorAt .field "x" "c:@S@s@FI@x" 1 16 (some 3) with
        location := some ⟨some "b.h", 1, 16⟩, offset := some 0 }]
    types := #[
      { typeOf .record (-2) (-2) (some 0) with declaration := some 0 },
      { typeOf .pointer 8 8 (some 1) with pointee := some 0 },
      { typeOf .record 4 4 (some 2) with declaration := some 2 },
      typeOf .int 4 4 (some 3)]
    tops := [0, 1] }

/-- The options that ask for the second file only. -/
def secondFile : CollectOptions := { CollectOptions.default with patterns := [some "b.h"] }

/-- Collected together, both files may be collected again in any way. -/
theorem frozen_graph_kept_definedLater : ∃ g s,
    exec ((definedLater .default).collect [0, 1, 2]) .start = (.ok g, s) ∧
    ∀ more, (exec ((definedLater .default).collect more) s).2.graph = g := by
  have collected : exec ((definedLater .default).collect [0, 1, 2]) .start =
      (.ok ((definedLater .default).closedState [0, 1, 2]).graph,
        (definedLater .default).closedState [0, 1, 2]) :=
    exec_collect_of_walk (by decide +kernel) (by decide +kernel)
  have done : ∀ d ∈ ((definedLater .default).closedState [0, 1, 2]).graph.decls,
      d.body.settled = true ∧ d.retained = true := by
    decide +kernel
  refine ⟨_, _, collected, fun more => ?_⟩
  obtain ⟨_, _, _, same⟩ := frozen_graph_kept collected
    (show (exec ((definedLater .default).collect more) _).2 = _ from rfl)
  exact same (not_waits done)

/-- Collected after the first, the second file completes and marks what the first declares. -/
theorem frozen_graph_changed : ¬ ∀ (w : Collector) (tops more : List CursorId) (g : DeclGraph)
    (s : State), exec (w.collect tops) .start = (.ok g, s) →
      (exec (w.collect more) s).2.graph = g := by
  intro all
  have collected : exec ((definedLater secondFile).collect [0, 1]) .start =
      (.ok ((definedLater secondFile).closedState [0, 1]).graph,
        (definedLater secondFile).closedState [0, 1]) :=
    exec_collect_of_walk (by decide +kernel) (by decide +kernel)
  have same := all _ _ [2] _ _ collected
  have decls := (definedLater secondFile).decls_collectWithin (definedLater secondFile).depthBound [2]
    ((definedLater secondFile).closedState [0, 1])
  rw [← collect, same] at decls
  have before : ∃ d ∈ ((definedLater secondFile).closedState [0, 1]).graph.decls,
      d.key = "c:@S@s" ∧ d.body.settled = false ∧ d.retained = false := by
    decide +kernel
  have after : ∀ d ∈ (exec ((definedLater secondFile).walk
      ((definedLater secondFile).visit (definedLater secondFile).depthBound) [2])
      ((definedLater secondFile).closedState [0, 1])).2.graph.decls,
      d.key = "c:@S@s" → d.body.settled = true ∧ d.retained = true := by
    decide +kernel
  obtain ⟨d, mem, key, waits, _⟩ := before
  rw [(after d (decls ▸ mem) key).1] at waits
  cases waits

end Collector

end HeaderBind
