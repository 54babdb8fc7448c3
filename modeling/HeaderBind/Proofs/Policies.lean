import HeaderBind.Proofs.Walk.Alongside
/-!
# Options that decide one thing each

The patterns decide which declarations are marked, an override which kind enumerations have, and
whether unknown types are refused decides about refusals. None of them reaches further: a unit
collected twice, under options that differ in one of them, gives the same but for that.
-/
namespace HeaderBind

/-- What is given and told when a unit is collected. -/
abbrev Collected := Except ResolutionError DeclGraph × List Event

/-- Whether a unit was collected the same way twice, but for what is hidden: two graphs, or two
failures, and the same told. -/
inductive Collected.Alike (v : Veil) : Collected → Collected → Prop
  | graph {g g' : DeclGraph} {events : List Event} (same : g.Alike v g') :
      Alike v (.ok g, events) (.ok g', events)
  | failure {e e' : ResolutionError} {events : List Event} (same : e.veiled v = e'.veiled v) :
      Alike v (.error e, events) (.error e', events)

theorem Collected.Alike.eq {out out' : Collected} (alike : out.Alike ⟨false, false⟩ out') :
    out = out' := by
  cases alike with
  | graph same => rw [same.eq]
  | failure same => rw [ResolutionError.eq_of_veiled same]

namespace CursorTable

open Collect (exec EndsAlike)
open Collector (walk visit depthBound walk_alongside)

variable {t : CursorTable} {v : Veil} {refuses : Prop} {o o' : CollectOptions}

/-- A unit is collected the same way under options that differ in what is hidden, unless the first
refuse a type that the second take. -/
theorem declarations_alike (near : o.Near v refuses o') :
    Collected.Alike v (t.declarations o) (t.declarations o') ∨
      refuses ∧ ∃ place spelling, (t.declarations o).1 = .error (.unknownType place spelling) := by
  have outcome (o : CollectOptions) : t.declarations o =
      ((exec (Collector.collect ⟨t, o⟩ t.tops) .start).1,
        (exec (Collector.collect ⟨t, o⟩ t.tops) .start).2.events) := rfl
  simp only [outcome, Collector.collect, Collector.exec_collectWithin]
  have ends : EndsAlike v refuses Eq
      (exec (walk ⟨t, o⟩ (visit ⟨t, o⟩ (depthBound ⟨t, o⟩)) t.tops) .start)
      (exec (walk ⟨t, o'⟩ (visit ⟨t, o'⟩ (depthBound ⟨t, o'⟩)) t.tops) .start) :=
    walk_alongside near _ t.tops _ _ (.refl v _)
  generalize exec (walk ⟨t, o⟩ _ t.tops) .start = out at ends ⊢
  generalize exec (walk ⟨t, o'⟩ _ t.tops) .start = out' at ends ⊢
  cases ends with
  | ok _ alike =>
    rcases alike.graph.freeze with ⟨g, g', here, there, same⟩ | ⟨e, e', here, there, same⟩ <;>
      simp only [here, there, alike.events]
    · rw [same.size]
      exact .inl (.graph same)
    · rw [ResolutionError.message_eq same]
      exact .inl (.failure same)
  | error same alike =>
    simp only [alike.events, ResolutionError.message_eq same]
    exact .inl (.failure same)
  | refused may => exact .inr ⟨may, _, _, rfl⟩

/-- Each of three options reaches no further than what it is about: the patterns decide about marks
only, an override of kinds about those of enumerations, and refusing unknown types about refusals. -/
theorem options_apart (t : CursorTable) (o : CollectOptions) :
    (∀ patterns, Collected.Alike ⟨true, false⟩ (t.declarations o)
      (t.declarations { o with patterns := patterns })) ∧
    (∀ override, Collected.Alike ⟨false, true⟩ (t.declarations o)
      (t.declarations { o with enumOverride := override })) ∧
    (t.declarations { o with failOnUnknownType := true } =
        t.declarations { o with failOnUnknownType := false } ∨
      ∃ place spelling, (t.declarations { o with failOnUnknownType := true }).1 =
        .error (.unknownType place spelling)) := by
  refine ⟨fun patterns => ?_, fun override => ?_, ?_⟩
  · have near : o.Near ⟨true, false⟩ False { o with patterns := patterns } :=
      ⟨.inl rfl, rfl, .inr rfl, .inl rfl⟩
    exact (declarations_alike near).resolve_right fun refused => refused.1
  · have near : o.Near ⟨false, true⟩ False { o with enumOverride := override } :=
      ⟨.inr rfl, rfl, .inl rfl, .inl rfl⟩
    exact (declarations_alike near).resolve_right fun refused => refused.1
  · have near : CollectOptions.Near ⟨false, false⟩ True { o with failOnUnknownType := true }
        { o with failOnUnknownType := false } :=
      ⟨.inr rfl, rfl, .inr rfl, .inr ⟨trivial, rfl⟩⟩
    exact (declarations_alike near).imp Collected.Alike.eq And.right

end CursorTable

end HeaderBind
