import HeaderBind.Proofs.Diagnostics
/-!
# The parser's remarks

Each remark is routed by its severity alone: it is told as an error, as a warning or not at all. All of
them are routed before a fatal one ends the run, and however taking them in ends, it gives all of them
back.
-/
namespace HeaderBind

/-- What the user hears of remarks that come one after the other. -/
inductive Routed : List Diagnostic → List Event → Prop
  | nil : Routed [] []
  | error {d : Diagnostic} {ds : List Diagnostic} {events : List Event} : 3 ≤ d.severity →
      Routed ds events → Routed (d :: ds) (.error d.line :: events)
  | warning {d : Diagnostic} {ds : List Diagnostic} {events : List Event} : d.severity = 2 →
      Routed ds events → Routed (d :: ds) (.warning d.line :: events)
  | quiet {d : Diagnostic} {ds : List Diagnostic} {events : List Event} : d.severity < 2 →
      Routed ds events → Routed (d :: ds) events

namespace Routed

variable {d : Diagnostic} {ds : List Diagnostic} {events more : List Event}

/-- Another remark in front adds what it is told as. -/
theorem cons (d : Diagnostic) (rest : Routed ds events) :
    Routed (d :: ds) (d.event?.toList ++ events) := by
  unfold Diagnostic.event? Diagnostic.errorAt Diagnostic.warningAt
  by_cases severe : 3 ≤ d.severity
  · rw [if_pos severe]
    exact .error severe rest
  · by_cases warning : d.severity = 2
    · rw [if_neg severe, if_pos warning]
      exact .warning warning rest
    · rw [if_neg severe, if_neg warning]
      exact .quiet (by omega) rest

theorem filterMap (ds : List Diagnostic) : Routed ds (ds.filterMap Diagnostic.event?) := by
  induction ds with
  | nil => exact .nil
  | cons d ds ih =>
    have routed := ih.cons d
    rw [List.filterMap_cons]
    cases told : d.event? with
    | none => rwa [told] at routed
    | some e => rwa [told] at routed

/-- The severities leave no choice. -/
theorem unique (routed : Routed ds events) (other : Routed ds more) : events = more := by
  induction routed generalizing more with
  | nil =>
    cases other
    rfl
  | error severe _ ih =>
    cases other with
    | error _ rest => rw [ih rest]
    | warning _ _ => omega
    | quiet _ _ => omega
  | warning warning _ ih =>
    cases other with
    | error _ _ => omega
    | warning _ rest => rw [ih rest]
    | quiet _ _ => omega
  | quiet quiet _ ih =>
    cases other with
    | error _ _ => omega
    | warning _ _ => omega
    | quiet _ rest => exact ih rest

/-- Remarks are told to the user only. -/
theorem diagnostics_eq (routed : Routed ds events) : diagnostics events = events := by
  induction routed with
  | nil => rfl
  | error _ _ ih => exact congrArg (_ :: ·) ih
  | warning _ _ ih => exact congrArg (_ :: ·) ih
  | quiet _ _ ih => exact ih

end Routed

theorem any_isFatal_iff {ds : List Diagnostic} :
    ds.any Diagnostic.isFatal = true ↔ ∃ d ∈ ds, 4 ≤ d.severity := by
  rw [List.any_eq_true]
  refine exists_congr fun d => and_congr_right fun _ => ?_
  exact decide_eq_true_iff

/-- Of the remarks on a unit the user hears exactly what their severities ask for, in their order. A
remark of severity 4 or more is what makes the unit fail, and it does so when all of them were told: the
error has every one of them, as the unit has that is given otherwise. -/
theorem remarks_routed (arguments : List String) (table : CursorTable) (ds : List Diagnostic) :
    let result := ingest arguments (.unit table ds)
    (∀ events, diagnostics result.2 = events ↔ Routed ds events) ∧
    ((∃ e, result.1 = .error e) ↔ ∃ d ∈ ds, 4 ≤ d.severity) ∧
    (∀ e, result.1 = .error e → e.diagnostics = ds ∧ Routed ds result.2) ∧
    ∀ unit, result.1 = .ok unit → unit.table = table ∧ unit.diagnostics = ds := by
  intro result
  have routed := Routed.filterMap ds
  have exactly {events : List Event} (told : diagnostics events = ds.filterMap Diagnostic.event?) :
      ∀ other, diagnostics events = other ↔ Routed ds other := by
    intro other
    rw [told]
    constructor
    · intro same
      exact same ▸ routed
    · exact routed.unique
  by_cases fatal : ds.any Diagnostic.isFatal = true
  · have ends : result = (.error (.fatal ds), ds.filterMap Diagnostic.event?) := if_pos fatal
    rw [ends]
    refine ⟨exactly routed.diagnostics_eq, ?_, ?_, ?_⟩
    · exact ⟨fun _ => any_isFatal_iff.mp fatal, fun _ => ⟨_, rfl⟩⟩
    · intro e failed
      obtain rfl := Except.error.inj failed
      exact ⟨rfl, routed⟩
    · intro unit given
      cases given
  · have ends : result = (.ok ⟨table, ds⟩, ds.filterMap Diagnostic.event? ++ [.trace .info Reporter.toolchain
        ("Parsed translation unit with " ++ toString ds.length ++ " diagnostics")]) := if_neg fatal
    rw [ends]
    refine ⟨exactly ?_, ?_, ?_, ?_⟩
    · -- the trace behind the remarks is not for the user
      rw [diagnostics, List.filter_append]
      exact (List.append_nil _).trans routed.diagnostics_eq
    · constructor
      · intro fails
        obtain ⟨_, failed⟩ := fails
        cases failed
      · intro severe
        exact absurd (any_isFatal_iff.mpr severe) fatal
    · intro e failed
      cases failed
    · intro unit given
      obtain rfl := Except.ok.inj given
      exact ⟨rfl, rfl⟩

/-- A severity without a word counts as what its number says, though the line calls it a note. -/
example (table : CursorTable) : ingest [] (.unit table [⟨2, "unused", none⟩, ⟨1, "here", none⟩, ⟨7, "lost", none⟩]) =
    (.error (.fatal [⟨2, "unused", none⟩, ⟨1, "here", none⟩, ⟨7, "lost", none⟩]),
      [.warning "<command line>: warning: unused", .error "<command line>: note: lost"]) := by
  rfl

end HeaderBind
