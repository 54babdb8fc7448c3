import HeaderBind.RunFile
import Mathlib.Data.List.Basic
/-!
# What a mapping asks for, key by key

The steps of a mapping are read through what stands under each key: the settings that they change come
from the values that fit their keys, and a value that does not fit is a problem.
-/
namespace HeaderBind.RunFile

namespace Value

def bool? : Value → Option Bool
  | bool b => some b
  | _ => none

/-- The texts of a list of texts or of a single one. -/
def texts : Value → List String
  | text s => [s]
  | list vs => vs.texts?.getD []
  | _ => []

/-- The entries of a list that are links. -/
def links : Value → List Link
  | list vs => vs.toList.filterMap fun entry => (linkOf entry).toOption
  | _ => []

def entries : Value → List (String × Value)
  | map es => es.toList
  | _ => []

end Value

/-- The switch that an entry for what to emit sets, and how. -/
def emitted? (entry : String × Value) : Option (Switch × Bool) :=
  match emitSwitches.lookup entry.1, entry.2 with
  | some which, .bool on => some (which, on)
  | _, _ => none

namespace Entries

variable (es : Entries) (key : String)

def bool? : Option Bool := (es.get? key).bind Value.bool?

def text? : Option String := (es.get? key).bind Value.text?

def texts : List String := ((es.get? key).map Value.texts).getD []

def links : List Link := ((es.get? "links").map Value.links).getD []

/-- The switches that the entries for what to emit set. -/
def emitted : List (Switch × Bool) :=
  (((es.get? "emit").map Value.entries).getD []).filterMap emitted?

end Entries

section

variable {es : Entries} {key : String} {asked more : List Step}

@[simp]
theorem changes_append : changes (asked ++ more) = changes asked ++ changes more :=
  List.filterMap_append

@[simp]
theorem problems_append : problems (asked ++ more) = problems asked ++ problems more :=
  List.filterMap_append

@[simp]
theorem changes_cons_problem (p : Problem) : changes (.problem p :: asked) = changes asked := rfl

@[simp]
theorem changes_nil : changes [] = [] := rfl

@[simp]
theorem problems_nil : problems [] = [] := rfl

@[simp]
theorem problems_cons_problem (p : Problem) (asked : List Step) :
    problems (.problem p :: asked) = p :: problems asked := rfl

@[simp]
theorem problems_cons_change (s : Setting) (asked : List Step) :
    problems (.change s :: asked) = problems asked := rfl

theorem changes_map_change {α : Type} (f : α → Setting) (as : List α) :
    changes (as.map fun a => .change (f a)) = as.map f := by
  simp [changes, List.filterMap_map]

theorem changes_unknownKeySteps : changes (unknownKeySteps es) = [] := by
  simp [changes, unknownKeySteps, List.filterMap_map]

theorem changes_textSteps (setting : String → Setting) :
    changes (textSteps es key setting) = (es.texts key).map setting := by
  unfold textSteps Entries.texts
  cases es.get? key with
  | none => rfl
  | some v =>
    cases v with
    | list vs => cases read : vs.texts? <;> simp [Value.texts, read, changes_map_change]
    | _ => rfl

theorem changes_boolSteps (setting : Bool → Setting) :
    changes (boolSteps es key setting) = ((es.bool? key).map setting).toList := by
  unfold boolSteps Entries.bool?
  cases es.get? key with
  | none => rfl
  | some v => cases v <;> rfl

theorem changes_wordSteps (setting : String → Setting) :
    changes (wordSteps es key setting) = ((es.text? key).map setting).toList := by
  unfold wordSteps Entries.text?
  cases es.get? key with
  | none => rfl
  | some v => cases v <;> rfl

theorem changes_linkSteps : changes (linkSteps es) = es.links.map .link := by
  unfold linkSteps Entries.links
  cases es.get? "links" with
  | none => rfl
  | some v =>
    cases v with
    | list vs =>
      simp only [changes, List.filterMap_append, List.filterMap_filterMap, List.filterMap_map,
        Value.links, Option.map_some, Option.getD_some, List.map_filterMap]
      -- The problems among the links come first, and change nothing.
      rw [List.filterMap_eq_nil_iff.mpr fun entry _ => ?_, List.nil_append]
      · refine List.filterMap_congr fun entry _ => ?_
        simp only [Function.comp_apply]
        cases linkOf entry <;> rfl
      · simp only [Function.comp_apply]
        cases linkOf entry <;> rfl
    | _ => rfl

theorem changes_emitSteps :
    changes (emitSteps es) = es.emitted.map fun (which, on) => .switch which on := by
  unfold emitSteps Entries.emitted
  cases es.get? "emit" with
  | none => rfl
  | some v =>
    cases v with
    | map entries =>
      simp only [changes, Value.entries, Option.map_some, Option.getD_some, List.filterMap_map,
        List.map_filterMap]
      refine List.filterMap_congr fun (name, value) _ => ?_
      simp only [Function.comp_apply, emitStep, emitted?]
      rcases emitSwitches.lookup name with _ | which <;> cases value <;> rfl
    | _ => rfl

/-- The settings that a mapping asks for. -/
theorem changes_steps : changes (steps es) =
    (es.texts "clang_args" ++ es.texts "headers").map .parserArg ++
      (es.texts "match").map (.pattern ∘ some) ++
      es.links.map .link ++
      switches.flatMap (fun (key, which) => ((es.bool? key).map (.switch which)).toList) ++
      ((es.bool? "allow_unknown_types").map fun allow => .switch .failOnUnknownType !allow).toList ++
      ((es.text? "link_prefix").map (.symbolLead ∘ some)).toList ++
      ((es.text? "override_enum_type").map (.enumOverride ∘ some)).toList ++
      es.emitted.map fun (which, on) => .switch which on := by
  have each (entries : List (String × Switch)) :
      changes (entries.flatMap fun (key, which) => boolSteps es key (.switch which)) =
        entries.flatMap fun (key, which) => ((es.bool? key).map (.switch which)).toList := by
    induction entries with
    | nil => rfl
    | cons entry entries ih => simp only [List.flatMap_cons, changes_append, changes_boolSteps, ih]
  simp only [steps, changes_append, changes_unknownKeySteps, changes_textSteps,
    changes_linkSteps, each, changes_boolSteps, changes_wordSteps, changes_emitSteps,
    List.nil_append, List.map_append]

end

/-! ## Following the steps -/

theorem applyStrict_problem (asked : List Step) (o : BindOptions) :
    (applyStrict asked o).2 = (problems asked).head? := by
  induction asked generalizing o with
  | nil => rfl
  | cons step asked ih =>
    cases step with
    | change s => exact ih (o.apply s)
    | problem p => rfl

theorem applyStrict_eq {asked : List Step} (sound : problems asked = []) (o : BindOptions) :
    applyStrict asked o = (o.applyAll (changes asked), none) := by
  induction asked generalizing o with
  | nil => rfl
  | cons step asked ih =>
    cases step with
    | change s => exact ih sound (o.apply s)
    | problem p => cases sound

theorem apply_lenient (es : Entries) (o : BindOptions) : apply false es o =
    (o.applyAll (changes (steps es)), none, (problems (steps es)).map Problem.warning) := rfl

theorem apply_strict {es : Entries} (sound : problems (steps es) = []) (o : BindOptions) :
    apply true es o = (o.applyAll (changes (steps es)), none, []) := by
  rw [apply, if_pos rfl, applyStrict_eq sound]

theorem apply_strict_stop (es : Entries) (o : BindOptions) :
    (apply true es o).2.1 = (problems (steps es)).head? := applyStrict_problem (steps es) o

end HeaderBind.RunFile
