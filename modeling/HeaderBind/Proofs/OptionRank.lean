import HeaderBind.CommandLine.Settings
import HeaderBind.Proofs.Effect
import HeaderBind.Proofs.Strictness
import Mathlib.Data.Option.Basic
/-!
# The rank of what options are asked for

What is given on the command line counts before what the run file says, and that before the default.
Options that are lists have what the run file says first and what is given behind it.
-/
namespace HeaderBind

/-! ## What settings do to options -/

namespace BindOptions

variable {o : BindOptions} {settings : List Setting}

def isOn (o : BindOptions) : Switch → Bool
  | .builtins => o.builtins
  | .nativeEnums => o.nativeEnums
  | .dumpTree => o.dumpTree
  | .failOnUnknownType => o.failOnUnknownType
  | .deriveDebug => o.deriveDebug
  | .deriveCopy => o.deriveCopy
  | .functions => o.functions
  | .enums => o.enums
  | .objects => o.objects
  | .types => o.types
  | .layoutChecks => o.layoutChecks

/-- Options by what they are, switches and all else. -/
theorem eq_isOn (o : BindOptions) : o =
    ⟨o.patterns, o.isOn .builtins, o.isOn .nativeEnums, o.links, o.isOn .dumpTree,
      o.isOn .failOnUnknownType, o.enumOverride, o.parserArgs, o.isOn .deriveDebug,
      o.isOn .deriveCopy, o.symbolLead, o.isOn .functions, o.isOn .enums, o.isOn .objects,
      o.isOn .types, o.isOn .layoutChecks⟩ := rfl

/-- An option that settings replace is as the last of them says. -/
theorem applyAll_last {α : Type} (option : BindOptions → α) {sets : Setting → Option α}
    (step : ∀ o s, option (o.apply s) = (sets s).getD (option o)) (settings : List Setting)
    (o : BindOptions) :
    option (o.applyAll settings) = (settings.filterMap sets).getLast?.getD (option o) := by
  induction settings generalizing o with
  | nil => rfl
  | cons s settings ih =>
    rw [applyAll, List.foldl_cons, ← applyAll, ih, step]
    cases added : sets s <;> simp [added, List.getLast?_cons]

/-- An option that settings add to has what they add behind what it had. -/
theorem applyAll_added {α : Type} (option : BindOptions → List α) {adds : Setting → Option α}
    (step : ∀ o s, option (o.apply s) = option o ++ (adds s).toList) (settings : List Setting)
    (o : BindOptions) :
    option (o.applyAll settings) = option o ++ settings.filterMap adds := by
  induction settings generalizing o with
  | nil => simp [applyAll]
  | cons s settings ih =>
    rw [applyAll, List.foldl_cons, ← applyAll, ih, step]
    cases added : adds s <;> simp [added]

end BindOptions

namespace Setting

/-- How a setting turns a switch. -/
def turns? (which : Switch) : Setting → Option Bool
  | switch other on => if other = which then some on else none
  | _ => none

def parserArg? : Setting → Option String
  | parserArg arg => some arg
  | _ => none

def pattern? : Setting → Option (Option String)
  | pattern text => some text
  | _ => none

def link? : Setting → Option Link
  | link target => some target
  | _ => none

def symbolLead? : Setting → Option (Option String)
  | symbolLead text => some text
  | _ => none

def enumOverride? : Setting → Option (Option String)
  | enumOverride name => some name
  | _ => none

end Setting

namespace BindOptions

open Setting

variable (settings : List Setting) (o : BindOptions)

theorem isOn_applyAll (which : Switch) : (o.applyAll settings).isOn which =
    (settings.filterMap (turns? which)).getLast?.getD (o.isOn which) := by
  refine applyAll_last (isOn · which) (fun o s => ?_) settings o
  cases s with
  | switch other on => cases other <;> cases which <;> rfl
  | _ => cases which <;> rfl

theorem symbolLead_applyAll : (o.applyAll settings).symbolLead =
    (settings.filterMap symbolLead?).getLast?.getD o.symbolLead := by
  refine applyAll_last BindOptions.symbolLead (fun o s => ?_) settings o
  cases s with
  | switch which on => cases which <;> rfl
  | _ => rfl

theorem enumOverride_applyAll : (o.applyAll settings).enumOverride =
    (settings.filterMap enumOverride?).getLast?.getD o.enumOverride := by
  refine applyAll_last BindOptions.enumOverride (fun o s => ?_) settings o
  cases s with
  | switch which on => cases which <;> rfl
  | _ => rfl

theorem patterns_applyAll :
    (o.applyAll settings).patterns = o.patterns ++ settings.filterMap pattern? := by
  refine applyAll_added patterns (fun o s => ?_) settings o
  cases s with
  | pattern text => rfl
  | switch which on => cases which <;> exact (List.append_nil _).symm
  | _ => exact (List.append_nil _).symm

theorem links_applyAll : (o.applyAll settings).links = o.links ++ settings.filterMap link? := by
  refine applyAll_added links (fun o s => ?_) settings o
  cases s with
  | link target => rfl
  | switch which on => cases which <;> exact (List.append_nil _).symm
  | _ => exact (List.append_nil _).symm

theorem parserArgs_applyAll :
    (o.applyAll settings).parserArgs = o.parserArgs ++ settings.filterMap parserArg? := by
  refine applyAll_added parserArgs (fun o s => ?_) settings o
  cases s with
  | parserArg arg => rfl
  | switch which on => cases which <;> exact (List.append_nil _).symm
  | _ => exact (List.append_nil _).symm

end BindOptions

theorem filterMap_toList {α β : Type} (f : α → Option β) (a : Option α) :
    a.toList.filterMap f = (a.bind f).toList := by
  cases a with
  | none => rfl
  | some a => cases h : f a <;> simp [h]

theorem toList_getLast? {α : Type} (a : Option α) : a.toList.getLast? = a := by cases a <;> rfl

/-! ## What the run file asks for -/

namespace RunFile.Entries

open Setting

variable (es : Entries)

/-- The boolean under a key of the entries for what to emit. -/
def emits? (key : String) : Option Bool :=
  ((((es.get? "emit").map Value.entries).getD []).filterMap fun entry =>
    if entry.1 = key then entry.2.bool? else none).getLast?

/-- What the mapping says of a switch. -/
def says? : Switch → Option Bool
  | .builtins => es.bool? "builtins"
  | .nativeEnums => es.bool? "native_enums"
  | .dumpTree => es.bool? "emit_ast"
  | .failOnUnknownType => (es.bool? "allow_unknown_types").map (!·)
  | .deriveDebug => es.bool? "derive_debug"
  | .deriveCopy => es.bool? "derive_copy"
  | .functions => es.emits? "functions"
  | .enums => es.emits? "enums"
  | .objects => es.emits? "globals"
  | .types => es.emits? "types"
  | .layoutChecks => es.bool? "layout_checks"

theorem lookup_emitSwitches {key name : String} {which : Switch} (listed : (key, which) ∈ emitSwitches) :
    emitSwitches.lookup name = some which ↔ name = key := by
  simp only [emitSwitches, List.mem_cons, List.not_mem_nil, or_false, Prod.mk.injEq] at listed
  rcases listed with ⟨rfl, rfl⟩ | ⟨rfl, rfl⟩ | ⟨rfl, rfl⟩ | ⟨rfl, rfl⟩ <;>
    simp only [emitSwitches, List.lookup_cons, List.lookup_nil] <;> grind

theorem emitted_turned {key : String} {which : Switch} (listed : (key, which) ∈ emitSwitches) :
    (es.emitted.filterMap fun set => turns? which (switch set.1 set.2)).getLast? = es.emits? key := by
  rw [emits?, emitted, List.filterMap_filterMap]
  congr 1
  refine List.filterMap_congr fun entry _ => ?_
  obtain ⟨name, v⟩ := entry
  have same := @lookup_emitSwitches key name which listed
  unfold emitted?
  cases found : emitSwitches.lookup name with
  | none => simp_all
  | some other => cases v <;> simp_all [turns?, Value.bool?]

theorem emitted_silent {which : Switch} (unlisted : ∀ entry ∈ emitSwitches, entry.2 ≠ which) :
    (es.emitted.filterMap fun set => turns? which (switch set.1 set.2)) = [] := by
  refine List.filterMap_eq_nil_iff.mpr fun (other, on) set => ?_
  obtain ⟨⟨name, v⟩, _, made⟩ := List.mem_filterMap.mp set
  unfold emitted? at made
  cases found : emitSwitches.lookup name with
  | none => simp [found] at made
  | some listed =>
    obtain ⟨before, after, parts, _⟩ := List.lookup_eq_some_iff.mp found
    have differ : listed ≠ which := unlisted (name, listed) (by simp [parts])
    cases v <;> simp_all [turns?]

/-- What is read from the settings of a mapping, key by key. -/
theorem filterMap_changes {α : Type} (f : Setting → Option α) : (changes (steps es)).filterMap f =
    (es.texts "clang_args" ++ es.texts "headers").filterMap (fun s => f (parserArg s)) ++
      (es.texts "match").filterMap (fun s => f (pattern (some s))) ++
      es.links.filterMap (fun target => f (link target)) ++
      switches.flatMap (fun (key, which) => ((es.bool? key).bind fun on => f (switch which on)).toList) ++
      ((es.bool? "allow_unknown_types").bind fun allow => f (switch .failOnUnknownType !allow)).toList ++
      ((es.text? "link_prefix").bind fun s => f (symbolLead (some s))).toList ++
      ((es.text? "override_enum_type").bind fun s => f (enumOverride (some s))).toList ++
      es.emitted.filterMap fun set => f (switch set.1 set.2) := by
  simp only [changes_steps, List.filterMap_append, List.filterMap_map, List.filterMap_flatMap,
    filterMap_toList, Option.bind_map, Function.comp_def]

theorem turned (which : Switch) :
    ((changes (steps es)).filterMap (turns? which)).getLast? = es.says? which := by
  have listed : (es.emitted.filterMap fun set => turns? which (switch set.1 set.2)).getLast? =
      match which with
      | .functions => es.emits? "functions"
      | .enums => es.emits? "enums"
      | .objects => es.emits? "globals"
      | .types => es.emits? "types"
      | _ => none := by
    cases which with
    | functions | enums | objects | types => exact emitted_turned es (by decide)
    | _ => rw [emitted_silent es (by decide)]; rfl
  rw [filterMap_changes, List.getLast?_append, listed]
  cases which <;>
    simp [switches, turns?, says?, toList_getLast?, Option.map_eq_bind]

theorem parserArgs_asked : (changes (steps es)).filterMap parserArg? =
    es.texts "clang_args" ++ es.texts "headers" := by
  simp only [filterMap_changes, parserArg?]
  simp

theorem patterns_asked : (changes (steps es)).filterMap pattern? = (es.texts "match").map some := by
  simp only [filterMap_changes, pattern?]
  simp

theorem links_asked : (changes (steps es)).filterMap link? = es.links := by
  simp only [filterMap_changes, link?]
  simp

theorem symbolLead_asked : ((changes (steps es)).filterMap symbolLead?).getLast? =
    (es.text? "link_prefix").map some := by
  simp only [filterMap_changes, symbolLead?]
  simp [switches, toList_getLast?, Option.map_eq_bind]

theorem enumOverride_asked : ((changes (steps es)).filterMap enumOverride?).getLast? =
    (es.text? "override_enum_type").map some := by
  simp only [filterMap_changes, enumOverride?]
  simp [switches, toList_getLast?, Option.map_eq_bind]

end RunFile.Entries

/-! ## What the command line asks for -/

namespace CommandLine.Parsed

open Setting

variable (p : Parsed)

/-- What a flag makes of a switch, where it was given. -/
def flagged (f : Flag) (on : Bool) : Option Bool := if p.has f then some on else none

/-- What the command line says of a switch. -/
def says? : Switch → Option Bool
  | .builtins => p.flagged .builtins true
  | .nativeEnums => p.flagged .constantEnums false
  | .dumpTree => p.flagged .dumpTree true
  | .failOnUnknownType => p.flagged .allowUnknownTypes false
  | .deriveDebug => p.flagged .noDeriveDebug false
  | .deriveCopy => p.flagged .noDeriveCopy false
  | .functions => p.flagged .noFunctions false
  | .enums => p.flagged .noEnums false
  | .objects => p.flagged .noObjects false
  | .types => p.flagged .noTypes false
  | .layoutChecks => p.flagged .noLayoutChecks false

/-- What is read from the settings of a command line, flag by flag. -/
theorem filterMap_settings {α : Type} (f : Setting → Option α) : p.settings.filterMap f =
    p.parserArgs.filterMap (fun s => f (parserArg s)) ++
      (p.values .pattern).filterMap (fun s => f (pattern s)) ++
      (p.values .link).filterMap (fun name => f (link (name, .dynamic))) ++
      (p.values .staticLink).filterMap (fun name => f (link (name, .static))) ++
      (p.values .frameworkLink).filterMap (fun name => f (link (name, .framework))) ++
      ((p.value? .symbolLead).bind fun s => f (symbolLead s)).toList ++
      ((p.value? .enumOverride).bind fun s => f (enumOverride s)).toList ++
      switches.flatMap fun (flag, which, on) =>
        ((p.flagged flag on).bind fun on => f (switch which on)).toList := by
  have each (entries : List (Flag × Switch × Bool)) :
      ((entries.filter fun s => p.has s.1).map fun (_, which, on) =>
        Setting.switch which on).filterMap f =
      entries.flatMap fun (flag, which, on) =>
        ((p.flagged flag on).bind fun on => f (switch which on)).toList := by
    induction entries with
    | nil => rfl
    | cons entry entries ih =>
      rw [List.flatMap_cons, ← ih]
      by_cases given : p.has entry.1 = true
      · cases asked : f (switch entry.2.1 entry.2.2) <;> simp [flagged, given, asked]
      · simp [flagged, given]
  simp only [settings, List.filterMap_append, each, List.filterMap_map, filterMap_toList,
    Option.bind_map, Function.comp_def]

theorem turned (which : Switch) : (p.settings.filterMap (turns? which)).getLast? = p.says? which := by
  rw [filterMap_settings]
  cases which <;> simp [switches, turns?, says?, toList_getLast?]

theorem parserArgs_given : p.settings.filterMap parserArg? = p.parserArgs := by
  simp only [filterMap_settings, parserArg?]
  simp

theorem patterns_given : p.settings.filterMap pattern? = p.values .pattern := by
  simp only [filterMap_settings, pattern?]
  simp

/-- The links of the command line: dynamic ones first, then static ones, then frameworks. -/
def links : List Link :=
  (p.values .link).map (·, .dynamic) ++ (p.values .staticLink).map (·, .static) ++
    (p.values .frameworkLink).map (·, .framework)

theorem links_given : p.settings.filterMap link? = p.links := by
  simp only [filterMap_settings, link?]
  simp [links]

theorem symbolLead_given :
    (p.settings.filterMap symbolLead?).getLast? = p.value? .symbolLead := by
  simp only [filterMap_settings, symbolLead?]
  simp [switches, toList_getLast?]

theorem enumOverride_given :
    (p.settings.filterMap enumOverride?).getLast? = p.value? .enumOverride := by
  simp only [filterMap_settings, enumOverride?]
  simp [switches, toList_getLast?]

end CommandLine.Parsed

/-! ## Steps that tell -/

namespace Telling

variable {ε : Type}

open Effect (exec exec_bind)

theorem exec_tellAll (more events : List Event) :
    exec (more.forM tell : Telling ε Unit) events = (.ok (), events ++ more) := by
  induction more generalizing events with
  | nil =>
    change (Except.ok (), events) = _
    rw [List.append_nil]
  | cons e more ih =>
    change exec (tell e >>= fun _ => more.forM tell) events = _
    rw [exec_bind]
    change exec (more.forM tell) (events ++ [e]) = _
    rw [ih, List.append_assoc]
    rfl

end Telling

namespace RunFile

open Effect (exec)

theorem exec_excuse {α : Type} (strict : Bool) (instead : α) (x : Except Problem α) (events : List Event) :
    exec (excuse strict instead x) events = match x with
      | .ok a => (.ok a, events)
      | .error p =>
        if strict || p.escapes then (.error p, events) else (.ok instead, events ++ [p.warning]) := by
  cases x with
  | ok a => rfl
  | error p =>
    by_cases stops : (strict || p.escapes) = true <;> simp only [excuse, stops, if_true] <;> rfl

/-- What keeps a strict reader from a run file: that no mapping is there, the first problem in the mapping,
or an output that is no text. -/
def obstacle? (path : String) (content : Content) : Option Problem :=
  match mapping path content with
  | .error p => some p
  | .ok es => (problems (steps es)).head?.or
    (match output es with
      | .error p => some p
      | .ok _ => none)

theorem escapes_of_output {es : Entries} {p : Problem} (failed : output es = .error p) :
    p.escapes = false := by
  unfold output at failed
  split at failed <;> cases failed
  rfl

/-- Readers look for whatever is wrong with a mapping. -/
theorem escapes_of_obstacle? {path : String} {content : Content} {es : Entries} {p : Problem}
    (read : mapping path content = .ok es) (met : obstacle? path content = some p) :
    p.escapes = false := by
  simp only [obstacle?, read] at met
  cases first : (problems (steps es)).head? with
  | some q =>
    rw [first] at met
    obtain rfl : q = p := Option.some.inj met
    exact escapes_of_mem (mem_problems.mp (List.mem_of_mem_head? first))
  | none =>
    rw [first, Option.none_or] at met
    cases failed : output es with
    | ok _ =>
      rw [failed] at met
      cases met
    | error q =>
      rw [failed] at met
      obtain rfl : q = p := Option.some.inj met
      exact escapes_of_output failed

/-- A mapping is an obstacle to strict readers only. -/
theorem filter_obstacle? {path : String} {content : Content} {es : Entries}
    (read : mapping path content = .ok es) (strict : Bool) :
    (obstacle? path content).filter (fun problem => strict || problem.escapes) =
      if strict then obstacle? path content else none := by
  cases strict with
  | true => cases obstacle? path content <;> rfl
  | false =>
    exact Option.filter_eq_none_iff.mpr fun problem met => by simp [escapes_of_obstacle? read met]

theorem output_eq (es : Entries) :
    (match output es with
      | .ok path => path
      | .error _ => none) = es.text? "output" := by
  unfold output Entries.text?
  cases es.get? "output" with
  | none => rfl
  | some v => cases v <;> rfl

end RunFile

namespace CommandLine.Parsed

open Effect (exec exec_bind)
open Telling (exec_tellAll)
open RunFile (obstacle? problems changes steps)

variable {p : Parsed} {contentAt : String → RunFile.Content} {environment : Option String}

/-- The mapping in the run file that is named; empty where none is named or none is there. -/
def mapping (p : Parsed) (contentAt : String → RunFile.Content) : RunFile.Entries :=
  match p.runFile? with
  | none => .nil
  | some path => (RunFile.mapping path (contentAt path)).toOption.getD .nil

/-- What stops the reading of the run file: any obstacle to a strict reader, and to a lenient one what no
reader looks for. -/
def stop? (p : Parsed) (contentAt : String → RunFile.Content) (strict : Bool) :
    Option RunFile.Problem :=
  p.runFile?.bind fun path =>
    (obstacle? path (contentAt path)).filter fun problem => strict || problem.escapes

theorem outcome_fromRunFile (strict : Bool) (events : List Event) :
    (exec (p.fromRunFile contentAt strict) events).1 = match p.stop? contentAt strict with
      | some problem => .error problem
      | none => .ok (BindOptions.default.applyAll (changes (steps (p.mapping contentAt))),
          (p.mapping contentAt).text? "output") := by
  unfold fromRunFile stop? mapping
  cases p.runFile? with
  | none => rfl
  | some path =>
    simp only [Option.bind_some, RunFile.load, RunFile.outputOf, exec_bind, RunFile.exec_excuse]
    cases read : RunFile.mapping path (contentAt path) with
    | error problem =>
      have met : obstacle? path (contentAt path) = some problem := by rw [obstacle?, read]
      rw [met, Option.filter_some]
      cases escapes : problem.escapes <;> cases strict <;> simp only [escapes] <;> rfl
    | ok es =>
      simp only [Except.toOption, Option.getD_some, ← RunFile.output_eq, RunFile.filter_obstacle? read]
      cases strict with
      | false =>
        rw [RunFile.apply_lenient]
        simp only [exec_tellAll, exec_bind, RunFile.exec_excuse]
        cases asked : RunFile.output es with
        | ok _ => rfl
        | error q =>
          simp only [RunFile.escapes_of_output asked]
          rfl
      | true =>
        simp only [if_true, obstacle?, read]
        cases found : (problems (steps es)).head? with
        | some problem =>
          rw [show (RunFile.apply true es .default).2.1 = some problem from
            (RunFile.apply_strict_stop es .default).trans found]
          rfl
        | none =>
          rw [RunFile.apply_strict (List.head?_eq_none_iff.mp found)]
          simp only [exec_bind, RunFile.exec_excuse]
          cases RunFile.output es <;> rfl

/-- What a switch is by rank: as the command line says, else as the mapping says, else the default. -/
def switched (p : Parsed) (es : RunFile.Entries) (which : Switch) : Bool :=
  (p.says? which).getD ((es.says? which).getD (BindOptions.default.isOn which))

/-- The options by rank. -/
def ranked (p : Parsed) (es : RunFile.Entries) : BindOptions where
  patterns := (es.texts "match").map some ++ p.values .pattern
  builtins := p.switched es .builtins
  nativeEnums := p.switched es .nativeEnums
  links := es.links ++ p.links
  dumpTree := p.switched es .dumpTree
  failOnUnknownType := p.switched es .failOnUnknownType
  enumOverride := (p.value? .enumOverride).getD
    (((es.text? "override_enum_type").map some).getD BindOptions.default.enumOverride)
  parserArgs := es.texts "clang_args" ++ es.texts "headers" ++ p.left.erase "--"
  deriveDebug := p.switched es .deriveDebug
  deriveCopy := p.switched es .deriveCopy
  symbolLead := (p.value? .symbolLead).getD
    (((es.text? "link_prefix").map some).getD BindOptions.default.symbolLead)
  functions := p.switched es .functions
  enums := p.switched es .enums
  objects := p.switched es .objects
  types := p.switched es .types
  layoutChecks := p.switched es .layoutChecks

open BindOptions in
theorem applyAll_ranked (es : RunFile.Entries) :
    (BindOptions.default.applyAll (changes (steps es))).applyAll p.settings = p.ranked es := by
  have on (which : Switch) :
      ((BindOptions.default.applyAll (changes (steps es))).applyAll p.settings).isOn which =
        p.switched es which := by
    rw [isOn_applyAll, isOn_applyAll, turned, es.turned]
    rfl
  rw [BindOptions.eq_isOn ((BindOptions.default.applyAll (changes (steps es))).applyAll p.settings)]
  simp only [on, patterns_applyAll, links_applyAll, parserArgs_applyAll, symbolLead_applyAll,
    enumOverride_applyAll, RunFile.Entries.parserArgs_asked, RunFile.Entries.patterns_asked,
    RunFile.Entries.links_asked, RunFile.Entries.symbolLead_asked,
    RunFile.Entries.enumOverride_asked, parserArgs_given, patterns_given, links_given,
    symbolLead_given, enumOverride_given]
  rfl

/-- Whether the run file is read strictly. -/
def isStrict (p : Parsed) (environment : Option String) : Bool :=
  p.has .strict || RunFile.strictByEnvironment environment false

theorem outcome_options : (p.options contentAt environment).run.1 =
    match p.stop? contentAt (p.isStrict environment) with
      | some problem => .error problem
      | none => .ok (p.ranked (p.mapping contentAt),
          (p.nonempty? .output).or ((p.mapping contentAt).text? "output")) := by
  have read := @outcome_fromRunFile p contentAt (p.isStrict environment) []
  change (exec (p.fromRunFile contentAt (p.isStrict environment) >>= _) []).1 = _
  rw [exec_bind]
  revert read
  rcases exec (p.fromRunFile contentAt (p.isStrict environment)) [] with ⟨outcome, events⟩
  rintro (rfl : outcome = _)
  cases p.stop? contentAt (p.isStrict environment) with
  | some problem => rfl
  | none =>
    change Except.ok (_, _) = _
    rw [applyAll_ranked]
    cases p.nonempty? .output <;> rfl

/-- Where the settings of a command line and its run file can be followed, every option is as the command
line says, else as the run file says, else the default, and options that are lists have what the file says
in front of what is given. -/
theorem options_ranked {o : BindOptions} {output : Option String}
    (settled : (p.options contentAt environment).run.1 = .ok (o, output)) :
    o = p.ranked (p.mapping contentAt) ∧
      output = (p.nonempty? .output).or ((p.mapping contentAt).text? "output") := by
  rw [outcome_options] at settled
  split at settled <;> cases settled
  exact ⟨rfl, rfl⟩

/-- A run file whose lead and switch are overruled. -/
def overruledFile : RunFile.Content :=
  .value (.map (.ofList [("headers", .list (.ofList [.text "a.h"])), ("link_prefix", .text "cfg_"),
    ("emit", .map (.ofList [("types", .bool true), ("functions", .bool false)])),
    ("output", .text "cfg.py")]))

def overruling : Parsed :=
  ⟨[(.runFile, some "run.yaml"), (.symbolLead, some "cli_"), (.noTypes, none)], ["b.h", "--", "-x"]⟩

theorem options_ranked_overruled :
    ∃ o, (overruling.options (fun _ => overruledFile) none).run.1 = .ok (o, some "cfg.py") ∧
      o = overruling.ranked (overruling.mapping fun _ => overruledFile) ∧
      o.parserArgs = ["a.h", "b.h", "-x"] ∧ o.symbolLead = some "cli_" ∧ o.types = false ∧
      o.functions = false ∧ o.enums = true := by
  have settled : (overruling.options (fun _ => overruledFile) none).run.1 =
      .ok (overruling.ranked (overruling.mapping fun _ => overruledFile), some "cfg.py") := rfl
  refine ⟨_, settled, (options_ranked settled).1, ?_⟩
  decide

end CommandLine.Parsed

end HeaderBind
