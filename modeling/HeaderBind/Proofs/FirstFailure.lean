import HeaderBind.CommandLine.Run
import HeaderBind.Proofs.Diagnostics
import HeaderBind.Proofs.LeftOver
import HeaderBind.Proofs.OptionRank
/-!
# The first stage that fails

The stages of a run come in a fixed order, whatever is wrong with those that are still to come. The first
that breaks off is the last that the run comes to. Where it fails, its exit code is the exit code of the run,
unless an output that was opened before cannot be closed; where an error escapes from it, that error ends the
run. What a stage needs is named here by the world and the arguments alone: the options by their rank, and
what a phase of the pipeline is given by the results of the phases before it.
-/
namespace HeaderBind

/-! ## Phases -/

namespace Phase

/-- The order of the phases. -/
def all : List Phase := [configure, ingest, resolve, generate]

/-- A phase and those before it. -/
def upTo (p : Phase) : List Phase := all.takeWhile (· ≠ p) ++ [p]

end Phase

namespace Pipeline

open Effect (Leads)

variable (t : Tools) (o : BindOptions)

/-- Whether the first phase hands on a kind for enumerations and a toolchain. -/
def Configures (kind : Option IntKind) (f : Toolchain) : Prop := (configured t o).1 = .ok (kind, f)

/-- What the parser is called with. -/
def command (f : Toolchain) : List String := f.arguments ++ o.parserArgs

/-- What becomes of the parser's answer to a command. -/
def ingested (command : List String) : Except IngestionError ParsedUnit :=
  (ingest command (t.parse command)).1

/-- Whether the second phase hands on a unit. -/
def Ingests (kind : Option IntKind) (unit : ParsedUnit) : Prop :=
  ∃ f, Configures t o kind f ∧ ingested t (command o f) = .ok unit

/-- Whether the third phase hands on declarations. -/
def Collects (g : DeclGraph) : Prop :=
  ∃ kind unit, Ingests t o kind unit ∧ (unit.table.declarations (o.collecting kind)).1 = .ok g

/-- Whether the last phase hands on items. -/
def Makes (items : List (Item Expr)) : Prop :=
  ∃ g, Collects t o g ∧ (Binder.items ⟨g, o.emitting⟩).1 = .ok items

/-- What a phase that is come to fails with. A type that is not found while items are made would be a failure
to collect. -/
inductive Fails : Failure → Prop where
  | configure {e : ConfigurationError} (failed : (configured t o).1 = .error e) :
      Fails (.configuration e)
  | ingest {kind : Option IntKind} {f : Toolchain} {e : IngestionError}
      (configures : Configures t o kind f) (failed : ingested t (command o f) = .error e) :
      Fails (.ingestion e)
  | resolve {kind : Option IntKind} {unit : ParsedUnit} {e : ResolutionError}
      (ingests : Ingests t o kind unit)
      (failed : (unit.table.declarations (o.collecting kind)).1 = .error e) : Fails (.resolution e)
  | generate {g : DeclGraph} {e : GenerationError} (collects : Collects t o g)
      (failed : (Binder.items ⟨g, o.emitting⟩).1 = .error e) (own : ∀ r, e ≠ .unresolved r) :
      Fails (.generation e)

/-- Whether what steps left behind is this but for what they told. -/
def Untold (u s : Progress) : Prop := ∃ journal, u = { s with journal := journal }

variable {t o}

section

variable {ε α β : Type} {p : Phase} {failure : ε → Failure} {result : Except ε α × List Event}
  {f : α → Steps β} {s u : Progress}

/-- A phase that goes well hands on what it came to. -/
theorem leads_on {a : α} {outcome : Except Failure β} (went : result.1 = .ok a)
    (rest : ∀ journal,
      Leads Untold (f a) { s with journal := journal, phases := s.phases ++ [p] } outcome u) :
    Leads Untold (phase t p failure result >>= f) s outcome u := by
  have ran : Leads Untold (phase t p failure result) s (.ok a) { s with phases := s.phases ++ [p] } :=
    ⟨_, by rw [exec_phase, went]; rfl, _, rfl⟩
  exact ran.bind fun _ ⟨journal, same⟩ => same ▸ rest journal

/-- A phase that fails is the last. -/
theorem leads_off {e : ε} (failed : result.1 = .error e) :
    Leads Untold (phase t p failure result >>= f) s (.error (failure e))
      { s with phases := s.phases ++ [p] } := by
  have ran : Leads Untold (phase t p failure result) s (.error (failure e))
      { s with phases := s.phases ++ [p] } :=
    ⟨_, by rw [exec_phase, failed]; rfl, _, rfl⟩
  exact ran.stop

/-- What changes what is left behind goes well. -/
theorem leads_modify {f : Unit → Steps β} {outcome : Except Failure β} {g : Progress → Progress}
    (rest : Leads Untold (f ()) (g s) outcome u) :
    Leads Untold ((modify g : Steps Unit) >>= f) s outcome u := rest

end

/-- A run ends with the phase that fails; the parser is not called where the first one does. -/
theorem leads_of_fails {failure : Failure} (fails : Fails t o failure) :
    ∃ calls, (failure.phase = .configure → calls = []) ∧ Leads Untold (steps t o) ⟨[], noPhase, [], []⟩
      (.error failure) ⟨[], noPhase, failure.phase.upTo, calls⟩ := by
  unfold steps
  cases fails with
  | configure failed => exact ⟨[], fun _ => rfl, leads_off failed⟩
  | @ingest kind f e configures failed =>
    refine ⟨[command o f], nofun, ?_⟩
    exact leads_on configures fun _ => leads_modify (leads_off failed)
  | resolve ingests failed =>
    obtain ⟨f, configures, ingests⟩ := ingests
    refine ⟨[command o f], nofun, ?_⟩
    exact leads_on configures fun _ => leads_modify (leads_on ingests fun _ => leads_off failed)
  | generate collects failed own =>
    obtain ⟨kind, unit, ⟨f, configures, ingests⟩, collects⟩ := collects
    refine ⟨[command o f], nofun, ?_⟩
    exact leads_on configures fun _ => leads_modify (leads_on ingests fun _ =>
      leads_on collects fun _ => leads_off failed)

/-- Where no phase fails, items are made. -/
theorem leads_of_fine (fine : ∀ failure, ¬ Fails t o failure) : ∃ b calls, Makes t o b.items ∧
    Leads Untold (steps t o) ⟨[], noPhase, [], []⟩ (.ok b) ⟨[], noPhase, Phase.all, calls⟩ := by
  rcases configures : (configured t o).1 with e | ⟨kind, f⟩
  · exact absurd (.configure configures) (fine _)
  rcases ingests : ingested t (command o f) with e | unit
  · exact absurd (.ingest configures ingests) (fine _)
  rcases collects : (unit.table.declarations (o.collecting kind)).1 with e | g
  · exact absurd (.resolve ⟨f, configures, ingests⟩ collects) (fine _)
  have collected : Collects t o g := ⟨kind, unit, ⟨f, configures, ingests⟩, collects⟩
  rcases makes : (Binder.items ⟨g, o.emitting⟩).1 with e | items
  · refine absurd (.generate collected makes ?_) (fine _)
    rintro r rfl
    exact Binder.items_ne_unresolved_of_declarations collects _ r makes
  · refine ⟨⟨items, if o.dumpTree then some (unit.table.dump fun _ => true) else none⟩, [command o f],
      ⟨g, collected, makes⟩, ?_⟩
    unfold steps
    exact leads_on configures fun _ => leads_modify (leads_on ingests fun _ =>
      leads_on collects fun _ => leads_on makes fun journal => ⟨_, rfl, journal, rfl⟩)

end Pipeline

namespace CommandLine

open Effect (Leads exec exec_bind)

/-! ## Stages -/

namespace Stage

/-- The stages before a stage. -/
def before (s : Stage) : List Stage := all.takeWhile (· ≠ s)

theorem ne_ofPhase {s : Stage} (outer : s ∈ [runFile, input, output, write]) (p : Phase) :
    s ≠ ofPhase p := by
  rintro rfl
  revert outer
  cases p <;> decide

theorem output_before (p : Phase) : output ∈ (ofPhase p).before := by cases p <;> decide

/-- Only the first phase comes before any call of the parser. -/
theorem configure_of_uncalled {p : Phase} (uncalled : toolchain ∉ (ofPhase p).before) :
    p = .configure := by
  revert uncalled
  cases p <;> decide

theorem upTo_ofPhase (p : Phase) :
    [runFile, input, output] ++ p.upTo.map ofPhase = (ofPhase p).before ++ [ofPhase p] := by
  cases p <;> rfl

/-- Of the stages of which something holds, one is the first. -/
theorem exists_first {holds : Stage → Prop} {s : Stage} (some_holds : holds s) :
    ∃ s, holds s ∧ ∀ earlier ∈ s.before, ¬ holds earlier := by
  suffices first : ∀ stages : List Stage, s ∈ stages →
      ∃ s, holds s ∧ ∀ earlier ∈ stages.takeWhile (· ≠ s), ¬ holds earlier from
    first all (by cases s <;> decide)
  intro stages listed
  induction stages with
  | nil => exact absurd listed List.not_mem_nil
  | cons head rest ih =>
    by_cases at_head : holds head
    · exact ⟨head, at_head, by simp⟩
    · have other : s ≠ head := fun same => at_head (same ▸ some_holds)
      obtain ⟨first, here, none⟩ := ih (List.mem_of_ne_of_mem other listed)
      have differ : head ≠ first := fun same => at_head (same ▸ here)
      refine ⟨first, here, fun earlier listed => ?_⟩
      rw [List.takeWhile_cons_of_pos (by simpa using differ)] at listed
      rcases List.mem_cons.mp listed with rfl | listed
      · exact at_head
      · exact none earlier listed

end Stage

variable (w : World) (p : Parsed)

/-- The options of a run. -/
def options : BindOptions := p.ranked (p.mapping w.runFileAt)

/-- The path that the output of a run is filed at. -/
def outputPath : Option String :=
  ((p.nonempty? .output).or ((p.mapping w.runFileAt).text? "output")).filter (!·.isEmpty)

/-- What a stage ends a run with if the run comes to it and does not go on. -/
inductive Breaks : Stage → Break → Prop where
  | runFile {problem : RunFile.Problem} {b : Break}
      (stopped : p.stop? w.runFileAt (p.isStrict w.strictness) = some problem)
      (ends : b = .ofProblem problem) : Breaks .runFile b
  | input (empty : (options w p).parserArgs = []) : Breaks .input (.failed .input)
  | path {path reason : String} (asked : outputPath w p = some path)
      (broken : w.pathFault? path = some reason) : Breaks .output (.escaped (.opening path reason))
  | output {path : String} {fault : OpenFault} (asked : outputPath w p = some path)
      (sound : w.pathFault? path = none) (failed : w.openFault? path = some fault) :
      Breaks .output (.failed .output)
  | phase {s : Stage} {b : Break} {failure : Failure} (fails : Pipeline.Fails w.tools (options w p) failure)
      (stage : s = .ofPhase failure.phase) (ends : b = .ofFailure failure) : Breaks s b
  | write {fault : WriteFault} (failed : writeFault? w (outputPath w p) = some fault) :
      Breaks .write (.failed .write)

/-- Whether a stage is the first that breaks off, and so. -/
def FirstBreak (s : Stage) (b : Break) : Prop :=
  Breaks w p s b ∧ ∀ earlier ∈ s.before, ∀ b, ¬ Breaks w p earlier b

/-- What closing the output runs into, after this text was written to it in vain. -/
def closing? (text : String) : Option Escape :=
  (outputPath w p).bind fun path => (w.closeFault? path text).map (.closing path)

/-- What a run ends with that breaks off at a stage: what closing an output runs into that was opened by
then, else what the stage ended with. -/
def lastBreak (s : Stage) (b : Break) (text : String) : Break :=
  if .output ∈ s.before then ((closing? w p text).map .escaped).getD b else b

/-- Whether this is the text that was written in vain where a stage broke off: that of the items which were
made, if it was to be written. -/
def Vain (s : Stage) (text : String) : Prop :=
  if s = .write then
    ∃ items, Pipeline.Makes w.tools (options w p) items ∧ text = Source.textOf Preamble.parts items
  else text = ""

/-! ## Stage by stage -/

/-- Whether what steps left behind is this but for what they showed. -/
def Unshown (u r : Traces) : Prop := ∃ shown, u = { r with shown := shown }

/-- Whether steps are those of a stage: come to, it ends them if it breaks off, and else they end so. -/
structure Passes {α : Type} (s : Stage) (x : Steps α) (r : Traces) (a : α) (t : Traces) : Prop where
  stops : ∀ {b}, Breaks w p s b → Leads Unshown x r (.error b) { r with stages := r.stages ++ [s] }
  goes : (∀ b, ¬ Breaks w p s b) → Leads Unshown x r (.ok a) t

section

variable {w p} {r t : Traces}

/-- Steps go on where others ended well, whatever those showed. -/
theorem leads_on {α β : Type} {x : Steps α} {f : α → Steps β} {a : α} {outcome : Except Break β}
    {u : Traces} (first : Leads Unshown x r (.ok a) t)
    (rest : ∀ shown, Leads Unshown (f a) { t with shown := shown } outcome u) :
    Leads Unshown (x >>= f) r outcome u :=
  first.bind fun _ ⟨shown, same⟩ => same ▸ rest shown

theorem passes_settle : Passes w p .runFile (settle w p) r (options w p, outputPath w p)
    { r with stages := r.stages ++ [.runFile] } := by
  have settled := @Parsed.outcome_options p w.runFileAt w.strictness
  rcases ran : (p.options w.runFileAt w.strictness).run with ⟨outcome, events⟩
  rw [ran] at settled
  constructor
  · intro b breaks
    cases breaks with
    | phase _ stage _ => exact absurd stage (Stage.ne_ofPhase (by decide) _)
    | @runFile problem _ stopped ends =>
      rw [stopped] at settled
      obtain rfl : outcome = .error problem := settled
      subst ends
      unfold settle
      rw [ran]
      cases problem <;> exact ⟨_, rfl, _, rfl⟩
  · intro fine
    have passed : p.stop? w.runFileAt (p.isStrict w.strictness) = none := by
      by_contra stopped
      obtain ⟨problem, stopped⟩ := Option.ne_none_iff_exists'.mp stopped
      exact fine _ (.runFile stopped rfl)
    rw [passed] at settled
    obtain rfl : outcome = .ok (options w p, _) := settled
    unfold settle
    rw [ran]
    exact ⟨_, rfl, _, rfl⟩

theorem passes_checkInput : Passes w p .input (checkInput (options w p)) r ()
    { r with stages := r.stages ++ [.input] } := by
  constructor
  · intro b breaks
    cases breaks with
    | phase _ stage _ => exact absurd stage (Stage.ne_ofPhase (by decide) _)
    | input empty =>
      unfold checkInput
      rw [empty]
      exact ⟨_, rfl, _, rfl⟩
  · intro fine
    unfold checkInput
    rw [List.isEmpty_eq_false_iff.mpr fun empty => fine _ (.input empty)]
    exact ⟨_, rfl, _, rfl⟩

theorem passes_openOutput : Passes w p .output (openOutput w (outputPath w p)) r ()
    { r with stages := r.stages ++ [.output], opened := (outputPath w p).or r.opened } := by
  constructor
  · intro b breaks
    cases breaks with
    | phase _ stage _ => exact absurd stage (Stage.ne_ofPhase (by decide) _)
    | path asked broken =>
      unfold openOutput
      simp only [asked, broken]
      exact ⟨_, rfl, _, rfl⟩
    | output asked sound failed =>
      unfold openOutput
      simp only [asked, sound, failed]
      exact ⟨_, rfl, _, rfl⟩
  · intro fine
    unfold openOutput
    cases asked : outputPath w p with
    | none => exact ⟨_, rfl, _, rfl⟩
    | some path =>
      have sound : w.pathFault? path = none :=
        Option.eq_none_iff_forall_ne_some.mpr fun reason broken => fine _ (.path asked broken)
      have opens : w.openFault? path = none :=
        Option.eq_none_iff_forall_ne_some.mpr fun fault failed => fine _ (.output asked sound failed)
      simp only [sound, opens]
      exact ⟨_, rfl, _, rfl⟩

theorem generate_stops {failure : Failure} (fails : Pipeline.Fails w.tools (options w p) failure) :
    ∃ calls, (failure.phase = .configure → calls = []) ∧ ∀ r,
      Leads Unshown (generate w (options w p)) r (.error (.ofFailure failure))
        { r with
          stages := r.stages ++ failure.phase.upTo.map Stage.ofPhase
          calls := r.calls ++ calls } := by
  obtain ⟨calls, early, _, run, journal, rfl⟩ := Pipeline.leads_of_fails fails
  refine ⟨calls, early, fun r => ?_⟩
  unfold generate
  rw [show Pipeline.run w.tools (options w p) = _ from run]
  cases ends : Break.ofFailure failure <;> exact ⟨_, by simp only [ends]; rfl, _, rfl⟩

theorem generate_goes (fine : ∀ failure, ¬ Pipeline.Fails w.tools (options w p) failure) :
    ∃ b calls, Pipeline.Makes w.tools (options w p) b.items ∧ ∀ r,
      Leads Unshown (generate w (options w p)) r (.ok b)
        { r with stages := r.stages ++ Phase.all.map Stage.ofPhase, calls := r.calls ++ calls } := by
  obtain ⟨b, calls, makes, _, run, journal, rfl⟩ := Pipeline.leads_of_fine fine
  refine ⟨b, calls, makes, fun r => ?_⟩
  unfold generate
  rw [show Pipeline.run w.tools (options w p) = _ from run]
  exact ⟨_, rfl, _, rfl⟩

theorem deliver_stops (b : Bindings) {fault : WriteFault}
    (failed : writeFault? w (outputPath w p) = some fault) :
    Leads Unshown (deliver w (outputPath w p) b) r (.error (.failed .write))
      { r with stages := r.stages ++ [.write], vain := b.text } := by
  unfold deliver
  rw [failed]
  exact ⟨_, rfl, _, rfl⟩

theorem deliver_goes (b : Bindings) (sound : writeFault? w (outputPath w p) = none) :
    Leads Unshown (deliver w (outputPath w p) b) r (.ok ())
      { r with
        stages := r.stages ++ [.write]
        printed := if (outputPath w p).isNone then some b.text else r.printed
        filed := if (outputPath w p).isSome then some b.text else r.filed } := by
  unfold deliver
  rw [sound]
  cases outputPath w p <;> exact ⟨_, rfl, _, rfl⟩

/-- How closing the output ends. -/
def closed (w : World) (p : Parsed) (text : String) : Except Break Unit :=
  match closing? w p text with
  | some e => .error (.escaped e)
  | none => .ok ()

theorem leads_closeOutput {u : Traces} (same : Unshown u t) :
    Leads Unshown (closeOutput w (outputPath w p)) u (closed w p t.vain) t := by
  obtain ⟨shown, rfl⟩ := same
  refine ⟨{ t with shown := shown }, ?_, _, rfl⟩
  unfold closeOutput closed closing?
  cases outputPath w p with
  | none => rfl
  | some path =>
    have kept : exec (get : Steps Traces) { t with shown := shown } =
        (.ok { t with shown := shown }, { t with shown := shown }) := rfl
    rw [Option.bind_some, exec_bind, kept]
    cases closes : w.closeFault? path t.vain <;> simp only [closes] <;> rfl

/-- Whatever steps leave open is closed, however they end. -/
theorem leads_closed {x : Steps Unit} {outcome : Except Break Unit} (ran : Leads Unshown x r outcome t) :
    Leads Unshown (tryFinally x (closeOutput w (outputPath w p))) r
      ((closed w p t.vain).bind fun _ => outcome) t :=
  ran.closing fun _ => leads_closeOutput

theorem closed_bind_error {s : Stage} (opened : .output ∈ s.before) (b : Break) (text : String) :
    ((closed w p text).bind fun _ => .error b) =
      (.error (lastBreak w p s b text) : Except Break Unit) := by
  rw [closed, lastBreak, if_pos opened]
  cases closing? w p text <;> rfl

/-- What is told at the end changes nothing. -/
theorem leads_told {x : Steps Unit} {output : Option String} {outcome : Except Break Unit}
    (ran : Leads Unshown x r outcome t) :
    Leads Unshown (x >>= fun _ => match output with
      | some path => Steps.log .info ("wrote " ++ path)
      | none => pure ()) r outcome t := by
  cases outcome with
  | error b => exact ran.stop
  | ok _ => exact leads_on ran fun shown => by cases output <;> exact ⟨_, rfl, _, rfl⟩

/-! ## Runs -/

/-- Where nothing is wrong up to the output, the run goes on with that open, and closes it. -/
theorem leads_opened {outcome : Except Break Unit}
    (fine : ∀ s ∈ Stage.toolchain.before, ∀ b, ¬ Breaks w p s b)
    (rest : ∀ shown, Leads Unshown (generate w (options w p) >>= deliver w (outputPath w p))
      ⟨Stage.toolchain.before, shown, [], outputPath w p, none, none, ""⟩ outcome t)
    {text : String} (vain : t.vain = text) :
    Leads Unshown (stages w p) .blank ((closed w p text).bind fun _ => outcome) t := by
  subst vain
  refine leads_on (passes_settle.goes (fine _ (by decide))) fun _ =>
    leads_on (passes_checkInput.goes (fine _ (by decide))) fun _ =>
      leads_on (passes_openOutput.goes (fine _ (by decide))) fun shown => ?_
  rw [Traces.blank, Option.or_none]
  exact leads_told (leads_closed (rest shown))

/-- A run in which opening the output is the first to break off ends there. -/
theorem leads_unopened {b : Break} (breaks : Breaks w p .output b)
    (fine : ∀ earlier ∈ Stage.output.before, ∀ b, ¬ Breaks w p earlier b) :
    Leads Unshown (stages w p) .blank (.error b)
      ⟨Stage.output.before ++ [.output], [], [], none, none, none, ""⟩ :=
  leads_on (passes_settle.goes (fine _ (by decide))) fun _ =>
    leads_on (passes_checkInput.goes (fine _ (by decide))) fun _ => (passes_openOutput.stops breaks).stop

/-- A run in which a phase is the first to break off ends there. -/
theorem leads_phase {failure : Failure} (fails : Pipeline.Fails w.tools (options w p) failure)
    (fine : ∀ earlier ∈ (Stage.ofPhase failure.phase).before, ∀ b, ¬ Breaks w p earlier b) :
    ∃ calls, (failure.phase = .configure → calls = []) ∧
      Leads Unshown (stages w p) .blank ((closed w p "").bind fun _ => .error (.ofFailure failure))
        ⟨(Stage.ofPhase failure.phase).before ++ [.ofPhase failure.phase], [], calls, outputPath w p, none,
          none, ""⟩ := by
  obtain ⟨calls, early, run⟩ := generate_stops fails
  refine ⟨calls, early, leads_opened (fun s early => fine s ?_) (fun shown => ?_) rfl⟩
  · revert s
    cases failure.phase <;> decide
  · rw [← Stage.upTo_ofPhase]
    exact (run _).stop

/-- The first break is where the run ends. -/
theorem leads_of_firstBreak {s : Stage} {b : Break} (first : FirstBreak w p s b) :
    ∃ calls text, (Stage.toolchain ∉ s.before → calls = []) ∧ Vain w p s text ∧
      Leads Unshown (stages w p) .blank (.error (lastBreak w p s b text))
        ⟨s.before ++ [s], [], calls, if .output ∈ s.before then outputPath w p else none, none, none,
          text⟩ := by
  obtain ⟨breaks, fine⟩ := first
  cases breaks with
  | runFile stopped ends =>
    exact ⟨[], "", fun _ => rfl, rfl, (passes_settle.stops (.runFile stopped ends)).stop⟩
  | input empty =>
    refine ⟨[], "", fun _ => rfl, rfl, ?_⟩
    exact leads_on (passes_settle.goes (fine _ (by decide))) fun _ =>
      (passes_checkInput.stops (.input empty)).stop
  | path asked broken => exact ⟨[], "", fun _ => rfl, rfl, leads_unopened (.path asked broken) fine⟩
  | output asked sound failed =>
    exact ⟨[], "", fun _ => rfl, rfl, leads_unopened (.output asked sound failed) fine⟩
  | @phase _ _ failure fails stage ends =>
    subst stage ends
    obtain ⟨calls, early, run⟩ := leads_phase fails fine
    have opened : .output ∈ (Stage.ofPhase failure.phase).before := Stage.output_before _
    refine ⟨calls, "", fun unmet => early (Stage.configure_of_uncalled unmet), ?_, ?_⟩
    · have inner : Stage.ofPhase failure.phase ≠ .write := (Stage.ne_ofPhase (by decide) _).symm
      rw [Vain, if_neg inner]
    · rw [if_pos opened, ← closed_bind_error opened]
      exact run
  | write failed =>
    obtain ⟨b, calls, makes, run⟩ := generate_goes fun failure fails =>
      fine (.ofPhase failure.phase) (by cases failure.phase <;> decide) _ (.phase fails rfl rfl)
    refine ⟨calls, b.text, fun unmet => absurd (by decide) unmet, ⟨b.items, makes, rfl⟩, ?_⟩
    rw [← closed_bind_error (by decide)]
    refine leads_opened (fun s early => fine s ?_)
      (fun shown => leads_on (run _) fun _ => deliver_stops b failed) rfl
    revert s
    decide

/-- Where no stage breaks off, the run comes to its end. -/
theorem leads_of_fine (fine : ∀ s b, ¬ Breaks w p s b) :
    ∃ (b : Bindings) (calls : _), Pipeline.Makes w.tools (options w p) b.items ∧
      Leads Unshown (stages w p) .blank (closed w p "")
        ⟨Stage.all, [], calls, outputPath w p, if (outputPath w p).isNone then some b.text else none,
          if (outputPath w p).isSome then some b.text else none, ""⟩ := by
  obtain ⟨b, calls, makes, run⟩ := generate_goes fun failure fails => fine _ _ (.phase fails rfl rfl)
  have sound : writeFault? w (outputPath w p) = none :=
    Option.eq_none_iff_forall_ne_some.mpr fun fault failed => fine _ _ (.write failed)
  have closes : ((closed w p "").bind fun _ => .ok ()) = closed w p "" := by
    cases closed w p "" <;> rfl
  refine ⟨b, calls, makes, ?_⟩
  rw [← closes]
  exact leads_opened (fun s _ => fine s)
    (fun shown => leads_on (run _) fun _ => deliver_goes b sound) rfl

end

/-- What a run with these arguments leaves behind. -/
def leftBehind : Traces := (exec (stages w p) .blank).2

/-- Whether a run ends at a stage that breaks off: it came to the stages before it and to no other, the
parser was not called before it was its turn, and nothing was written before the last stage. Its exit code
is that of the stage where that fails and, if an output is open, closing it goes well. -/
structure StopsAt (s : Stage) (b : Break) (ending : Ending) : Prop where
  stages : (leftBehind w p).stages = s.before ++ [s]
  ended : ∃ text, Vain w p s text ∧ ending.exitCode = (lastBreak w p s b text).exitCode ∧
    ending.escaped = (lastBreak w p s b text).escape?
  uncalled : Stage.toolchain ∉ s.before → ending.calls = []
  unwritten : s ≠ .write → ending.standardOutput = "" ∧
    ending.file = if .output ∈ s.before then (outputPath w p).map (·, "") else none

/-- Whether a run came to all stages, and the text of the items that it makes was written to the output and
nothing else. Its exit code is zero where closing the output goes well. -/
structure Delivers (ending : Ending) : Prop where
  stages : (leftBehind w p).stages = Stage.all
  ended : ending.exitCode = (if (closing? w p "").isSome then 1 else 0) ∧
    ending.escaped = closing? w p ""
  written : ∃ items, Pipeline.Makes w.tools (options w p) items ∧
    match outputPath w p with
    | some path =>
      ending.file = some (path, Source.textOf Preamble.parts items) ∧ ending.standardOutput = ""
    | none => ending.file = none ∧ ending.standardOutput = Source.textOf Preamble.parts items

section

variable {w p} {runId : String}

/-- How a run ends is read off what its stages lead to. -/
theorem ending_of_leads {outcome : Except Break Unit} {t : Traces}
    (leads : Leads Unshown (stages w p) .blank outcome t) :
    (leftBehind w p).stages = t.stages ∧ ∃ standardError, runParsed w runId p =
      { exitCode := exitCode outcome
        calls := t.calls
        standardOutput := t.printed.getD ""
        standardError := standardError
        file := t.opened.map fun path => (path, t.filed.getD "")
        escaped := escape? outcome } := by
  obtain ⟨_, run, shown, rfl⟩ := leads
  refine ⟨by rw [leftBehind, run], "".intercalate (shown.map (Shown.visible runId p.logLevel)), ?_⟩
  have ran : (ExceptT.run (stages w p)).run .blank = _ := run
  simp only [runParsed, ran]

theorem stopsAt_of_firstBreak {s : Stage} {b : Break} (first : FirstBreak w p s b) :
    StopsAt w p s b (runParsed w runId p) := by
  obtain ⟨calls, text, early, vain, leads⟩ := leads_of_firstBreak first
  obtain ⟨came, standardError, ends⟩ := @ending_of_leads w p runId _ _ leads
  rw [ends]
  refine ⟨came, ⟨text, vain, rfl, rfl⟩, early, fun _ => ⟨rfl, ?_⟩⟩
  by_cases opened : Stage.output ∈ s.before <;> simp [opened]

theorem delivers_of_fine (fine : ∀ s b, ¬ Breaks w p s b) : Delivers w p (runParsed w runId p) := by
  obtain ⟨b, calls, makes, leads⟩ := leads_of_fine fine
  obtain ⟨came, standardError, ends⟩ := @ending_of_leads w p runId _ _ leads
  rw [ends]
  refine ⟨came, ?_, b.items, makes, ?_⟩
  · unfold closed
    cases closing? w p "" <;> exact ⟨rfl, rfl⟩
  · cases outputPath w p <;> exact ⟨rfl, rfl⟩

/-- Of stages that break off there is a first. -/
theorem exists_firstBreak {s : Stage} {b : Break} (breaks : Breaks w p s b) :
    ∃ s b, FirstBreak w p s b := by
  obtain ⟨first, ⟨b, here⟩, none⟩ := @Stage.exists_first (fun s => ∃ b, Breaks w p s b) s ⟨b, breaks⟩
  exact ⟨first, b, here, fun earlier listed b breaks => none earlier listed ⟨b, breaks⟩⟩

end

theorem Break.exitCode_ne_zero (b : Break) : b.exitCode ≠ 0 := by
  cases b with
  | failed s => cases s <;> decide
  | escaped e => exact Nat.one_ne_zero

/-! ## Values -/

/-- Whether everything given has its value, if it takes one. -/
def HaveValues (given : List Given) : Prop := ∀ g ∈ given, g.1.takesValue = true → g.2.isSome = true

theorem haveValues_append {given more : List Given} (first : HaveValues given) (last : HaveValues more) :
    HaveValues (given ++ more) := fun g listed =>
  (List.mem_append.mp listed).elim (first g) (last g)

theorem haveValues_bare {f : Flag} (bare : ¬ f.takesValue = true) : HaveValues [(f, none)] := by
  intro g listed takes
  obtain rfl := List.mem_singleton.mp listed
  exact absurd takes bare

theorem haveValues_valued {f : Flag} {text : String} : HaveValues [(f, some text)] := by
  intro g listed _
  obtain rfl := List.mem_singleton.mp listed
  rfl

namespace Bundle

theorem haveValues_single {f : Flag} : HaveValues (single f).complete := by
  unfold single
  split
  · exact fun g listed => absurd listed List.not_mem_nil
  · rename_i bare
    exact haveValues_bare bare

/-- By the late rules whatever is complete in an argument has its value. -/
theorem haveValues_openLate {f : Flag} {tail : List Char} {b : Bundle} (opened : openLate? f tail = .ok b) :
    HaveValues b.complete := by
  fun_induction openLate? f tail generalizing b with
  | case1 f =>
    cases opened
    exact haveValues_single
  | case2 | case4 =>
    cases opened
    exact haveValues_valued
  | case3 | case5 => cases opened
  | case6 f c rest other bare dash unknown =>
    cases opened
    exact haveValues_bare bare
  | case7 f c rest other bare dash g known ih =>
    cases behind : openLate? g rest with
    | error e =>
      rw [behind] at opened
      cases opened
    | ok b' =>
      rw [behind] at opened
      cases opened
      exact haveValues_append (haveValues_bare bare) (ih behind)

end Bundle

/-- By the late rules every flag that takes a value has one. -/
theorem haveValues_of_late {arguments : List String} {p : Parsed}
    (accepted : Parsed.read .late arguments = .ok p) : HaveValues p.given := by
  fun_induction Parsed.read .late arguments generalizing p with
  | case1 | case2 =>
    cases accepted
    exact fun g listed => absurd listed List.not_mem_nil
  | case3 a rest dash word ih | case4 a rest dash word ih =>
    obtain ⟨q, whole, rfl⟩ := Parsed.map_withLeft accepted
    exact (ih whole : HaveValues q.given)
  | case5 | case8 | case10 => cases accepted
  | case6 a rest dash f short tail word complete bundle ih =>
    obtain ⟨q, whole, rfl⟩ := Parsed.checked_map accepted
    exact haveValues_append (Bundle.haveValues_openLate bundle) (ih whole)
  | case7 a rest dash f short tail word complete text bundle ih =>
    obtain ⟨q, whole, rfl⟩ := Parsed.checked_map accepted
    exact haveValues_append (Bundle.haveValues_openLate bundle) (ih whole)
  | case9 a dash f short tail word complete g bundle v rest value given =>
    rename_i ih
    obtain ⟨q, whole, rfl⟩ := Parsed.checked_map accepted
    exact haveValues_append
      (haveValues_append (Bundle.haveValues_openLate bundle) haveValues_valued) (ih whole)

/-! ## The first break -/

/-- Where the arguments can be followed, the first stage that breaks off decides: the run ends there, with
its exit code if it fails. The exit code is zero exactly if no stage breaks off and the output can be closed;
if no stage breaks off, the module is written. This is so for arguments in which every flag has its value,
which by the late rules are all. Where help is asked for or the arguments are refused, no stage is come
to. -/
theorem first_failure_decides (runId : String) (arguments : List String) :
    Stage.all.map Stage.exitCode = [3, 2, 3, 3, 4, 5, 6, 7] ∧
      match Parsed.read w.release arguments with
      | .error .helped => run w runId arguments = ⟨0, [], helpText, "", none, none⟩
      | .error (.refused e) => run w runId arguments = ⟨2, [], "", e.report, none, none⟩
      | .ok p => (w.release = .late → HaveValues p.given) ∧ (HaveValues p.given →
        (∀ s b, FirstBreak w p s b → StopsAt w p s b (run w runId arguments)) ∧
        ((run w runId arguments).exitCode = 0 ↔ (∀ s b, ¬ Breaks w p s b) ∧ closing? w p "" = none) ∧
        ((∀ s b, ¬ Breaks w p s b) → Delivers w p (run w runId arguments))) := by
  refine ⟨by decide, ?_⟩
  unfold run
  rcases accepted : Parsed.read w.release arguments with (_ | e) | p
  · rfl
  · rfl
  refine ⟨fun late => haveValues_of_late (late ▸ accepted), fun _ => ⟨fun s b => stopsAt_of_firstBreak,
    ⟨fun zero => ?_, fun ⟨fine, closes⟩ => ?_⟩, delivers_of_fine⟩⟩
  · have fine : ∀ s b, ¬ Breaks w p s b := by
      intro s b breaks
      obtain ⟨first, b', here⟩ := exists_firstBreak breaks
      have stops : StopsAt w p first b' (runParsed w runId p) := stopsAt_of_firstBreak here
      obtain ⟨text, -, code, -⟩ := stops.ended
      exact Break.exitCode_ne_zero _ (code.symm.trans zero)
    have code := (delivers_of_fine fine : Delivers w p (runParsed w runId p)).ended.1
    refine ⟨fine, Option.not_isSome_iff_eq_none.mp fun closing => ?_⟩
    rw [zero, if_pos closing] at code
    cases code
  · rw [(delivers_of_fine fine).ended.1, closes]
    rfl

/-! ## An output that takes nothing -/

def noSpace : WriteFault := .other "[Errno 28] No space left on device"

/-- A world in which a header without declarations is taken in, where run files are directories and one
output takes nothing. A text written to that is kept, and written again when it is closed. -/
def narrow : World where
  release := .late
  runFileAt path := .unreadable ("[Errno 21] Is a directory: " ++ Text.quoted path)
  strictness := none
  openFault? _ := none
  tools := ⟨(.ok ⟨none, []⟩, []), fun _ => .unit ⟨#[], #[], []⟩ [], fun _ => 0⟩
  standardOutput := none
  fileFault? path := if path = "/dev/full" then some noSpace else none
  closeFault? path text := if path = "/dev/full" ∧ text ≠ "" then some noSpace else none

/-- A header, and an output for its bindings. -/
def filed (path : String) : Parsed := ⟨[(.output, some path)], ["x.h"]⟩

theorem options_filed (path : String) :
    options narrow (filed path) = { BindOptions.default with parserArgs := ["x.h"] } := rfl

theorem outputPath_filed {path : String} (named : path ≠ "") : outputPath narrow (filed path) = some path := by
  have given : (filed path).nonempty? .output = some path := by
    simp [filed, Parsed.nonempty?, Parsed.value?, Parsed.values, named]
  simp [outputPath, given, named]

theorem declarations_none : ((⟨#[], #[], []⟩ : CursorTable).declarations
    (BindOptions.default.collecting none)).1 = .ok ⟨[], true, List.nodup_nil⟩ := by
  change ((ExceptT.run (Collector.collect ⟨⟨#[], #[], []⟩, BindOptions.default.collecting none⟩ [])).run
    .start).1 = _
  unfold Collector.collect Collector.collectWithin
  cbv

theorem items_none : ((Binder.items ⟨⟨[], true, List.nodup_nil⟩, BindOptions.default.emitting⟩).1).map
    (List.map Item.name) = .ok [] := by cbv

theorem fails_filed (path : String) (failure : Failure) :
    ¬ Pipeline.Fails narrow.tools (options narrow (filed path)) failure := by
  rw [options_filed]
  intro fails
  cases fails with
  | configure failed => cases failed
  | ingest configures failed => cases failed
  | resolve ingests failed =>
    obtain ⟨f, configures, taken⟩ := ingests
    cases configures
    cases taken
    cases declarations_none.symm.trans failed
  | @generate g e collects failed own =>
    obtain ⟨kind, unit, ⟨f, configures, taken⟩, collected⟩ := collects
    cases configures
    cases taken
    cases declarations_none.symm.trans collected
    have same : (Binder.items ⟨⟨[], true, List.nodup_nil⟩, BindOptions.default.emitting⟩).1 = .error e :=
      failed
    have made := items_none
    rw [same] at made
    cases made

theorem textOf_ne_empty (parts : List String) (items : List (Item Expr)) :
    Source.textOf parts items ≠ "" := by
  intro empty
  have chars := congrArg String.toList empty
  simp [Source.textOf, Source.text, Sheet.text] at chars

theorem breaks_filed {path : String} (named : path ≠ "") {s : Stage} {b : Break}
    (breaks : Breaks narrow (filed path) s b) : path = "/dev/full" ∧ s = .write ∧ b = .failed .write := by
  cases breaks with
  | runFile stopped _ => cases stopped
  | input empty => cases empty
  | path asked broken => cases broken
  | output asked sound failed => cases failed
  | phase fails _ _ => exact absurd fails (fails_filed path _)
  | write failed =>
    rw [outputPath_filed named] at failed
    refine ⟨?_, rfl, rfl⟩
    by_contra other
    simp [writeFault?, narrow, other] at failed

theorem firstBreak_full : FirstBreak narrow (filed "/dev/full") .write (.failed .write) := by
  have named : outputPath narrow (filed "/dev/full") = some "/dev/full" := outputPath_filed (by decide)
  have failed : writeFault? narrow (outputPath narrow (filed "/dev/full")) = some noSpace := by
    rw [named]
    rfl
  refine ⟨.write failed, fun earlier listed b breaks => ?_⟩
  obtain ⟨-, rfl, -⟩ := breaks_filed (by decide) breaks
  exact absurd listed (by decide)

/-- Where all goes well the module is written; where the output takes nothing, writing it is the last stage
that is come to. -/
theorem first_failure_decides_filed :
    (∃ p, Parsed.read .late ["-o", "a.py", "x.h"] = .ok p ∧ (∀ s b, ¬ Breaks narrow p s b) ∧
      (run narrow "run0" ["-o", "a.py", "x.h"]).exitCode = 0 ∧
      Delivers narrow p (run narrow "run0" ["-o", "a.py", "x.h"])) ∧
    ∃ p, Parsed.read .late ["-o", "/dev/full", "x.h"] = .ok p ∧
      FirstBreak narrow p .write (.failed .write) ∧
      StopsAt narrow p .write (.failed .write) (run narrow "run0" ["-o", "/dev/full", "x.h"]) := by
  have fine : ∀ s b, ¬ Breaks narrow (filed "a.py") s b := by
    intro s b breaks
    exact absurd (breaks_filed (by decide) breaks).1 (by decide)
  have closes : closing? narrow (filed "a.py") "" = none := by
    rw [closing?, outputPath_filed (by decide)]
    rfl
  obtain ⟨late, good⟩ := (first_failure_decides narrow "run0" ["-o", "a.py", "x.h"]).2
  obtain ⟨late', full⟩ := (first_failure_decides narrow "run0" ["-o", "/dev/full", "x.h"]).2
  obtain ⟨-, zero, delivers⟩ := good (late rfl)
  exact ⟨⟨filed "a.py", rfl, fine, zero.mpr ⟨fine, closes⟩, delivers fine⟩,
    filed "/dev/full", rfl, firstBreak_full, (full (late' rfl)).1 _ _ firstBreak_full⟩

/-- A stage that fails first need not decide: the output is still to be closed. And what readers of run
files do not look for fails no stage. -/
theorem errors_escape :
    (¬ ∀ (w : World) (arguments : List String) (p : Parsed) (s : Stage),
      Parsed.read w.release arguments = .ok p → FirstBreak w p s (.failed s) →
        (run w "run0" arguments).exitCode = s.exitCode) ∧
    (run narrow "run0" ["--config", "conf", "x.h"]).escaped =
      some (.reading "conf" "[Errno 21] Is a directory: 'conf'") := by
  refine ⟨fun decides => ?_, by decide +kernel⟩
  have seven : (run narrow "run0" ["-o", "/dev/full", "x.h"]).exitCode = 7 :=
    decides narrow _ (filed "/dev/full") .write rfl firstBreak_full
  have stops : StopsAt narrow (filed "/dev/full") .write (.failed .write)
      (run narrow "run0" ["-o", "/dev/full", "x.h"]) := stopsAt_of_firstBreak firstBreak_full
  obtain ⟨text, ⟨items, -, rfl⟩, code, -⟩ := stops.ended
  have closing : closing? narrow (filed "/dev/full") (Source.textOf Preamble.parts items) =
      some (.closing "/dev/full" noSpace) := by
    rw [closing?, outputPath_filed (by decide), Option.bind_some]
    simp [narrow, textOf_ne_empty]
  rw [seven, lastBreak, closing] at code
  cases code

end CommandLine

end HeaderBind
