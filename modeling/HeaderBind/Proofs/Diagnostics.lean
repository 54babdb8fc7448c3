import HeaderBind.Pipeline
import HeaderBind.Proofs.Effect
import HeaderBind.Proofs.FrozenGraph
import HeaderBind.Proofs.Walk.Turning
/-!
# What a run tells of its outcome

Each stage tells a failure once, at its end, and nothing else as an error: the walk because none of its
turns does, a module because only its warnings are told on the way, and nothing that is looked up for it
is missing. A phase tells what its stage does under its own name, and however it ends, the phase that was
current before is so again. So the diagnostics of a run come phase by phase, and the last of them is the
error that it failed with.
-/
namespace HeaderBind

/-- Whether none of the events is an error. -/
def Mild (events : List Event) : Prop := ∀ message, Event.error message ∉ events

/-- Whether events end with an error of this text, and none before it is an error. -/
def EndsIn (message : String) (events : List Event) : Prop :=
  ∃ before, Mild before ∧ events = before ++ [.error message]

/-- Whether what a stage told says how it ended. -/
def Tells {ε α : Type} (message : ε → String) : Except ε α × List Event → Prop
  | (.ok _, events) => Mild events
  | (.error e, events) => EndsIn (message e) events

theorem Tells.failed {ε α : Type} {message : ε → String} {result : Except ε α × List Event} {e : ε}
    (tells : Tells message result) (failed : result.1 = .error e) : EndsIn (message e) result.2 := by
  obtain ⟨_, _⟩ := result
  cases failed
  exact tells

theorem Tells.went {ε α : Type} {message : ε → String} {result : Except ε α × List Event} {a : α}
    (tells : Tells message result) (went : result.1 = .ok a) : Mild result.2 := by
  obtain ⟨_, _⟩ := result
  cases went
  exact tells

/-- The events that are meant for the user. -/
def diagnostics (events : List Event) : List Event := events.filter Event.isDiagnostic

section

variable {events more : List Event} {e : Event} {message : String}

theorem mild_nil : Mild [] := by
  simp [Mild]

theorem Mild.append (h : Mild events) (k : Mild more) : Mild (events ++ more) := by
  intro message told
  exact (List.mem_append.mp told).elim (h message) (k message)

theorem Mild.snoc (h : Mild events) (mild : ∀ message, e ≠ .error message) : Mild (events ++ [e]) :=
  h.append fun message told => mild message (List.mem_singleton.mp told).symm

theorem Mild.diagnostics (h : Mild events) : Mild (diagnostics events) :=
  fun message told => h message (List.mem_of_mem_filter told)

theorem Mild.endsIn (h : Mild events) : EndsIn message (events ++ [.error message]) := ⟨events, h, rfl⟩

theorem EndsIn.diagnostics (h : EndsIn message events) : EndsIn message (diagnostics events) := by
  obtain ⟨before, mild, rfl⟩ := h
  exact ⟨HeaderBind.diagnostics before, mild.diagnostics, by
    simp [HeaderBind.diagnostics, Event.isDiagnostic]⟩

end

/-! ## Collecting -/

namespace Collector

open Collect (State exec)

variable {w : Collector} {tops : List CursorId} {s t : State}

/-- No turn tells an error. -/
theorem Course.mild (course : Course w tops s t) (before : Mild s.events) : Mild t.events := by
  induction course with
  | refl => exact before
  | tail _ turn ih =>
    cases turn with
    | tell mild => exact ih.snoc mild
    | _ => exact ih

end Collector

theorem CursorTable.tells_declarations (t : CursorTable) (options : CollectOptions) :
    Tells ResolutionError.message (t.declarations options) := by
  let w : Collector := ⟨t, options⟩
  have walked : Mild (Collect.exec (w.walk (w.visit w.depthBound) t.tops) .start).2.events := by
    have course := ((Collector.turning_visit w.depthBound).forM t.tops
      (Collector.traced_noted : w.Traced (w.noted t.tops)) (List.Subset.refl _)).course
    exact course.mild mild_nil
  have run : t.declarations options =
      ((Collect.exec (w.collectWithin w.depthBound t.tops) .start).1,
        (Collect.exec (w.collectWithin w.depthBound t.tops) .start).2.events) := rfl
  rw [run, Collector.exec_collectWithin]
  rcases ended : Collect.exec (w.walk (w.visit w.depthBound) t.tops) .start with ⟨e | _, last⟩ <;>
    rw [ended] at walked
  · exact Mild.endsIn walked
  · simp only []
    cases last.graph.freeze with
    | error e => exact Mild.endsIn walked
    | ok g => exact Mild.snoc walked (by simp)

/-! ## Making a module -/

namespace Generate

variable {α β : Type}

/-- Whether a step of the generator tells no error. -/
def StaysMild (x : Generate α) : Prop :=
  ∀ s : NameTable, Mild s.events → Mild ((ExceptT.run x).run s).2.events

namespace StaysMild

theorem pure (a : α) : StaysMild (Pure.pure a : Generate α) := fun _ mild => mild

theorem ofExcept (x : Except GenerationError α) : StaysMild (Generate.ofExcept x) := by
  intro s mild
  cases x <;> exact mild

theorem tell {e : Event} (mild : ∀ message, e ≠ .error message) : StaysMild (Generate.tell e) :=
  fun _ before => before.snoc mild

theorem bind {x : Generate α} {f : α → Generate β} (hx : StaysMild x) (hf : ∀ a, StaysMild (f a)) :
    StaysMild (x >>= f) := by
  intro s mild
  rw [run_bind]
  have between := hx s mild
  rcases h : (ExceptT.run x).run s with ⟨e | a, t⟩ <;> rw [h] at between
  · exact between
  · exact hf a t between

theorem mapM {f : α → Generate β} (each : ∀ a, StaysMild (f a)) (as : List α) :
    StaysMild (as.mapM f) := by
  induction as with
  | nil =>
    rw [List.mapM_nil]
    exact .pure []
  | cons a as ih =>
    rw [List.mapM_cons]
    exact .bind (each a) fun _ => .bind ih fun _ => .pure _

theorem claim (name owner : String) : StaysMild (Generate.claim name owner) := by
  intro s mild
  rw [run_claim]
  cases s.taken.lookup (Name.bound name) <;> exact mild

end StaysMild

end Generate

namespace Binder

open Generate (StaysMild)

variable {b : Binder}

theorem staysMild_recordItem (d : Decl) (r : Record) : StaysMild (b.recordItem d r) := by
  unfold recordItem
  refine .bind (.claim _ _) fun _ => .bind (.ofExcept _) fun _ => ?_
  split
  · exact .bind (.tell (by simp)) fun _ => .pure _
  · exact .pure _

theorem staysMild_constantItems (d : Decl) (e : Enumeration) : StaysMild (constantItems d e) :=
  .bind (.claim _ _) fun _ =>
    .bind (.mapM (fun _ => .bind (.claim _ _) fun _ => .pure _) _) fun _ => .pure _

theorem staysMild_enumItems (d : Decl) (e : Enumeration) : StaysMild (b.enumItems d e) := by
  unfold enumItems
  split
  · exact .bind (.claim _ _) fun _ => .pure _
  · exact .bind (.tell (by simp)) fun _ => staysMild_constantItems d e
  · exact staysMild_constantItems d e

theorem staysMild_contribution (d : Decl) : StaysMild (b.contribution d) := by
  unfold contribution
  refine .bind (.ofExcept _) fun emitted => ?_
  split
  · exact .pure _
  · split
    · exact .bind (staysMild_recordItem d _) fun _ => .pure _
    · exact .bind (staysMild_enumItems d _) fun _ => .pure _
    · exact .bind (.bind (.claim _ _) fun _ => .bind (.ofExcept _) fun _ => .pure _) fun _ => .pure _
    · exact .bind (.ofExcept _) fun _ => .pure _
    · exact .bind (.ofExcept _) fun _ => .pure _

theorem staysMild_linkGroups (functions : List (Item.Function Expr)) (objects : List (Item.Object Expr)) :
    StaysMild (b.linkGroups functions objects) := by
  unfold linkGroups
  simp only []
  split
  · split
    · exact .pure _
    · exact .bind (.claim _ _) fun _ => .pure _
  · exact .mapM (fun _ => .bind (.claim _ _) fun _ => .pure _) _

theorem staysMild_allItems (b : Binder) : StaysMild b.allItems :=
  .bind (.mapM staysMild_contribution _) fun _ => .bind (.ofExcept _) fun _ =>
    .bind (.ofExcept _) fun _ => .bind (staysMild_linkGroups _ _) fun _ => .pure _

/-- Whatever is looked up while a module is made from a closed graph that passed the check is there. -/
theorem items_ne_unresolved (closed : b.graph.Closed) (acyclic : b.graph.Acyclic)
    (e : ResolutionError) : b.items.1 ≠ .error (.unresolved e) := by
  have types : b.TypesFailIn fun e => ∀ r, e ≠ .unresolved r := by
    refine typesFailIn_of_closed closed (by simp) fun {type} typed => ?_
    obtain ⟨c, found⟩ := DeclGraph.canonical_ok closed.whole acyclic
      fun k hk => DeclGraph.mem_keys_of_namesType (typed k hk)
    simp only [Binder.canonical, found]
    exact .ok c
  have failed := items_failsIn types (by simp) fun parts _ => ordered_failsIn (by simp) _
  exact fun same => failed _ same e rfl

/-- Where nothing that is looked up is missing, making a module tells its failure. -/
theorem tells_items (known : ∀ e, b.items.1 ≠ .error (.unresolved e)) :
    Tells GenerationError.message b.items := by
  have mild := staysMild_allItems b ⟨Name.reserved.map fun n => (n, "the module runtime"), []⟩ mild_nil
  have failed := items_outcome b ▸ known
  unfold items
  simp only []
  rcases made : (ExceptT.run b.allItems).run
    ⟨Name.reserved.map fun n => (n, "the module runtime"), []⟩ with ⟨e | items, s⟩ <;>
    rw [made] at mild failed
  · cases e with
    | unresolved e => exact absurd rfl (failed e)
    | _ => exact Mild.endsIn mild
  · exact Mild.snoc mild (by simp)

/-- Nothing that is looked up while a module is made from the declarations of a unit is missing. -/
theorem items_ne_unresolved_of_declarations {t : CursorTable} {collecting : CollectOptions} {g : DeclGraph}
    (collected : (t.declarations collecting).1 = .ok g) (options : EmitOptions) (e : ResolutionError) :
    (Binder.items ⟨g, options⟩).1 ≠ .error (.unresolved e) := by
  let w : Collector := ⟨t, collecting⟩
  obtain ⟨last, run, frozen, _⟩ := Collector.walk_of_collected
    (Prod.ext collected rfl : Collect.exec (w.collectWithin w.depthBound t.tops) .start = (.ok g, _))
  have sound := (Collector.proceeds_visit t.tops (Collector.sound_start (w := w))).path.sound
    Collector.sound_start
  rw [run] at sound
  obtain ⟨_, acyclic⟩ := DeclGraph.sound_of_freeze frozen
  obtain ⟨_, rfl⟩ := DeclGraph.freeze_eq_ok frozen
  have closed : ({ last.graph with frozen := true } : DeclGraph).Closed := sound.closed
  exact items_ne_unresolved closed acyclic e

/-- Making a module from the declarations of a unit tells its failure. -/
theorem tells_items_of_declarations {t : CursorTable} {collecting : CollectOptions} {g : DeclGraph}
    (collected : (t.declarations collecting).1 = .ok g) (options : EmitOptions) :
    Tells GenerationError.message (Binder.items ⟨g, options⟩) :=
  tells_items (items_ne_unresolved_of_declarations collected options)

end Binder

/-! ## Looking for a toolchain -/

namespace Library

variable {loads : String → Bool} {l : Loader}

theorem diagnostics_load : diagnostics (l.load loads).events = diagnostics l.events := by
  unfold Loader.load
  simp only []
  split
  · rfl
  · split
    · rfl
    · simp [diagnostics, Event.isDiagnostic]

theorem diagnostics_tryFiles (files : List String) :
    diagnostics (tryFiles loads files l).2.events = diagnostics l.events := by
  induction files generalizing l with
  | nil => rfl
  | cons file rest ih =>
    unfold tryFiles
    simp only []
    split
    · exact diagnostics_load
    · exact ih.trans diagnostics_load

theorem diagnostics_find (s : Surroundings) :
    diagnostics (find s l).2.events = diagnostics l.events := by
  unfold find
  split
  · rfl
  · split
    · exact diagnostics_load
    · split
      · exact diagnostics_load
      · simp only []
        split
        · exact diagnostics_load
        · exact (diagnostics_tryFiles _).trans diagnostics_load

theorem diagnostics_ensure (tree : FileTree) (path : Option String) :
    diagnostics (ensure tree loads path l).events = diagnostics l.events := by
  unfold ensure
  split
  · split
    · rfl
    · split
      · exact diagnostics_load
      · split <;> exact diagnostics_load
  · exact diagnostics_load

end Library

theorem Compiler.diagnostics_survey (run : String → Run) (compilers : List String) :
    diagnostics (survey run compilers).events = [] := by
  induction compilers with
  | nil => rfl
  | cons name rest ih =>
    unfold survey
    split
    · simp only []
      split
      · exact ih
      · rfl
    · exact ih

/-- Nothing that is told about a toolchain is meant for the user. -/
theorem FrontEnd.diagnostics_toolchain (f : FrontEnd) : diagnostics f.toolchain.2 = [] := by
  cases f with
  | sought s run compilers loaded file =>
    have found : diagnostics (Library.find s (.start loaded file)).2.events = [] :=
      Library.diagnostics_find s
    unfold toolchain Toolchain.locate
    simp only []
    rcases search : Library.find s (.start loaded file) with ⟨_ | library, l⟩ <;> rw [search] at found
    · exact found
    · change (l.events ++ Toolchain.announcement library ::
        (Compiler.survey run compilers).events).filter Event.isDiagnostic = []
      rw [List.filter_append, show l.events.filter Event.isDiagnostic = [] from found]
      exact Compiler.diagnostics_survey run compilers
  | given t tree loads loaded file => exact Library.diagnostics_ensure tree t.library

/-! ## Phases -/

namespace Pipeline

open Effect (exec exec_bind exec_pure exec_throw exec_tryFinally)

namespace Steps

theorem exec_tellAll (events : List Event) (s : Progress) :
    exec (events.forM tell) s =
      (.ok (), { s with journal := s.journal ++ Journal.of s.current events }) := by
  induction events generalizing s with
  | nil =>
    change (Except.ok (), s) = _
    simp [Journal.of]
  | cons e events ih =>
    change exec (tell e >>= fun _ => events.forM tell) s = _
    rw [exec_bind]
    change exec (events.forM tell) _ = _
    rw [ih]
    simp [Journal.of]

end Steps

open Steps

variable (t : Tools)

/-- However its steps end, a phase tells how long they took and makes the phase before it current
again. -/
theorem exec_within {α : Type} (p : Phase) (steps : Steps α) (s : Progress) :
    exec (within t p steps) s =
      let ended := exec steps { s with current := p.name, phases := s.phases ++ [p] }
      (ended.1, { ended.2 with
        journal := ended.2.journal ++ [⟨ended.2.current, Journal.finished p.name (t.took p)⟩]
        current := s.current }) := by
  have entered : exec (within t p steps) s =
      exec (tryFinally steps (do
        Steps.tell (Journal.finished p.name (t.took p))
        Steps.makeCurrent s.current))
      { s with current := p.name, phases := s.phases ++ [p] } := rfl
  rw [entered, exec_tryFinally]
  rfl

/-- A phase tells its events, and how long they took, and ends as its outcome says. -/
theorem exec_phase {ε α : Type} (p : Phase) (failure : ε → Failure)
    (result : Except ε α × List Event) (s : Progress) :
    exec (phase t p failure result) s = (result.1.mapError failure, { s with
      journal := s.journal ++
        Journal.of p.name (result.2 ++ [Journal.finished p.name (t.took p)])
      phases := s.phases ++ [p] }) := by
  obtain ⟨outcome, events⟩ := result
  unfold phase
  rw [exec_within, exec_bind, exec_tellAll]
  cases outcome <;> simp [Journal.of, Except.mapError, exec_pure, exec_throw]

/-! ## Runs -/

/-- The diagnostics of a journal. -/
def reported (journal : Journal) : Journal := journal.filter (·.event.isDiagnostic)

/-- Of what a phase tells, its diagnostics are those of its stage. -/
theorem reported_phase (journal : Journal) (p : Phase) (events : List Event) :
    reported (journal ++ Journal.of p.name (events ++ [Journal.finished p.name (t.took p)])) =
      reported journal ++ Journal.of p.name (diagnostics events) := by
  have quiet : (Journal.finished p.name (t.took p)).isDiagnostic = false := rfl
  simp [reported, Journal.of, diagnostics, List.filter_map, Function.comp_def, quiet]

/-- What is known of running steps: the phase that was current is so again, and how they end goes with
the diagnostics so far. -/
structure Leaves {α : Type} (x : Steps α) (s : Progress) (post : Except Failure α → Journal → Prop) :
    Prop where
  current : (exec x s).2.current = s.current
  reports : post (exec x s).1 (reported (exec x s).2.journal)

/-- A phase ends the steps where it fails, and leaves its diagnostics to those after it where it does
not. -/
theorem Leaves.phase {ε α β : Type} {p : Phase} {failure : ε → Failure}
    {result : Except ε α × List Event} {f : α → Steps β} {s : Progress}
    {post : Except Failure β → Journal → Prop}
    (fails : ∀ e, result.1 = .error e →
      post (.error (failure e)) (reported s.journal ++ Journal.of p.name (diagnostics result.2)))
    (goesOn : ∀ a u, result.1 = .ok a → u.current = s.current →
      reported u.journal = reported s.journal ++ Journal.of p.name (diagnostics result.2) →
      Leaves (f a) u post) : Leaves (Pipeline.phase t p failure result >>= f) s post := by
  have ran := exec_bind (Pipeline.phase t p failure result) f s
  rw [exec_phase] at ran
  cases ended : result.1 with
  | error e =>
    rw [ended] at ran
    have ran : exec (Pipeline.phase t p failure result >>= f) s = (.error (failure e), _) := ran
    refine ⟨by rw [ran], ?_⟩
    rw [ran, reported_phase]
    exact fails e ended
  | ok a =>
    rw [ended] at ran
    let u : Progress := { s with
      journal := s.journal ++ Journal.of p.name (result.2 ++ [Journal.finished p.name (t.took p)])
      phases := s.phases ++ [p] }
    have ran : exec (Pipeline.phase t p failure result >>= f) s = exec (f a) u := ran
    obtain ⟨current, reports⟩ := goesOn a u ended rfl (reported_phase t s.journal p result.2)
    exact ⟨ran ▸ current, ran ▸ reports⟩

theorem Leaves.change {β : Type} {g : Progress → Progress} {f : Unit → Steps β} {s : Progress}
    {post : Except Failure β → Journal → Prop} (same : (g s).current = s.current)
    (left : Leaves (f ()) (g s) post) : Leaves ((modify g : Steps Unit) >>= f) s post :=
  ⟨left.current.trans same, left.reports⟩

/-- How the diagnostics of a run say how it ended: they come phase by phase, none of the first, and the
error of a phase that failed is the last. -/
inductive Reports : Except Failure Bindings → Journal → Prop where
  | made (b : Bindings) (ingested : List Event) {resolved generated : List Event}
      (collected : Mild resolved) (written : Mild generated) :
      Reports (.ok b) (Journal.of Phase.ingest.name ingested ++
        Journal.of Phase.resolve.name resolved ++ Journal.of Phase.generate.name generated)
  | configuration (e : ConfigurationError) : Reports (.error (.configuration e)) []
  | ingestion (e : IngestionError) (ingested : List Event) :
      Reports (.error (.ingestion e)) (Journal.of Phase.ingest.name ingested)
  | resolution (e : ResolutionError) (ingested : List Event) {resolved : List Event}
      (failed : EndsIn e.message resolved) :
      Reports (.error (.resolution e)) (Journal.of Phase.ingest.name ingested ++
        Journal.of Phase.resolve.name resolved)
  | generation (e : GenerationError) (ingested : List Event) {resolved generated : List Event}
      (collected : Mild resolved) (failed : EndsIn e.message generated) :
      Reports (.error (.generation e)) (Journal.of Phase.ingest.name ingested ++
        Journal.of Phase.resolve.name resolved ++ Journal.of Phase.generate.name generated)

variable {t} in
theorem diagnostics_configured (quiet : diagnostics t.toolchain.2 = []) (o : BindOptions) :
    diagnostics (configured t o).2 = [] := by
  unfold configured
  split
  · rfl
  · split <;> rename_i found <;> rwa [found] at quiet

/-- The diagnostics of every run, whatever phase it is run in, come phase by phase, and a run that fails
to collect declarations or to make a module tells so once, last of all and in the words of its failure;
nothing else that these phases tell is an error. The phase that was current is so again. -/
theorem diagnostics_tell_outcome (f : FrontEnd) (parse : List String → ParserAnswer)
    (took : Phase → Nat) (outer : String) (o : BindOptions) :
    (runFrom ⟨f.toolchain, parse, took⟩ outer o).2.current = outer ∧
      Reports (runFrom ⟨f.toolchain, parse, took⟩ outer o).1
        (reported (runFrom ⟨f.toolchain, parse, took⟩ outer o).2.journal) := by
  let t : Tools := ⟨f.toolchain, parse, took⟩
  have quiet : diagnostics (configured t o).2 = [] := diagnostics_configured f.diagnostics_toolchain o
  suffices left : Leaves (steps t o) ⟨[], outer, [], []⟩ Reports from ⟨left.current, left.reports⟩
  refine .phase t (fun e _ => ?_) fun (kind, toolchain) s _ outside none => ?_
  · rw [quiet]
    exact .configuration e
  rw [quiet] at none
  refine .change rfl (.phase t (fun e _ => ?_) fun unit u _ _ told => ?_)
  · rw [show reported _ = [] from none]
    exact .ingestion e _
  rw [show reported _ = [] from none] at told
  have collecting := unit.table.tells_declarations (o.collecting kind)
  refine .phase t (fun e failed => ?_) fun g v collected _ told' => ?_
  · rw [told]
    exact .resolution e _ (collecting.failed failed).diagnostics
  rw [told] at told'
  have making := Binder.tells_items_of_declarations collected o.emitting
  refine .phase t (fun e failed => ?_) fun items x made _ told => ?_
  · rw [told']
    exact .generation e _ (collecting.went collected).diagnostics (making.failed failed).diagnostics
  · rw [told'] at told
    refine ⟨rfl, ?_⟩
    change Reports (.ok _) (reported x.journal)
    rw [told]
    exact .made _ _ (collecting.went collected).diagnostics (making.went made).diagnostics

end Pipeline

end HeaderBind
