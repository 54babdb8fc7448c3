import HeaderBind.Proofs.RunFileKeys
/-!
# Strict and lenient reading

A strict reader of a run file stops at the first thing that a lenient one warns of. What the lenient one
warns of it leaves out, so it comes to the options that a strict reader finds in what is left of the
mapping: the keys that are known, with what can be kept of their values.
-/
namespace HeaderBind.RunFile

/-- What a key takes. -/
inductive Kind where
  | bool | text | texts | links | emitted
  /-- No option depends on the value. -/
  | unread
  deriving DecidableEq

/-- The keys that are known. -/
def kinds : List (String × Kind) :=
  switches.map (fun (key, _) => (key, .bool)) ++
    [("headers", .texts), ("clang_args", .texts), ("match", .texts), ("links", .links),
      ("link_prefix", .text), ("allow_unknown_types", .bool), ("override_enum_type", .text),
      ("emit", .emitted), ("output", .unread)]

/-- What can be kept of a value: all of it where it fits, and of the links and of the entries for what to
emit those that can be followed. -/
def Kind.keep? : Kind → Value → Option Value
  | .bool, .bool b => some (.bool b)
  | .text, .text s => some (.text s)
  | .texts, .text s => some (.text s)
  | .texts, .list vs => vs.texts?.map fun _ => .list vs
  | .links, .list vs => some (.list (.ofList (vs.toList.filter fun entry => (linkOf entry).isOk)))
  | .emitted, .map es => some (.map (.ofList (es.toList.filter fun entry => (emitted? entry).isSome)))
  | .unread, v => some v
  | _, _ => none

/-- What can be kept of the value under a key. -/
def Entries.kept? (es : Entries) (key : String) : Option Value :=
  (kinds.lookup key).bind fun kind => (es.get? key).bind kind.keep?

/-- The mapping without what a lenient reader leaves out. Where a key stands more than once, its first
value counts. -/
def Entries.mended (es : Entries) : Entries :=
  .ofList (es.toList.filterMap fun entry => (es.kept? entry.1).map (entry.1, ·))

/-! ## What is left of a mapping -/

@[simp]
theorem Values.toList_ofList (vs : List Value) : (Values.ofList vs).toList = vs := by
  induction vs with
  | nil => rfl
  | cons v vs ih => rw [Values.ofList, Values.toList, ih]

@[simp]
theorem Values.ofList_toList : ∀ vs : Values, .ofList vs.toList = vs
  | .nil => rfl
  | .cons v vs => by rw [Values.toList, Values.ofList, ofList_toList vs]

@[simp]
theorem Entries.toList_ofList (es : List (String × Value)) : (Entries.ofList es).toList = es := by
  induction es with
  | nil => rfl
  | cons e es ih => rw [Entries.ofList, Entries.toList, ih]

@[simp]
theorem Entries.ofList_toList : ∀ es : Entries, .ofList es.toList = es
  | .nil => rfl
  | .cons key v es => by rw [Entries.toList, Entries.ofList, ofList_toList es]

theorem Values.ofList_eq_iff {vs : Values} {entries : List Value} :
    .ofList entries = vs ↔ entries = vs.toList :=
  ⟨fun same => by rw [← same, toList_ofList], fun same => by rw [same, ofList_toList]⟩

theorem Entries.ofList_eq_iff {es : Entries} {entries : List (String × Value)} :
    .ofList entries = es ↔ entries = es.toList :=
  ⟨fun same => by rw [← same, toList_ofList], fun same => by rw [same, ofList_toList]⟩

variable {es : Entries} {key : String} {kind : Kind} {v w : Value}

/-- Entries that are filled in by their keys are looked up by filling in. -/
theorem lookup_filled {α β : Type} (entries : List (String × α)) (f : String → Option β)
    (absent : entries.lookup key = none → f key = none) :
    (entries.filterMap fun entry => (f entry.1).map (entry.1, ·)).lookup key = f key := by
  induction entries with
  | nil => exact (absent rfl).symm
  | cons entry entries ih =>
    obtain ⟨name, a⟩ := entry
    by_cases same : key = name
    · subst same
      cases filled : f key with
      | none => simpa [filled] using ih fun _ => filled
      | some b => simp [filled]
    · have differ : (key == name) = false := by simpa using same
      have absent : entries.lookup key = none → f key = none := by
        simpa [List.lookup_cons, differ] using absent
      cases filled : f name with
      | none => simpa [filled] using ih absent
      | some b => simpa [filled, List.lookup_cons, differ] using ih absent

theorem get?_mended : es.mended.get? key = es.kept? key := by
  rw [Entries.get?, Entries.mended, Entries.toList_ofList]
  refine lookup_filled es.toList es.kept? fun absent => ?_
  simp [Entries.kept?, Entries.get?, absent]

/-- What was kept of a value is kept whole. -/
theorem Kind.keep?_kept (kept : kind.keep? v = some w) : kind.keep? w = some w := by
  cases kind with
  | unread => rfl
  | links =>
    cases v <;> cases kept
    simp [Kind.keep?]
  | emitted =>
    cases v <;> cases kept
    simp [Kind.keep?]
  | texts =>
    cases v with
    | text s =>
      cases kept
      rfl
    | list vs =>
      obtain ⟨texts, read, rfl⟩ := Option.map_eq_some_iff.mp kept
      simp [Kind.keep?, read]
    | _ => cases kept
  | bool | text =>
    cases v <;> cases kept
    rfl

/-! ## Where there is no problem -/

/-- Whether a value under a key is one of the kind. -/
def Entries.Fits (es : Entries) (key : String) (kind : Kind) : Prop :=
  ∀ v, es.get? key = some v → kind.keep? v = some v

theorem mem_problems {asked : List Step} {p : Problem} : p ∈ problems asked ↔ .problem p ∈ asked := by
  simp only [problems, List.mem_filterMap]
  constructor
  · rintro ⟨_ | q, step, found⟩ <;> cases found
    exact step
  · exact fun step => ⟨_, step, rfl⟩

theorem problems_eq_nil_iff {asked : List Step} : problems asked = [] ↔ ∀ p, .problem p ∉ asked := by
  simp only [List.eq_nil_iff_forall_not_mem, mem_problems]

theorem problems_boolSteps (setting : Bool → Setting) :
    problems (boolSteps es key setting) = [] ↔ es.Fits key .bool := by
  unfold boolSteps Entries.Fits
  cases es.get? key with
  | none => simp
  | some v => cases v <;> simp [Kind.keep?]

theorem problems_wordSteps (setting : String → Setting) :
    problems (wordSteps es key setting) = [] ↔ es.Fits key .text := by
  unfold wordSteps Entries.Fits
  cases es.get? key with
  | none => simp
  | some v => cases v <;> simp [Kind.keep?]

theorem problems_map_change {α : Type} (f : α → Setting) (as : List α) :
    problems (as.map fun a => .change (f a)) = [] := by
  simp [problems, List.filterMap_map]

theorem problems_textSteps (setting : String → Setting) :
    problems (textSteps es key setting) = [] ↔ es.Fits key .texts := by
  unfold textSteps Entries.Fits
  cases es.get? key with
  | none => simp
  | some v =>
    cases v with
    | list vs => cases read : vs.texts? <;> simp [Kind.keep?, read, problems_map_change]
    | _ => simp [Kind.keep?]

theorem problem_mem_linkSteps_iff {vs : Values} (listed : es.get? "links" = some (.list vs)) {p : Problem} :
    .problem p ∈ linkSteps es ↔ ∃ entry ∈ vs.toList, linkOf entry = .error p := by
  simp only [linkSteps, listed, List.mem_append, List.mem_filterMap, List.mem_map]
  constructor
  · rintro (⟨_, ⟨entry, member, rfl⟩, found⟩ | ⟨_, ⟨entry, member, rfl⟩, found⟩)
    · refine ⟨entry, member, ?_⟩
      cases read : linkOf entry <;> rw [read] at found <;> cases found
      rfl
    · cases read : linkOf entry <;> rw [read] at found <;> cases found
  · rintro ⟨entry, member, read⟩
    exact .inl ⟨_, ⟨entry, member, rfl⟩, by rw [read]⟩

theorem problems_linkSteps : problems (linkSteps es) = [] ↔ es.Fits "links" .links := by
  unfold Entries.Fits
  cases listed : es.get? "links" with
  | none => simp [linkSteps, listed]
  | some v =>
    cases v with
    | list vs =>
      simp only [problems_eq_nil_iff, problem_mem_linkSteps_iff listed, Option.some.injEq, forall_eq',
        Kind.keep?, Value.list.injEq, Values.ofList_eq_iff, List.filter_eq_self]
      constructor
      · intro read entry member
        cases broken : linkOf entry with
        | ok _ => rfl
        | error p => exact absurd ⟨entry, member, broken⟩ (read p)
      · rintro read p ⟨entry, member, broken⟩
        simpa [broken, Except.isOk, Except.toBool] using read entry member
    | _ => simp [linkSteps, listed, Kind.keep?]

theorem emitStep_eq (key : String) (v : Value) :
    emitStep key v = match emitted? (key, v) with
      | some (which, on) => .change (.switch which on)
      | none => .problem (.invalidEmit key v) := by
  unfold emitStep emitted?
  rcases emitSwitches.lookup key with _ | which <;> cases v <;> rfl

theorem problems_emitSteps : problems (emitSteps es) = [] ↔ es.Fits "emit" .emitted := by
  unfold Entries.Fits
  cases listed : es.get? "emit" with
  | none => simp [emitSteps, listed]
  | some v =>
    cases v with
    | map entries =>
      simp only [problems_eq_nil_iff, emitSteps, listed, List.mem_map, Option.some.injEq, forall_eq',
        Kind.keep?, Value.map.injEq, Entries.ofList_eq_iff, List.filter_eq_self]
      constructor
      · rintro read ⟨key, v⟩ member
        cases broken : emitted? (key, v) with
        | some _ => rfl
        | none =>
          have told : ∃ entry ∈ entries.toList, emitStep entry.1 entry.2 = .problem (.invalidEmit key v) :=
            ⟨(key, v), member, by rw [emitStep_eq, broken]⟩
          exact absurd told (read _)
      · rintro read p ⟨⟨key, v⟩, member, broken⟩
        obtain ⟨set, found⟩ := Option.isSome_iff_exists.mp (read _ member)
        rw [emitStep_eq, found] at broken
        cases broken
    | _ => simp [emitSteps, listed, Kind.keep?]

theorem knownKeys_eq : knownKeys = kinds.map (·.1) := rfl

theorem lookup_kinds {entry : String × Kind} (known : entry ∈ kinds) :
    kinds.lookup entry.1 = some entry.2 := by
  revert entry
  decide

theorem known_iff : knownKeys.contains key = true ↔ (kinds.lookup key).isSome = true := by
  simp [knownKeys_eq, List.lookup_isSome_iff]

theorem problems_unknownKeySteps :
    problems (unknownKeySteps es) = [] ↔
      ∀ key v, es.get? key = some v → (kinds.lookup key).isSome = true := by
  simp only [problems_eq_nil_iff, unknownKeySteps, List.mem_map, List.mem_filter]
  constructor
  · intro known key v found
    obtain ⟨⟨_, value⟩, member, same⟩ := List.lookup_isSome_iff.mp (Option.isSome_of_eq_some found)
    obtain rfl := eq_of_beq same
    by_contra unknown
    refine known (.unknownKey key) ⟨(key, value), ⟨member, ?_⟩, rfl⟩
    exact Bool.not_eq_true' _ ▸ Bool.eq_false_iff.mpr (mt known_iff.mp unknown)
  · rintro known p ⟨entry, ⟨member, unknown⟩, _⟩
    have present : (es.get? entry.1).isSome = true :=
      List.lookup_isSome_iff.mpr ⟨entry, member, beq_self_eq_true entry.1⟩
    obtain ⟨v, found⟩ := Option.isSome_iff_exists.mp present
    rw [known_iff.mpr (known entry.1 v found)] at unknown
    cases unknown

/-- There is no problem in a mapping exactly when its keys are known and their values fit. -/
theorem problems_steps_iff_fits :
    problems (steps es) = [] ↔ (∀ key v, es.get? key = some v → (kinds.lookup key).isSome = true) ∧
      ∀ entry ∈ kinds, es.Fits entry.1 entry.2 := by
  have unread : es.Fits "output" .unread := fun v _ => rfl
  have each : ∀ entries : List (String × Switch),
      problems (entries.flatMap fun (key, which) => boolSteps es key (.switch which)) = [] ↔
        ∀ entry ∈ entries, es.Fits entry.1 .bool := by
    intro entries
    induction entries with
    | nil => simp
    | cons entry entries ih => simp [problems_boolSteps, ih]
  simp only [steps, problems_append, List.append_eq_nil_iff, problems_unknownKeySteps,
    problems_textSteps, problems_linkSteps, each, problems_boolSteps, problems_wordSteps,
    problems_emitSteps, kinds, List.forall_mem_append, List.forall_mem_map, List.forall_mem_cons,
    List.not_mem_nil, false_imp_iff, implies_true, and_true, and_assoc, unread]
  tauto

/-- There is no problem in a mapping exactly when all of it can be kept. -/
theorem problems_steps :
    problems (steps es) = [] ↔ ∀ key v, es.get? key = some v → es.kept? key = some v := by
  rw [problems_steps_iff_fits]
  constructor
  · rintro ⟨known, fit⟩ key v found
    obtain ⟨kind, listed⟩ := Option.isSome_iff_exists.mp (known key v found)
    obtain ⟨before, after, parts, _⟩ := List.lookup_eq_some_iff.mp listed
    have member : (key, kind) ∈ kinds := by simp [parts]
    simpa [Entries.kept?, listed, found] using fit (key, kind) member v found
  · intro keep
    constructor
    · intro key v found
      have kept := keep key v found
      unfold Entries.kept? at kept
      cases listed : kinds.lookup key with
      | some _ => rfl
      | none => simp [listed] at kept
    · intro entry member v found
      simpa [Entries.kept?, lookup_kinds member, found] using keep entry.1 v found

theorem problems_mended : problems (steps es.mended) = [] := by
  rw [problems_steps]
  intro key v found
  rw [get?_mended] at found
  obtain ⟨kind, listed, rest⟩ := Option.bind_eq_some_iff.mp found
  obtain ⟨w, _, kept⟩ := Option.bind_eq_some_iff.mp rest
  rw [Entries.kept?, listed, get?_mended, found]
  exact Kind.keep?_kept kept

/-! ## The same settings -/

theorem get?_mended_of_kind (listed : (key, kind) ∈ kinds) :
    es.mended.get? key = (es.get? key).bind kind.keep? := by
  rw [get?_mended, Entries.kept?, lookup_kinds listed]
  rfl

theorem texts_mended (listed : (key, .texts) ∈ kinds) : es.mended.texts key = es.texts key := by
  rw [Entries.texts, get?_mended_of_kind listed, Entries.texts]
  cases es.get? key with
  | none => rfl
  | some v =>
    cases v with
    | list vs => cases read : vs.texts? <;> simp [Kind.keep?, Value.texts, read]
    | _ => rfl

theorem bool?_mended (listed : (key, .bool) ∈ kinds) : es.mended.bool? key = es.bool? key := by
  rw [Entries.bool?, get?_mended_of_kind listed, Entries.bool?]
  cases es.get? key with
  | none => rfl
  | some v => cases v <;> rfl

theorem text?_mended (listed : (key, .text) ∈ kinds) : es.mended.text? key = es.text? key := by
  rw [Entries.text?, get?_mended_of_kind listed, Entries.text?]
  cases es.get? key with
  | none => rfl
  | some v => cases v <;> rfl

theorem links_mended : es.mended.links = es.links := by
  rw [Entries.links, get?_mended_of_kind (by decide : ("links", Kind.links) ∈ kinds), Entries.links]
  cases es.get? "links" with
  | none => rfl
  | some v =>
    cases v with
    | list vs =>
      simp only [Option.bind_some, Kind.keep?, Option.map_some, Option.getD_some, Value.links,
        Values.toList_ofList, List.filterMap_filter]
      refine List.filterMap_congr fun entry _ => ?_
      cases linkOf entry <;> rfl
    | _ => rfl

theorem emitted_mended : es.mended.emitted = es.emitted := by
  rw [Entries.emitted, get?_mended_of_kind (by decide : ("emit", Kind.emitted) ∈ kinds), Entries.emitted]
  cases es.get? "emit" with
  | none => rfl
  | some v =>
    cases v with
    | map entries =>
      simp only [Option.bind_some, Kind.keep?, Option.map_some, Option.getD_some, Value.entries,
        Entries.toList_ofList, List.filterMap_filter]
      refine List.filterMap_congr fun entry _ => ?_
      cases emitted? entry <;> rfl
    | _ => rfl

/-- What is left of a mapping asks for the same settings. -/
theorem changes_mended : changes (steps es.mended) = changes (steps es) := by
  have each : switches.flatMap (fun (key, which) =>
        ((es.mended.bool? key).map (Setting.switch which)).toList) =
      switches.flatMap fun (key, which) => ((es.bool? key).map (.switch which)).toList := by
    refine List.flatMap_congr fun (key, which) member => ?_
    have listed : (key, Kind.bool) ∈ kinds :=
      List.mem_append_left _ (List.mem_map.mpr ⟨(key, which), member, rfl⟩)
    simp only [bool?_mended listed]
  rw [changes_steps, changes_steps, each, texts_mended (by decide), texts_mended (by decide),
    texts_mended (by decide), links_mended, bool?_mended (by decide), text?_mended (by decide),
    text?_mended (by decide), emitted_mended]

/-! ## What is told of a problem -/

variable {p : Problem}

theorem problem_mem_textSteps {setting : String → Setting}
    (found : .problem p ∈ textSteps es key setting) : p = .notTexts key := by
  unfold textSteps at found
  split at found
  · cases found
  · simp at found
  · split at found
    · simp at found
    · simpa using found
  · simpa using found

theorem problem_mem_boolSteps {setting : Bool → Setting}
    (found : .problem p ∈ boolSteps es key setting) : p = .notBoolean key := by
  unfold boolSteps at found
  split at found <;> simp_all

theorem problem_mem_wordSteps {setting : String → Setting}
    (found : .problem p ∈ wordSteps es key setting) : p = .notText key := by
  unfold wordSteps at found
  split at found <;> simp_all

theorem linkOf_eq_error {entry : Value} (broken : linkOf entry = .error p) :
    p = .invalidLink entry ∨ ∃ kind name, p = .unknownLinkKind kind name := by
  unfold linkOf at broken
  split at broken
  · cases broken
  · split at broken
    · simp only [] at broken
      split at broken
      · cases broken
      · cases broken
        exact .inr ⟨_, _, rfl⟩
    · cases broken
      exact .inl rfl
  · cases broken
    exact .inl rfl

theorem problem_mem_linkSteps (found : .problem p ∈ linkSteps es) :
    p = .notLinks ∨ ∃ entry, linkOf entry = .error p := by
  cases listed : es.get? "links" with
  | none => simp [linkSteps, listed] at found
  | some v =>
    cases v with
    | list vs =>
      obtain ⟨entry, _, broken⟩ := (problem_mem_linkSteps_iff listed).mp found
      exact .inr ⟨entry, broken⟩
    | _ => exact .inl (by simpa [linkSteps, listed] using found)

theorem problem_mem_emitSteps (found : .problem p ∈ emitSteps es) :
    p = .notEmitMapping ∨ ∃ key v, p = .invalidEmit key v := by
  unfold emitSteps at found
  split at found
  · cases found
  · obtain ⟨⟨key, v⟩, _, step⟩ := List.mem_map.mp found
    simp only [emitStep_eq] at step
    split at step <;> cases step
    exact .inr ⟨key, v, rfl⟩
  · exact .inl (by simpa using found)

/-- Problems of the file as a whole apart, a lenient reader says that it ignores what it warns of. -/
theorem remedy_of_mem (found : .problem p ∈ steps es) : p.remedy = "; ignoring it" := by
  simp only [steps, List.mem_append, List.mem_flatMap, or_assoc] at found
  rcases found with unknown | text | text | text | link | ⟨_, _, switch⟩ | switch | word | word | emit
  · obtain ⟨_, _, same⟩ := List.mem_map.mp unknown
    cases same
    rfl
  · obtain rfl := problem_mem_textSteps text
    rfl
  · obtain rfl := problem_mem_textSteps text
    rfl
  · obtain rfl := problem_mem_textSteps text
    rfl
  · rcases problem_mem_linkSteps link with rfl | ⟨entry, broken⟩
    · rfl
    · rcases linkOf_eq_error broken with rfl | ⟨kind, name, rfl⟩ <;> rfl
  · obtain rfl := problem_mem_boolSteps switch
    rfl
  · obtain rfl := problem_mem_boolSteps switch
    rfl
  · obtain rfl := problem_mem_wordSteps word
    rfl
  · obtain rfl := problem_mem_wordSteps word
    rfl
  · rcases problem_mem_emitSteps emit with rfl | ⟨entry, v, rfl⟩ <;> rfl

theorem escapes_of_mem (found : .problem p ∈ steps es) : p.escapes = false := by
  have told := remedy_of_mem found
  cases p with
  | unreadable path reason => exact absurd told (by simp [Problem.remedy])
  | _ => rfl

/-- A strict reader stops exactly where a lenient one has something to warn of, and at what that one warns
of first. Where it does not stop, both come to the same options. The lenient reader always comes to
options: those of a strict one for what is left of the mapping, and all is left exactly when it warns of
nothing. -/
theorem readers_agree (es : Entries) (o : BindOptions) :
    let (strictly, stop, _) := apply true es o
    let (leniently, halt, warnings) := apply false es o
    (stop.isSome = true ↔ warnings ≠ []) ∧
    (∀ p, stop = some p → warnings.head? =
      some (.trace .warning Reporter.runFile (p.message ++ "; ignoring it"))) ∧
    (stop = none → strictly = leniently) ∧
    halt = none ∧
    apply true es.mended o = (leniently, none, []) ∧
    ((∀ key, es.mended.get? key = es.get? key) ↔ warnings = []) := by
  have left : apply true es.mended o = (o.applyAll (changes (steps es)), none, []) := by
    rw [apply_strict problems_mended, changes_mended]
  have all : (∀ key, es.mended.get? key = es.get? key) ↔ problems (steps es) = [] := by
    rw [problems_steps]
    refine forall_congr' fun key => ?_
    rw [get?_mended]
    cases found : es.get? key with
    | none => simp [Entries.kept?, found]
    | some v => simp
  have first := apply_strict_stop es o
  have same : problems (steps es) = [] → (apply true es o).1 = o.applyAll (changes (steps es)) :=
    fun sound => by rw [apply_strict sound]
  revert first same
  rcases apply true es o with ⟨strictly, stop, told⟩
  intro (first : stop = (problems (steps es)).head?) same
  rw [apply_lenient, left, all]
  refine ⟨?_, fun p stopped => ?_, fun passed => ?_, rfl, rfl, List.map_eq_nil_iff.symm⟩
  · rw [first]
    cases problems (steps es) <;> simp
  · rw [stopped, eq_comm, List.head?_eq_some_iff] at first
    obtain ⟨rest, found⟩ := first
    have member : .problem p ∈ steps es := mem_problems.mp (by simp [found])
    rw [found, List.map_cons, List.head?_cons, Problem.warning, remedy_of_mem member]
  · rw [passed, eq_comm, List.head?_eq_none_iff] at first
    exact same first

end HeaderBind.RunFile
