import HeaderBind.Proofs.RepeatedUnit
import HeaderBind.Proofs.Walk.Turning
/-!
# What the files asked for decide

A typedef, a function or an object is bound exactly where some cursor at the top declares it in a file
that was asked for. That it is referred to does not bind it, and the order of the cursors makes no
difference. Tags are another matter: they are bound along with what they stand in.
-/
namespace HeaderBind.Collector

open Collect (State exec)

variable {w : Collector} {tops : List CursorId} {s t : State} {key : String} {d e : Decl}

/-! ## Marks and their reasons -/

variable (w) in
/-- Whether there is a reason for a declaration to be bound: it is a tag, some cursor at the top asks
for it, or it is a type that has its key from a tag. -/
inductive Reason (tops : List CursorId) (d : Decl) : Prop where
  | tag (isTag : d.body.isTag = true)
  | top {c : CursorId} (listed : c ∈ tops) (binds : w.Binds c d)
  | shared (isType : d.body.isType = true) (isTag : w.IsTagKey d.key)

variable (w) in
/-- Whether whatever is bound has a reason to be. -/
def Reasoned (tops : List CursorId) (s : State) : Prop :=
  ∀ {key d}, s.graph.get? key = some d → d.retained = true → w.Reason tops d

theorem Reason.becomes (h : w.Reason tops d) (becomes : d.Becomes e) : w.Reason tops e := by
  cases h with
  | tag isTag => exact .tag (becomes.sort.isTag.trans isTag)
  | top listed binds => exact .top listed ((Binds.becomes becomes).mpr binds)
  | shared isType isTag => exact .shared (becomes.sort.isType.trans isType) (becomes.key ▸ isTag)

theorem TagType.reason (h : w.TagType s key) (found : s.graph.get? key = some d) :
    w.Reason tops d := by
  obtain ⟨isTag, isType⟩ := h
  obtain ⟨d', found', isType⟩ := DeclGraph.namesType_iff.mp isType
  obtain rfl := Option.some.inj (found.symm.trans found')
  exact .shared isType (DeclGraph.get?_key found ▸ isTag)

theorem Turn.reasoned (turn : Turn w tops s t) (traced : w.Traced s) (reasoned : w.Reasoned tops s) :
    w.Reasoned tops t := by
  intro key e found bound
  have grows := turn.grows
  cases turn with
  | enter _ fresh naming asked _ plain =>
    rw [DeclGraph.get?_push] at found
    split at found
    · obtain rfl := Option.some.inj found
      rcases asked bound with isTag | ⟨c, listed, binds⟩
      · exact .tag isTag
      · exact .top listed binds
    · exact reasoned found bound
  | describe there sort settled unnamed =>
    obtain ⟨d, before, becomes⟩ := grows.back (by simp [DeclGraph.keys_setBody]) found
    have marked : s.graph.marked key = true :=
      DeclGraph.marked_setBody ▸ DeclGraph.marked_iff.mpr ⟨e, found, bound⟩
    obtain ⟨d', before', bound⟩ := DeclGraph.marked_iff.mp marked
    obtain rfl := Option.some.inj (before.symm.trans before')
    exact (reasoned before bound).becomes becomes
  | mark there asked _ =>
    obtain ⟨d, before, becomes⟩ := grows.back (by simp [DeclGraph.keys_retainAll]) found
    refine Reason.becomes ?_ becomes
    rcases DeclGraph.marked_of_retainAll (DeclGraph.marked_iff.mpr ⟨e, found, bound⟩) with
      marked | named | ⟨owner, inside, _⟩
    · obtain ⟨d', before', bound⟩ := DeclGraph.marked_iff.mp marked
      obtain rfl := Option.some.inj (before.symm.trans before')
      exact reasoned before bound
    · obtain rfl := List.mem_singleton.mp named
      obtain rfl := Option.some.inj (before.symm.trans there)
      rcases asked with isTag | ⟨c, listed, binds⟩
      · exact isTag.reason before
      · exact .top listed binds
    · exact (traced.nested inside).reason before
  | _ => exact reasoned found bound

theorem Course.reasoned (course : Course w tops s t) (traced : w.Traced s)
    (reasoned : w.Reasoned tops s) : w.Reasoned tops t := by
  induction course with
  | refl => exact reasoned
  | tail before turn ih => exact turn.reasoned (Course.traced before traced) ih

/-! ## The filter -/

variable (w) in
/-- Whether what is declared where a cursor stands was asked for: no file is known there, nothing was
asked for in particular, or the name of the file holds something that was. -/
def InScope (c : CursorId) : Prop :=
  (w.table.cursor c).origin.getD "" = "" ∨ w.options.patterns = [] ∨
    ∃ pattern, some pattern ∈ w.options.patterns ∧
      Text.holds ((w.table.cursor c).origin.getD "") pattern = true

theorem wants_iff {c : CursorId} : w.wants (w.table.cursor c) = true ↔ w.InScope c := by
  unfold wants InScope
  cases (w.table.cursor c).origin with
  | none => simp
  | some file => simp [or_left_comm, or_assoc, Option.any_eq_true, List.isEmpty_iff]

variable (w) in
/-- Whether a cursor at the top that is not passed over declares what has the key and the sort, in a
file that was asked for. -/
def AskedAtTop (tops : List CursorId) (d : Decl) : Prop :=
  ∃ c ∈ tops, w.passesOver c = false ∧ w.table.keyOf c = d.key ∧ w.Declares c d.body ∧ w.InScope c

theorem binds_iff {c : CursorId} : w.Binds c d ↔
    (d.builtin = true → w.options.builtins = true) ∧ w.passesOver c = false ∧
      w.table.keyOf c = d.key ∧ w.Declares c d.body ∧ w.InScope c := by
  have asked : w.retains (w.table.cursor c) d.builtin = true ↔
      (d.builtin = true → w.options.builtins = true) ∧ w.InScope c := by
    rw [← wants_iff, retains, Bool.and_eq_true, Bool.or_eq_true]
    cases d.builtin <;> simp
  constructor
  · rintro ⟨seen, own, declares, asks⟩
    exact ⟨(asked.mp asks).1, seen, own, declares, (asked.mp asks).2⟩
  · rintro ⟨outside, seen, own, declares, inScope⟩
    exact ⟨seen, own, declares, asked.mpr ⟨outside, inScope⟩⟩

theorem Decl.sort_of_kindWord {d e : Decl} (other : d.body.isTag = false)
    (same : e.kindWord = d.kindWord) : e.body.isTag = false ∧ e.body.isType = d.body.isType := by
  unfold Decl.kindWord at same
  cases before : d.body <;> cases after : e.body <;>
    simp_all [Decl.Body.isTag, Decl.Body.isType] <;> split at same <;> simp at same

theorem declares_of_kindWord {d e : Decl} {c : CursorId} (other : d.body.isTag = false)
    (same : e.kindWord = d.kindWord) : w.Declares c e.body ↔ w.Declares c d.body := by
  have sort := Decl.sort_of_kindWord other same
  unfold Decl.kindWord at same
  cases before : d.body <;> cases after : e.body <;>
    simp_all [Declares, Decl.Body.isTag]

/-- What is bound, of the declarations that no tag shares its key with. -/
theorem retained_iff_of_collected {g : DeclGraph} {last : State}
    (collected : exec (w.collect tops) .start = (.ok g, last)) (mem : d ∈ g.decls)
    (other : d.body.isTag = false) (apart : d.body.isType = true → ¬ w.IsTagKey d.key) :
    (d.retained = true ↔ (d.builtin = true → w.options.builtins = true) ∧ w.AskedAtTop tops d) ∧
      (d.body.isType = false → d.builtin = false) := by
  obtain ⟨s, ⟨course, heeded⟩, decls⟩ := walked_of_collected collected
  have found : s.graph.get? d.key = some d := DeclGraph.get?_eq_some_iff.mpr ⟨decls ▸ mem, rfl⟩
  have start : w.Reasoned tops (w.noted tops) := fun found => by cases found
  have reasoned : w.Reasoned tops s := course.reasoned traced_noted start
  refine ⟨⟨fun bound => ?_, ?_⟩, (course.traced traced_noted).outside found⟩
  · cases reasoned found bound with
    | tag isTag =>
      rw [other] at isTag
      cases isTag
    | top listed binds =>
      obtain ⟨outside, asked⟩ := binds_iff.mp binds
      exact ⟨outside, _, listed, asked⟩
    | shared isType isTag => exact absurd isTag (apart isType)
  · rintro ⟨outside, c, listed, asked⟩
    have binds : w.Binds c d := binds_iff.mpr ⟨outside, asked⟩
    obtain ⟨d', found', bound⟩ := heeded c listed binds.seen d.body binds.declares
    rw [binds.own] at found'
    obtain rfl := Option.some.inj (found.symm.trans found')
    exact bound binds

/-- A typedef, a function or an object is bound exactly where some cursor at the top that is not passed
over declares it in a file that was asked for; a typedef whose key is that of a tag is left out, and one
that compilers bring along is bound only if those are asked for. So the same cursors in another order
make no difference. -/
theorem bound_iff_asked {g : DeclGraph} {last : State}
    (collected : exec (w.collect tops) .start = (.ok g, last)) (mem : d ∈ g.decls)
    (other : d.body.isTag = false) (apart : d.body.isType = true → ¬ w.IsTagKey d.key) :
    (d.retained = true ↔ (d.builtin = true → w.options.builtins = true) ∧ w.AskedAtTop tops d) ∧
    (d.body.isType = false → d.builtin = false) ∧
    ∀ (tops' : List CursorId) (g' : DeclGraph) (last' : State), (∀ c, c ∈ tops' ↔ c ∈ tops) →
      exec (w.collect tops') .start = (.ok g', last') →
      ∀ e ∈ g'.decls, e.key = d.key → e.kindWord = d.kindWord →
        (d.body.isType = true → e.builtin = d.builtin) → e.retained = d.retained := by
  obtain ⟨bound, outside⟩ := retained_iff_of_collected collected mem other apart
  refine ⟨bound, outside, fun tops' g' last' same collected' e mem' key kind builtin => ?_⟩
  have sort := Decl.sort_of_kindWord other kind
  obtain ⟨bound', outside'⟩ := retained_iff_of_collected collected' mem' sort.1
    fun isType => key ▸ apart (sort.2 ▸ isType)
  have builtin : e.builtin = d.builtin := by
    cases isType : d.body.isType with
    | true => exact builtin isType
    | false => rw [outside isType, outside' (sort.2.trans isType)]
  have asked : w.AskedAtTop tops' e ↔ w.AskedAtTop tops d := by
    simp only [AskedAtTop, same, key, declares_of_kindWord other kind]
  rw [Bool.eq_iff_iff, bound', bound, builtin, asked]

/-- `extern t v;` in one file, which comes before `typedef int t;` in another. Only the second file is
asked for. -/
def lazily : Collector where
  options := { CollectOptions.default with patterns := [some "api"] }
  table := {
    cursors := #[
      cursorAt .object "v" "c:@v" 1 10 (some 1),
      { typedefAt "t" "c:@T@t" 1 13 (some 1) (some 0) with location := some ⟨some "api.h", 1, 13⟩ }]
    types := #[
      typeOf .int 4 4 (some 0),
      { typeOf .typedef 4 4 (some 0) with declaration := some 1 }]
    tops := [0, 1] }

/-- The typedef is entered for the object, without a mark, and gets its mark at the top; the object
gets none. -/
theorem bound_iff_asked_lazily : ∃ g last, exec (lazily.collect [0, 1]) .start = (.ok g, last) ∧
    (∃ d ∈ g.decls, d.key = "c:@T@t" ∧ lazily.AskedAtTop [0, 1] d ∧ d.retained = true) ∧
    ∃ d ∈ g.decls, d.key = "c:@v" ∧ ¬ lazily.AskedAtTop [0, 1] d ∧ d.retained = false := by
  have evaluated :
      (exec (lazily.walk (lazily.visit lazily.depthBound) [0, 1]) .start).1.isOk = true ∧
      (∀ d ∈ (lazily.lastState [0, 1]).graph.decls, ∀ key ∈ d.valueKeys,
        (lazily.lastState [0, 1]).graph.valueKeys key = []) ∧
      (lazily.lastState [0, 1]).graph.decls =
        [⟨"c:@T@t", "t", some "api.h", true, false, .typedef (.int .int)⟩,
          ⟨"c:@v", "v", some "input.h", false, false, .object (.named "c:@T@t") true⟩] := by
    decide +kernel
  obtain ⟨run, flat, decls⟩ := evaluated
  obtain ⟨g, last, collected, same, -⟩ := collected_of_walk run flat
  rw [decls] at same
  have noTag (key : String) : ¬ lazily.IsTagKey key := by
    rintro ⟨c, isTag, -⟩
    have none : ∀ c < 2, (lazily.table.cursor c).kind.isTag = false := by decide +kernel
    have inTable : c < lazily.table.cursors.size :=
      lt_size_of_kind fun absent => by simp [absent, Cursor.absent, CursorKind.isTag] at isTag
    rw [none c inTable] at isTag
    cases isTag
  refine ⟨g, last, collected, ⟨_, by rw [same]; exact List.mem_cons_self, rfl, ?_⟩,
    ⟨_, by rw [same]; exact List.mem_cons_of_mem _ List.mem_cons_self, rfl, ?_⟩⟩
  · have asked : lazily.AskedAtTop [0, 1]
        ⟨"c:@T@t", "t", some "api.h", true, false, .typedef (.int .int)⟩ :=
      ⟨1, by decide, by decide +kernel, by decide +kernel, rfl, wants_iff.mp (by decide +kernel)⟩
    refine ⟨asked, (bound_iff_asked collected ?_ rfl fun _ => noTag _).1.mpr ⟨?_, asked⟩⟩
    · rw [same]
      exact List.mem_cons_self
    · intro outside
      cases outside
  · refine ⟨fun asked => ?_, rfl⟩
    have bound := (bound_iff_asked collected (d := ⟨"c:@v", "v", some "input.h", false, false,
      .object (.named "c:@T@t") true⟩) ?_ rfl fun _ => noTag _).1.mpr ⟨?_, asked⟩
    · cases bound
    · rw [same]
      exact List.mem_cons_of_mem _ List.mem_cons_self
    · intro outside
      cases outside

/-- `typedef int __va_list; typedef int T; extern __va_list v;`, where the parser gives both typedefs
one identifier and takes the first for that of `v`; only the last two stand at the top. -/
def brought : Collector where
  options := .default
  table := {
    cursors := #[
      typedefAt "__va_list" "c:@T@k" 1 13 (some 1) (some 0),
      cursorAt .object "v" "c:@v" 2 18 (some 1),
      typedefAt "T" "c:@T@k" 3 13 (some 1) (some 0)]
    types := #[
      typeOf .int 4 4 (some 0),
      { typeOf .typedef 4 4 (some 0) with declaration := some 0 }]
    tops := [1, 2] }

/-- `struct f { int a; }; extern struct o *v; struct o { struct { t x; }; };` with a typedef `t` that
does not stand at the top. The parser gives the unnamed record the identifier of `t` and has it stand
where `struct f` does. -/
def clashing : Collector where
  options := .default
  table := {
    cursors := #[
      { cursorAt .struct "f" "c:@S@f" 1 8 (some 1) with
        isDefinition := some true, definition := some 0, children := [1] },
      { cursorAt .field "a" "c:@S@f@FI@a" 1 16 (some 0) with offset := some 0 },
      { cursorAt .struct "o" "c:@S@o" 2 8 (some 2) with
        isDefinition := some true, definition := some 2, children := [3] },
      { cursorAt .struct "" "c:@T@t" 1 8 (some 3) with
        isDefinition := some true, definition := some 3, children := [4] },
      { cursorAt .field "x" "c:@S@o@Sa@FI@x" 2 23 (some 4) with offset := some 0 },
      typedefAt "t" "c:@T@t" 3 13 (some 4) (some 0),
      cursorAt .object "v" "c:@v" 4 18 (some 5)]
    types := #[
      typeOf .int 4 4 (some 0),
      { typeOf .record 4 4 (some 1) with declaration := some 0 },
      { typeOf .record 4 4 (some 2) with declaration := some 2 },
      { typeOf .record 4 4 (some 3) with declaration := some 3 },
      { typeOf .typedef 4 4 (some 0) with declaration := some 5 },
      { typeOf .pointer 8 8 (some 5) with pointee := some 2 }]
    tops := [0, 6, 2] }

/-- A typedef that is entered as one that compilers bring along is not bound for another name that has
its key; and a typedef that has the key of a tag inside a record is bound along with the record, though
no cursor at the top declares it. -/
theorem bound_not_iff_asked :
    (∃ g last, exec (brought.collect [1, 2]) .start = (.ok g, last) ∧
      ∃ d ∈ g.decls, d.body.isTag = false ∧ brought.AskedAtTop [1, 2] d ∧ d.retained = false) ∧
    ∃ g last, exec (clashing.collect [0, 6, 2]) .start = (.ok g, last) ∧
      ∃ d ∈ g.decls, d.body.isTag = false ∧ ¬ clashing.AskedAtTop [0, 6, 2] d ∧
        d.retained = true := by
  have evaluated :
      (exec (brought.walk (brought.visit brought.depthBound) [1, 2]) .start).1.isOk = true ∧
      (∀ d ∈ (brought.lastState [1, 2]).graph.decls, ∀ key ∈ d.valueKeys,
        (brought.lastState [1, 2]).graph.valueKeys key = []) ∧
      ⟨"c:@T@k", "__va_list", some "input.h", false, true, .typedef (.int .int)⟩ ∈
        (brought.lastState [1, 2]).graph.decls := by
    decide +kernel
  have evaluated' :
      (exec (clashing.walk (clashing.visit clashing.depthBound) [0, 6, 2]) .start).1.isOk = true ∧
      (∀ d ∈ (clashing.lastState [0, 6, 2]).graph.decls, ∀ key ∈ d.valueKeys,
        (clashing.lastState [0, 6, 2]).graph.valueKeys key = []) ∧
      ⟨"c:@T@t", "t", some "input.h", true, false, .typedef (.int .int)⟩ ∈
        (clashing.lastState [0, 6, 2]).graph.decls := by
    decide +kernel
  obtain ⟨run, flat, entered⟩ := evaluated
  obtain ⟨run', flat', entered'⟩ := evaluated'
  obtain ⟨g, last, collected, decls, -⟩ := collected_of_walk run flat
  obtain ⟨g', last', collected', decls', -⟩ := collected_of_walk run' flat'
  refine ⟨⟨g, last, collected, _, decls ▸ entered, rfl, ?_, rfl⟩,
    ⟨g', last', collected', _, decls' ▸ entered', rfl, ?_, rfl⟩⟩
  · exact ⟨2, by decide, by decide +kernel, by decide +kernel, rfl, wants_iff.mp (by decide +kernel)⟩
  · rintro ⟨c, listed, -, -, kind, -⟩
    have none : ∀ c ∈ [0, 6, 2], (clashing.table.cursor c).kind ≠ .typedef := by decide +kernel
    exact none c listed kind

end HeaderBind.Collector
