import HeaderBind.Proofs.RetainedParts
import HeaderBind.Proofs.Walk.TrialRun
/-!
# Records that are not folded

Where a definition stands at the place of an earlier one but has other members, it is a record of its
own. It was read on trial before; whether that left its mark on the graph depends on what its members
lead to.
-/
namespace HeaderBind

/-- Two graphs that have the same under every key have the same declarations. -/
theorem DeclGraph.mem_decls_iff_of_get? {g h : DeclGraph} (same : ∀ key, g.get? key = h.get? key)
    (d : Decl) : d ∈ g.decls ↔ d ∈ h.decls := by
  have found (g : DeclGraph) : d ∈ g.decls ↔ g.get? d.key = some d := by
    simp [DeclGraph.get?_eq_some_iff]
  rw [found, found, same]

namespace Collector

open Collect (State exec exec_bind)

variable {w : Collector} {bound : Nat} {s t u : State} {c decl : CursorId} {key name : String}
  {site : Site} {top : Bool} {first d : Decl} {visit : Visit}

theorem exec_bind_of_ok {α β : Type} {x : Collect α} {a : α} (h : exec x s = (.ok a, t))
    (f : α → Collect β) : exec (x >>= f) s = exec (f a) t := by
  rw [exec_bind, h]

/-! ## Entering a record -/

variable (w) in
/-- How a record comes to its name. -/
def recordName (decl : CursorId) (site : Site) : Collect String :=
  let cursor := w.table.cursor decl
  let spelled := bareName cursor.name
  if spelled.isEmpty then
    w.anonymousName decl (if cursor.kind = .union then .union else .struct) site
  else pure spelled

variable (w) in
/-- What is known of a record before its members are read. -/
def blankBody (decl : CursorId) : Record :=
  let cursor := w.table.cursor decl
  ⟨cursor.kind = .union, [], (bareName cursor.name).isEmpty, none, none, 0, cursor.defines,
    w.table.layoutOf cursor.typeId⟩

variable (w) in
/-- A record as it is entered, before its members are read. -/
def blankRecord (decl : CursorId) (key : String) (site : Site) (top : Bool) (name : String) : Decl :=
  let cursor := w.table.cursor decl
  let spelled := bareName cursor.name
  let builtin := builtinNames.contains spelled
  { key := key, name := name, origin := cursor.origin
    retained := if top then w.retains cursor builtin else spelled.isEmpty && site.retain
    builtin := builtin
    body := .record (w.blankBody decl) }

theorem newRecord_eq : w.newRecord visit decl key site top = (do
    let name ← w.recordName decl site
    let blank := w.blankRecord decl key site top name
    Collect.add blank
    if (w.table.cursor decl).defines then
      w.noteDefined decl key
      w.fillRecord visit ⟨key, name, (w.table.cursor decl).kind = .union⟩ blank.retained blank.builtin
        decl) := by
  unfold Collector.newRecord recordName
  simp only [blankRecord, blankBody]
  -- which names are builtin does not matter, and is not to be computed
  generalize builtinNames.contains _ = builtin
  split
  · rfl
  · rfl

/-- States in which the same names are taken give the same name. -/
theorem exec_recordName (adopted : t.adopted = s.adopted) (spelled : t.spelled = s.spelled)
    (synthesized : t.synthesized = s.synthesized) (numbered : t.numbered = s.numbered)
    (decl : CursorId) (site : Site) : ∃ name made count,
      exec (w.recordName decl site) s = (.ok name, { s with synthesized := made, numbered := count }) ∧
      exec (w.recordName decl site) t = (.ok name, { t with synthesized := made, numbered := count }) := by
  have got {u : State} : exec (get : Collect State) u = (.ok u, u) := rfl
  obtain ⟨_, _, _, _, _, _, _, _, _, _⟩ := t
  subst adopted spelled synthesized numbered
  unfold recordName
  simp only []
  split
  · unfold Collector.anonymousName
    rw [exec_bind_of_ok got, exec_bind_of_ok got]
    simp only []
    split
    · exact ⟨_, s.synthesized, s.numbered, rfl, rfl⟩
    · split
      · exact ⟨_, _, s.numbered, rfl, rfl⟩
      · exact ⟨_, _, _, rfl, rfl⟩
  · exact ⟨_, s.synthesized, s.numbered, rfl, rfl⟩

/-- A place where something is noted already is not noted once more. -/
theorem exec_noteDefined_again {other : String}
    (there : s.definedAt.lookup (w.table.cursor decl).place = some other) (key : String) :
    exec (w.noteDefined decl key) s = (.ok (), s) := by
  unfold Collector.noteDefined
  simp only []
  split
  · rfl
  · have got : exec (get : Collect State) s = (.ok s, s) := rfl
    rw [exec_bind_of_ok got, there]
    rfl

/-- What entering a record does whose members can be read, at a place where something is noted. -/
theorem exec_newRecord {read : Members} {other : String} {blank : Decl}
    (naming : exec (w.recordName decl site) s = (.ok name, t))
    (isBlank : w.blankRecord decl key site top name = blank)
    (unfrozen : t.graph.frozen = false) (fresh : blank.key ∉ t.graph.keys)
    (defines : (w.table.cursor decl).defines = true)
    (there : t.definedAt.lookup (w.table.cursor decl).place = some other)
    (reading : exec (w.members visit ⟨key, name, (w.table.cursor decl).kind = .union⟩ blank.retained
      blank.builtin decl) { t with graph := t.graph.push blank fresh } = (.ok read, u))
    (entered : u.graph.get? key = some blank) :
    exec (w.newRecord visit decl key site top) s =
      (.ok (), { u with graph := u.graph.setBody key (.record (read.intoRecord (w.blankBody decl)
        (w.table.widestAlign (w.table.cursor decl).children))) }) := by
  have seen : exec (Collect.find? key) u = (.ok (some blank), u) := by
    rw [← entered]
    rfl
  rw [newRecord_eq, exec_bind_of_ok naming]
  simp only [isBlank]
  have noting := exec_noteDefined_again (s := { t with graph := t.graph.push blank fresh }) there key
  rw [exec_bind_of_ok (Turns.exec_add_fresh unfrozen fresh), if_pos defines, exec_bind_of_ok noting]
  unfold Collector.fillRecord
  rw [exec_bind_of_ok reading, exec_bind_of_ok seen, ← isBlank]
  rfl

/-! ## Trials that fail -/

variable (w) in
/-- Whether the record that a cursor leads to is tried as another definition of the first: nothing is
declared under its key, and the first was defined at its place. -/
structure Tries (s : State) (c : CursorId) (first : Decl) : Prop where
  isTag : (w.table.cursor c).kind.isTag = true
  notEnum : (w.table.cursor c).kind ≠ .enum
  unknown : ¬ Knows s (w.table.tagKey c)
  before : (exec (w.definedBefore (w.table.definitionOf c) (w.table.tagKey c)) s).1 = .ok (some first)
  isRecord : first.isRecord = true

/-- A record that is tried is a definition, and the first is declared and noted at its place. -/
theorem Tries.noted (tries : w.Tries s c first) :
    exec (w.definedBefore (w.table.definitionOf c) (w.table.tagKey c)) s = (.ok (some first), s) ∧
      (w.table.cursor (w.table.definitionOf c)).defines = true ∧ first.key ∈ s.graph.keys ∧
      s.definedAt.lookup (w.table.cursor (w.table.definitionOf c)).place = some first.key := by
  have walks : Walks w (fun _ => false) True [] s
      (w.definedBefore (w.table.definitionOf c) (w.table.tagKey c)) _ := .definedBefore _ _
  obtain ⟨same, found⟩ := (walks.done tries.before).2
  obtain ⟨defines, declared, there⟩ := found first rfl
  exact ⟨Prod.ext tries.before same, defines, DeclGraph.mem_keys_iff.mpr ⟨first, declared⟩, there⟩

/-- Where the trial fails, the record is entered as one of its own. -/
theorem exec_recordDecl_of_refused (rooted : Rooted s) (tries : w.Tries s c first)
    (refused : exec (w.repeats visit first (w.table.definitionOf c) (w.table.tagKey c)) s =
      (.ok false, t))
    (entering : exec (w.newRecord visit (w.table.definitionOf c) (w.table.tagKey c) site top) t =
      (.ok (), u)) :
    exec (w.recordDecl visit c site top) s = (.ok (w.table.tagKey c), u) := by
  have own : (w.table.cursor (w.table.definitionOf c)).key = w.table.tagKey c := rfl
  have itself := rooted.not_folded tries.unknown
  have redirect : exec (Collect.redirect (w.table.tagKey c)) s = (.ok (w.table.tagKey c), s) := by
    change (Except.ok ((s.folded.lookup (w.table.tagKey c)).getD (w.table.tagKey c)), s) = _
    rw [itself, Option.getD_none]
  have absent : exec (Collect.find? (w.table.tagKey c)) s = (.ok none, s) := by
    rw [← DeclGraph.get?_eq_none_iff.mpr (rooted.absent tries.unknown)]
    rfl
  unfold Collector.recordDecl
  simp only [own]
  rw [exec_bind_of_ok redirect, exec_bind_of_ok absent]
  simp only []
  rw [exec_bind_of_ok tries.noted.1]
  simp only [tries.isRecord, if_true]
  rw [exec_bind_of_ok refused]
  simp only [Bool.false_eq_true, if_false]
  rw [exec_bind_of_ok entering]
  rfl

/-- The members that were read on trial, where it fails. -/
theorem trial_of_refused {key : String}
    (refused : (exec (w.repeats visit first decl key) s).1 = .ok false) : ∃ read t,
      exec (w.members visit ⟨key, first.name, (w.table.cursor decl).kind = .union⟩ false false decl)
        { s with folded := (key, first.key) :: s.folded } = (.ok read, t) ∧
      exec (w.repeats visit first decl key) s =
        (.ok false, { t with folded := t.folded.filter (·.1 != key) }) := by
  rw [exec_repeats] at refused ⊢
  rcases trial : exec (w.members visit ⟨key, first.name, (w.table.cursor decl).kind = .union⟩ false false
    decl) { s with folded := (key, first.key) :: s.folded } with ⟨e | read, t⟩ <;>
    rw [trial] at refused
  · cases refused
  · simp only [] at refused ⊢
    split at refused
    · cases Except.ok.inj refused
    · rename_i differ
      exact ⟨read, t, rfl, if_neg differ⟩

/-! ## The record on trial and in the graph -/

section

variable {made : List String} {count : List Tag} (own : d.key = key)
include own

/-- The members are read on trial where the key stands for the first record, and for good where the
record is entered: from states side by side. -/
theorem Beside.enter (rooted : Rooted s) (known : first.key ∈ s.graph.keys)
    (fresh : d.key ∉ s.graph.keys) :
    Beside d { s with folded := (key, first.key) :: s.folded }
      { s with synthesized := made, numbered := count, graph := s.graph.push d fresh } := by
  subst own
  refine ⟨rooted.fold known d.key, ⟨fresh, ?_, fun {k} other => ?_, rfl⟩, rfl, rfl, fun {k} other => ?_⟩
  · simp [DeclGraph.get?_push]
  · rw [DeclGraph.get?_push, if_neg other]
  · rw [lookup_cons_ne other]

/-- What is read on trial is read for good where the record is in the graph, and once more later. -/
theorem members_retraced {retain builtin union : Bool} (rooted : Rooted s)
    (known : first.key ∈ s.graph.keys) (fresh : d.key ∉ s.graph.keys) (isTag : w.IsTagKey key)
    (apart : ∀ p, w.table.Holds decl p → w.Apart key s p) (name : String) :
    Retraced w d { s with folded := (key, first.key) :: s.folded }
      { s with synthesized := made, numbered := count, graph := s.graph.push d fresh }
      (w.members (w.visit bound) ⟨key, first.name, union⟩ false false decl)
      (w.members (w.visit bound) ⟨key, name, union⟩ retain builtin decl) := by
  subst own
  have onward : Later d.key s { s with folded := (d.key, first.key) :: s.folded } :=
    ⟨.refl _, fun {k} other _ => lookup_cons_ne other _⟩
  refine (visitsAlong isTag bound).members ?_ ?_ ?_ (.enter rfl rooted known fresh) fun p holds => ?_
  · rfl
  · rfl
  · intro never
    cases never
  · exact (apart p holds).onward onward

/-- The trial is over and the record is entered: what was known is so still. -/
theorem Later.enter (fresh : d.key ∉ t.graph.keys) :
    Later d.key t { t with
      folded := t.folded.filter (·.1 != key), synthesized := made, numbered := count
      graph := t.graph.push d fresh } := by
  subst own
  refine ⟨DeclGraph.grows_push fresh, fun {k} other _ => ?_⟩
  rw [lookup_filter_ne, if_neg other]

end

/-- A trial that fails leaves the graph with the declarations that it would have without, where reading
the members comes neither to the record itself, nor to an unnamed tag that is not declared yet, nor to a
typedef with the key of a tag. -/
theorem failed_fold_untraced (sound : Sound w s) (unfrozen : s.graph.frozen = false)
    (tries : w.Tries s c first)
    (refused : (exec (w.repeats (w.visit bound) first (w.table.definitionOf c) (w.table.tagKey c)) s).1 =
      .ok false)
    (apart : ∀ p, w.table.Holds (w.table.definitionOf c) p → w.Apart (w.table.tagKey c) s p) :
    ∃ t u, exec (w.recordDecl (w.visit bound) c site top) s = (.ok (w.table.tagKey c), t) ∧
      exec (w.newRecord (w.visit bound) (w.table.definitionOf c) (w.table.tagKey c) site top) s =
        (.ok (), u) ∧
      ∀ d, d ∈ t.graph.decls ↔ d ∈ u.graph.decls := by
  obtain ⟨-, defines, known, there⟩ := tries.noted
  obtain ⟨read, t, trial, given⟩ := trial_of_refused refused
  obtain ⟨name, made, count, naming, -⟩ :=
    exec_recordName (w := w) (s := s) (t := s) rfl rfl rfl rfl (w.table.definitionOf c) site
  -- the record as it is entered, be it at once or after the trial
  generalize isBlank : w.blankRecord (w.table.definitionOf c) (w.table.tagKey c) site top name = blank
  have own : blank.key = w.table.tagKey c := isBlank ▸ rfl
  have fresh : blank.key ∉ s.graph.keys := own ▸ sound.rooted.absent tries.unknown
  obtain ⟨t', reading, beside, passes, lasting⟩ :=
    members_retraced own sound.rooted known fresh ⟨c, tries.isTag, rfl⟩ apart name read t trial
  have direct := exec_newRecord naming isBlank unfrozen fresh defines there reading
    (own ▸ beside.graph.entry)
  -- the name is the same after the trial, and the members are only looked up
  obtain ⟨name', made', count', naming', again⟩ := exec_recordName (w := w) (s := s)
    (t := { t with folded := t.folded.filter (·.1 != w.table.tagKey c) }) passes.adopted passes.spelled
    passes.synthesized passes.numbered (w.table.definitionOf c) site
  obtain rfl : name = name' := Except.ok.inj (Prod.mk.inj (naming.symm.trans naming')).1
  obtain ⟨v, reading', quiet⟩ := lasting _ (.enter own beside.graph.absent)
  have entered : v.graph.get? (w.table.tagKey c) = some blank := by
    rw [quiet.graph, DeclGraph.get?_push, if_pos own.symm]
  have after := exec_newRecord again isBlank (passes.frozen.trans unfrozen) beside.graph.absent defines
    (passes.definedAt there) reading' entered
  refine ⟨_, _, exec_recordDecl_of_refused sound.rooted tries given after, direct,
    DeclGraph.mem_decls_iff_of_get? fun k => ?_⟩
  rw [DeclGraph.get?_setBody, DeclGraph.get?_setBody, quiet.graph, beside.graph.get?_push]

/-! ## Two definitions at one place -/

/-- Whether `struct s` has its members. -/
def filled (s : State) : Bool := (s.graph.get? "c:@S@s").any fun d => !d.types.isEmpty

/-- The state in which the second of two definitions is met, of which the first is `struct s`. -/
def midway (w : Collector) : State :=
  (exec (w.walk (w.visitUntil filled w.depthBound) [0, 2]) .start).2

/-- `struct s { int a; };` and, where it stands, `struct { struct t { int x; } *p; };`. -/
def distinct : Collector where
  options := .default
  table := {
    cursors := #[
      { cursorAt .struct "s" "c:@S@s" 1 8 (some 1) with
        isDefinition := some true, definition := some 0, children := [1] },
      { cursorAt .field "a" "c:@S@s@FI@a" 2 7 (some 0) with offset := some 0 },
      { cursorAt .struct "" "c:@S@input.h@8" 1 8 (some 2) with
        isDefinition := some true, definition := some 2, children := [3] },
      { cursorAt .field "p" "c:@S@input.h@8@FI@p" 4 27 (some 4) with offset := some 0 },
      { cursorAt .struct "t" "c:@S@t" 4 10 (some 3) with
        isDefinition := some true, definition := some 4, children := [5] },
      { cursorAt .field "x" "c:@S@t@FI@x" 4 18 (some 0) with offset := some 0 }]
    types := #[
      typeOf .int 4 4 (some 0),
      { typeOf .record 4 4 (some 1) with declaration := some 0 },
      { typeOf .record 8 8 (some 2) with declaration := some 2 },
      { typeOf .record 4 4 (some 3) with declaration := some 4 },
      { typeOf .pointer 8 8 (some 4) with pointee := some 3 }]
    tops := [0, 2] }

/-- `struct s { int a; };` and, where it stands, `struct { struct { int x; } y; };`. -/
def traced : Collector where
  options := .default
  table := {
    cursors := #[
      { cursorAt .struct "s" "c:@S@s" 1 8 (some 1) with
        isDefinition := some true, definition := some 0, children := [1] },
      { cursorAt .field "a" "c:@S@s@FI@a" 3 7 (some 0) with offset := some 0 },
      { cursorAt .struct "" "c:@S@input.h@8" 1 8 (some 2) with
        isDefinition := some true, definition := some 2, children := [3, 4] },
      { cursorAt .struct "" "c:@S@input.h@8@S@input.h@50" 5 3 (some 3) with
        isDefinition := some true, definition := some 3, children := [5] },
      { cursorAt .field "y" "c:@S@input.h@8@FI@y" 5 21 (some 3) with offset := some 0 },
      { cursorAt .field "x" "c:@S@input.h@8@S@input.h@50@FI@x" 5 16 (some 0) with offset := some 0 }]
    types := #[
      typeOf .int 4 4 (some 0),
      { typeOf .record 4 4 (some 1) with declaration := some 0 },
      { typeOf .record 4 4 (some 2) with declaration := some 2 },
      { typeOf .record 4 4 (some 3) with declaration := some 3 }]
    tops := [0, 2] }

/-- `struct s { int a; };` as it is bound. -/
def single : Decl where
  key := "c:@S@s"
  name := "s"
  origin := some "input.h"
  retained := true
  builtin := false
  body := .record ⟨false, [⟨"a", .int .int, none, false⟩], false, none, none, 0, true, ⟨4, 4⟩⟩

theorem distinct_tries : distinct.Tries (midway distinct) 2 single where
  isTag := by decide +kernel
  notEnum := by decide +kernel
  unknown := by
    unfold Knows
    decide +kernel
  before := by decide +kernel
  isRecord := rfl

theorem traced_tries : traced.Tries (midway traced) 2 single where
  isTag := by decide +kernel
  notEnum := by decide +kernel
  unknown := by
    unfold Knows
    decide +kernel
  before := by decide +kernel
  isRecord := rfl

/-- The unnamed structure that holds a pointer is not folded into `struct s`; `struct t`, which is met
in the trial, is the same with and without it. -/
theorem failed_fold_untraced_distinct : ∃ t u,
    exec (distinct.recordDecl (distinct.visit distinct.depthBound) 2 (distinct.siteOf 2 false) true)
      (midway distinct) = (.ok "c:@S@input.h@8", t) ∧
    exec (distinct.newRecord (distinct.visit distinct.depthBound) 2 "c:@S@input.h@8"
      (distinct.siteOf 2 false) true) (midway distinct) = (.ok (), u) ∧
    ∀ d, d ∈ t.graph.decls ↔ d ∈ u.graph.decls := by
  have sound : Sound distinct (midway distinct) := sound_of_point ⟨filled, rfl⟩
  have unfrozen : (midway distinct).graph.frozen = false := by decide +kernel
  have refused : (exec (distinct.repeats (distinct.visit distinct.depthBound) single
      (distinct.table.definitionOf 2) (distinct.table.tagKey 2)) (midway distinct)).1 = .ok false := by
    decide +kernel
  have foreign : ∀ c, Subject.cursor c ∈ [.type (some 4), .type (some 3), .cursor 4, .type (some 0)] →
      distinct.Foreign (distinct.table.tagKey 2) (midway distinct) c := by
    intro c listed
    obtain rfl : c = 4 := by simpa using listed
    refine ⟨fun isTypedef => absurd isTypedef ?_, fun _ => ?_, fun _ unnamed => absurd unnamed ?_⟩
    · decide +kernel
    · decide +kernel
    · decide +kernel
  exact failed_fold_untraced sound unfrozen distinct_tries refused
    (apart_of_listed (by decide +kernel) (by decide +kernel) foreign)

/-- The unnamed structure with an unnamed structure in it is not folded into `struct s` either, but the
one in it has been named after `struct s` then, and is not bound. -/
theorem failed_fold_traced : ¬ ∀ (w : Collector) (s : State) (c : CursorId) (first : Decl) (bound : Nat)
    (site : Site) (top : Bool), Sound w s → s.graph.frozen = false → w.Tries s c first →
      (exec (w.repeats (w.visit bound) first (w.table.definitionOf c) (w.table.tagKey c)) s).1 =
        .ok false →
      ∃ t u, exec (w.recordDecl (w.visit bound) c site top) s = (.ok (w.table.tagKey c), t) ∧
        exec (w.newRecord (w.visit bound) (w.table.definitionOf c) (w.table.tagKey c) site top) s =
          (.ok (), u) ∧
        ∀ d, d ∈ t.graph.decls ↔ d ∈ u.graph.decls := by
  intro all
  obtain ⟨t, u, tried, direct, same⟩ := all traced (midway traced) 2 single traced.depthBound
    (traced.siteOf 2 false) true (sound_of_point ⟨filled, rfl⟩) (by decide +kernel) traced_tries
    (by decide +kernel)
  have named : ∃ d ∈ (exec (traced.recordDecl (traced.visit traced.depthBound) 2
      (traced.siteOf 2 false) true) (midway traced)).2.graph.decls, d.name = "s_y" := by
    decide +kernel
  have unnamed : ∀ d ∈ (exec (traced.newRecord (traced.visit traced.depthBound)
      (traced.table.definitionOf 2) (traced.table.tagKey 2) (traced.siteOf 2 false) true)
      (midway traced)).2.graph.decls, d.name ≠ "s_y" := by
    decide +kernel
  rw [tried] at named
  rw [direct] at unnamed
  obtain ⟨d, mem, name⟩ := named
  exact unnamed d ((same d).mp mem) name

end Collector

end HeaderBind
