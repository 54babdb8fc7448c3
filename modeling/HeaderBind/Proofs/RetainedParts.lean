import HeaderBind.Proofs.ClosedUnit
import HeaderBind.Proofs.Walk.Agreement
/-!
# Tags inside bound records

A mark goes on from a record to the tags noted inside it, so the unnamed tags of a bound record are
bound as well, unless one of them was entered unmarked and is noted only when the record is marked
already.
-/
namespace HeaderBind

namespace DeclGraph

variable {g : DeclGraph} {d : Decl} {key k : String}

theorem marked_push (fresh : d.key ∉ g.keys) (known : key ∈ g.keys) :
    (g.push d fresh).marked key = g.marked key := by
  have other : key ≠ d.key := fun same => fresh (same ▸ known)
  rw [marked, marked, get?_push, if_neg other]

theorem marked_setBody {body : Decl.Body} : (g.setBody key body).marked k = g.marked k := by
  rw [marked, marked, get?_setBody]
  cases g.get? k with
  | none => rfl
  | some d =>
    simp only [Option.map_some, Option.any_some]
    split <;> rfl

/-- Where what is held holds nothing itself, nothing holds itself. -/
theorem acyclic_of_flat (flat : ∀ d ∈ g.decls, ∀ key ∈ d.valueKeys, g.valueKeys key = []) :
    g.Acyclic := by
  intro key circle
  obtain ⟨held, holds, back⟩ := Relation.TransGen.head'_iff.mp circle
  have nothing : g.valueKeys held = [] := by
    unfold valueKeys at holds
    split at holds
    · rename_i d found
      exact flat d (get?_eq_some_iff.mp found).1 held holds
    · cases holds
  rcases back.cases_head with rfl | ⟨_, holds', _⟩
  · exact List.not_mem_nil (nothing ▸ holds)
  · exact List.not_mem_nil (nothing ▸ holds')

end DeclGraph

namespace Collector

open Collect (State exec)

variable {w : Collector} {owner part : String} {s t : State}

/-- Whether a tag is there without a mark, and is not noted inside a record that is marked or is
still to come. -/
def late (owner part : String) (s : State) : Bool :=
  decide (part ∈ s.graph.keys) && !s.graph.marked part && decide ((owner, part) ∉ s.nested) &&
    (decide (owner ∉ s.graph.keys) || s.graph.marked owner)

variable (w) in
/-- Whether the walk over a unit comes to where a tag is late for a record: whether it ends there
when it is broken off at such states. -/
def overtaken (tops : List CursorId) (owner part : String) : Bool :=
  late owner part (exec (w.walk (w.visitUntil (late owner part) w.depthBound) tops) .start).2

/-- Whether a tag has its mark or will have it together with the record it is noted inside. -/
def Follows (owner part : String) (s : State) : Prop :=
  (owner, part) ∈ s.nested →
    s.graph.marked part = true ∨ owner ∈ s.graph.keys ∧ s.graph.marked owner = false

/-- A tag that is not late follows the record once it is noted inside it. -/
theorem follows_of_not_late (passed : late owner part s = false) (known : part ∈ s.graph.keys)
    (follows : Follows owner part s) :
    s.graph.marked part = true ∨ owner ∈ s.graph.keys ∧ s.graph.marked owner = false := by
  by_cases noted : (owner, part) ∈ s.nested
  · exact follows noted
  · cases marked : s.graph.marked part with
    | true => exact .inl rfl
    | false => exact .inr (by simpa [late, known, marked, noted] using passed)

theorem Move.follows (move : Move w (late owner part) s t) (sound : Sound w s)
    (follows : Follows owner part s) : Follows owner part t := by
  intro noted
  have known {key : String} (noted : (owner, key) ∈ s.nested) : key ∈ s.graph.keys :=
    DeclGraph.mem_keys_of_namesType (sound.nested noted)
  cases move with
  | enter fresh _ _ =>
    have grows := DeclGraph.grows_push fresh
    refine (follows noted).imp grows.marked fun ⟨there, unmarked⟩ => ⟨grows.mem_keys there, ?_⟩
    exact (DeclGraph.marked_push fresh there).trans unmarked
  | describe found sort settled _ =>
    have grows := DeclGraph.grows_setBody found sort settled
    refine (follows noted).imp grows.marked fun ⟨there, unmarked⟩ => ⟨grows.mem_keys there, ?_⟩
    exact DeclGraph.marked_setBody.trans unmarked
  | mark keys =>
    have grows : s.graph.Grows (s.graph.retainAll s.nested keys) := DeclGraph.grows_retainAll keys
    rcases follows noted with marked | ⟨there, unmarked⟩
    · exact .inl (grows.marked marked)
    · -- a record that is newly marked takes what is noted inside it along
      cases now : (s.graph.retainAll s.nested keys).marked owner with
      | true => exact .inl (DeclGraph.marked_nested noted (known noted) unmarked now)
      | false => exact .inr ⟨grows.mem_keys there, rfl⟩
  | @noteInside owner' key passed isType _ =>
    rcases List.mem_append.mp noted with noted | noted
    · exact follows noted
    · obtain ⟨rfl, rfl⟩ : owner = owner' ∧ part = key := by simpa using noted
      exact follows_of_not_late (s := s) passed (DeclGraph.mem_keys_of_namesType isType) follows
  | aside same =>
    rw [same.graph]
    exact follows (same.nested ▸ noted)
  | _ => exact follows noted

theorem Path.follows (path : Path w (late owner part) s t) (sound : Sound w s)
    (follows : Follows owner part s) : Follows owner part t := by
  induction path with
  | refl => exact follows
  | tail before move ih => exact move.follows (Path.sound before sound) ih

/-- At the end of a walk in which a tag is never late, it follows the record. -/
theorem follows_of_walk {tops : List CursorId} {last : State}
    (run : exec (w.walk (w.visit w.depthBound) tops) .start = (.ok (), last))
    (passed : w.overtaken tops owner part = false) : Follows owner part last := by
  have agrees : VisitAgrees (late owner part · = true)
      (w.visitUntil (late owner part) w.depthBound) (w.visit w.depthBound) :=
    visitAgrees (Nat.le_refl _) (.inl rfl) fun _ => id
  have walk : Proceeds w (late owner part) False .start _ := proceeds_anyway tops sound_start
  -- broken off where the tag is late, the walk is the whole walk or ends there
  rcases agrees.walk tops .start with same | ⟨_, off⟩
  · have path := walk.path
    rw [same, run] at path
    exact path.follows sound_start nofun
  · rw [overtaken, off] at passed
    cases passed

/-- Every unnamed tag directly inside the definition of a bound record is bound, under its own key or
the one it was folded into, unless it was overtaken: unless it was entered without a mark and the
record was marked, or not yet entered, before the tag was noted inside it. -/
theorem parts_retained {tops : List CursorId} {g : DeclGraph} {last : State}
    (collected : exec (w.collect tops) .start = (.ok g, last)) {p : Decl} (mem : p ∈ g.decls)
    (isRecord : p.isRecord = true) (complete : p.body.settled = true) (bound : p.retained = true) :
    ∃ d, (w.table.cursor d).defines = true ∧ w.table.keyOf d = p.key ∧
      ∀ child ∈ (w.table.cursor d).children, w.isPart child = true →
        ∃ c ∈ g.decls, w.StandsFor last child c.key ∧
          (w.overtaken tops p.key c.key = false → c.retained = true) := by
  obtain ⟨s, run, frozen, placed⟩ := walk_of_collected collected
  obtain ⟨_, rfl⟩ := DeclGraph.freeze_eq_ok frozen
  have found : s.graph.get? p.key = some p := DeclGraph.get?_eq_some_iff.mpr ⟨mem, rfl⟩
  obtain ⟨path, read, _⟩ := proceeds_visit tops (sound_start (w := w))
  rw [run] at path read
  have isComplete : s.graph.isComplete p.key = true :=
    DeclGraph.isComplete_iff.mpr ⟨p, found, isRecord, complete⟩
  obtain ⟨d, defines, key, parts⟩ := (read rfl p.key isComplete).resolve_left nofun
  refine ⟨d, defines, key, fun child hc isPart => ?_⟩
  obtain ⟨k, noted, stands⟩ := parts child hc isPart
  obtain ⟨c, foundC, _⟩ := DeclGraph.namesType_iff.mp ((path.sound sound_start).nested noted)
  obtain ⟨memC, rfl⟩ := DeclGraph.get?_eq_some_iff.mp foundC
  refine ⟨c, memC, ?_, fun passed => ?_⟩
  · rwa [StandsFor, placed]
  · have marked : s.graph.marked c.key = true :=
      (follows_of_walk run passed noted).resolve_right fun ⟨_, unmarked⟩ => by
        simp [DeclGraph.marked, found, bound] at unmarked
    obtain ⟨c', foundC', retained⟩ := DeclGraph.marked_iff.mp marked
    exact Option.some.inj (foundC.symm.trans foundC') ▸ retained

/-! ## Records that refer to each other -/

/-- A cursor of a file. -/
def cursorAt (kind : CursorKind) (name usr : String) (line column : Int) (type : TypeId) : Cursor :=
  { Cursor.absent with
    kind := kind, name := name, usr := some usr
    location := some ⟨some "input.h", line, column⟩, type := some type }

/-- A type of some size and alignment. -/
def typeOf (kind : TypeKind) (size align : Int) (canonical : TypeId) : CursorType :=
  { CursorType.invalid with
    kind := kind, size := some size, align := some align, canonical := some canonical }

/-- `struct b; struct s { struct p *p; }; struct b { struct p *p; };` and
`struct p { struct s *s; union { int i; } u; };` on the lines of a file. The parser has `struct p`
declared inside `struct s`, where it is first written. -/
def crossing : Collector where
  options := .default
  table := {
    cursors := #[
      { cursorAt .struct "b" "c:@S@b" 1 8 (some 2) with definition := some 2 },
      { cursorAt .struct "s" "c:@S@s" 2 8 (some 1) with
        isDefinition := some true, definition := some 1, children := [4, 5] },
      { cursorAt .struct "b" "c:@S@b" 3 8 (some 2) with
        isDefinition := some true, definition := some 2, children := [6] },
      { cursorAt .struct "p" "c:@S@p" 4 8 (some 3) with
        isDefinition := some true, definition := some 3, children := [7, 8, 10] },
      { cursorAt .struct "p" "c:@S@p" 2 19 (some 3) with definition := some 3 },
      { cursorAt .field "p" "c:@S@s@FI@p" 2 22 (some 9) with offset := some 0 },
      { cursorAt .field "p" "c:@S@b@FI@p" 3 22 (some 9) with offset := some 0 },
      { cursorAt .field "s" "c:@S@p@FI@s" 4 22 (some 8) with offset := some 0 },
      { cursorAt .union "" "c:@S@p@Ua" 4 25 (some 4) with
        isDefinition := some true, definition := some 8, children := [9] },
      { cursorAt .field "i" "c:@S@p@Ua@FI@i" 4 37 (some 0) with offset := some 0 },
      { cursorAt .field "u" "c:@S@p@FI@u" 4 42 (some 7) with offset := some 64 }]
    types := #[
      typeOf .int 4 4 (some 0),
      { typeOf .record 8 8 (some 1) with declaration := some 1 },
      { typeOf .record 8 8 (some 2) with declaration := some 2 },
      { typeOf .record 16 8 (some 3) with declaration := some 3 },
      { typeOf .record 4 4 (some 4) with declaration := some 8 },
      { typeOf .elaborated 8 8 (some 1) with named := some 1 },
      { typeOf .elaborated 16 8 (some 3) with named := some 3 },
      { typeOf .elaborated 4 4 (some 4) with named := some 4 },
      { typeOf .pointer 8 8 (some 10) with pointee := some 5 },
      { typeOf .pointer 8 8 (some 11) with pointee := some 6 },
      { typeOf .pointer 8 8 (some 10) with pointee := some 1 },
      { typeOf .pointer 8 8 (some 11) with pointee := some 3 }]
    tops := [0, 1, 2, 3] }

variable (w) in
/-- Where the walk over a unit ends. -/
def lastState (tops : List CursorId) : State := (exec (w.walk (w.visit w.depthBound) tops) .start).2

variable (w) in
/-- Where collecting a unit ends when its graph can be closed. -/
def closedState (tops : List CursorId) : State :=
  let last := w.lastState tops
  { last with
    graph := { last.graph with frozen := true }
    events := last.events ++ [.trace .info Reporter.collector
      ("Resolved " ++ toString last.graph.size ++ " declarations")] }

/-- Collecting closes the graph of the walk when that does not fail and holds nothing deeply. -/
theorem exec_collect_of_walk {tops : List CursorId}
    (run : (exec (w.walk (w.visit w.depthBound) tops) .start).1.isOk = true)
    (flat : ∀ d ∈ (w.lastState tops).graph.decls, ∀ key ∈ d.valueKeys,
      (w.lastState tops).graph.valueKeys key = []) :
    exec (w.collect tops) .start = (.ok (w.closedState tops).graph, w.closedState tops) := by
  have closed : (w.lastState tops).graph.Closed :=
    ((proceeds_visit tops sound_start).path.sound sound_start).closed
  have checked := DeclGraph.check_eq_ok_iff.mpr ⟨closed.whole, DeclGraph.acyclic_of_flat flat⟩
  rw [collect, exec_collectWithin]
  unfold closedState lastState at *
  rcases outcome : exec (w.walk (w.visit w.depthBound) tops) .start with ⟨e | _, last⟩ <;>
    rw [outcome] at run checked
  · cases run
  · simp only [DeclGraph.freeze, checked]
    rfl

/-- Collecting gives the graph of the walk when that does not fail and holds nothing deeply. -/
theorem collected_of_walk {tops : List CursorId}
    (run : (exec (w.walk (w.visit w.depthBound) tops) .start).1.isOk = true)
    (flat : ∀ d ∈ (w.lastState tops).graph.decls, ∀ key ∈ d.valueKeys,
      (w.lastState tops).graph.valueKeys key = []) :
    ∃ g last, exec (w.collect tops) .start = (.ok g, last) ∧
      g.decls = (w.lastState tops).graph.decls ∧
      last.definedAt = (w.lastState tops).definedAt :=
  ⟨_, _, exec_collect_of_walk run flat, rfl, rfl⟩

theorem crossing_definition {d : CursorId} (defines : (crossing.table.cursor d).defines = true)
    (key : crossing.table.keyOf d = "c:@S@p") : d = 3 := by
  have inTable : d < crossing.table.cursors.size := lt_size_of_defines defines
  have only : ∀ d < 11, (crossing.table.cursor d).defines = true →
      crossing.table.keyOf d = "c:@S@p" → d = 3 := by
    decide +kernel
  exact only d inTable defines key

theorem crossing_union {last : State} {key : String}
    (placed : last.definedAt.lookup "input.h:4:25" = some "c:@S@p@Ua")
    (stands : crossing.StandsFor last 8 key) : key = "c:@S@p@Ua" := by
  have union : crossing.table.keyOf (crossing.table.definitionOf 8) = "c:@S@p@Ua" := by
    decide +kernel
  rcases stands with same | ⟨x, same, there⟩
  · exact same.trans union
  · have inTable : x < 11 := by
      by_contra outside
      have absent : crossing.table.cursor x = .absent :=
        CursorTable.cursor_eq_absent (Nat.not_lt.mp outside)
      have other : crossing.table.keyOf x ≠ "c:@S@p@Ua" := by
        rw [CursorTable.keyOf, absent]
        decide +kernel
      exact other (same.trans union)
    have only : ∀ x < 11, crossing.table.keyOf x = "c:@S@p@Ua" →
        (crossing.table.cursor x).place = "input.h:4:25" := by
      decide +kernel
    rw [only x inTable (same.trans union), placed] at there
    exact (Option.some.inj there).symm

/-- With or without its first line, the file is collected, and `struct p` is bound. -/
theorem crossing_collected (tops : List CursorId) (among : tops = [0, 1, 2, 3] ∨ tops = [1, 2, 3]) :
    ∃ g last, exec (crossing.collect tops) .start = (.ok g, last) ∧
      g.decls = (crossing.lastState tops).graph.decls ∧
      last.definedAt.lookup "input.h:4:25" = some "c:@S@p@Ua" ∧
      ∃ p ∈ g.decls, p.key = "c:@S@p" ∧ p.isRecord = true ∧ p.body.settled = true ∧
        p.retained = true := by
  have evaluated :
      (exec (crossing.walk (crossing.visit crossing.depthBound) tops) .start).1.isOk = true ∧
      (∀ d ∈ (crossing.lastState tops).graph.decls, ∀ key ∈ d.valueKeys,
        (crossing.lastState tops).graph.valueKeys key = []) ∧
      (crossing.lastState tops).definedAt.lookup "input.h:4:25" = some "c:@S@p@Ua" ∧
      ∃ p ∈ (crossing.lastState tops).graph.decls, p.key = "c:@S@p" ∧
        p.isRecord = true ∧ p.body.settled = true ∧ p.retained = true := by
    rcases among with rfl | rfl <;> decide +kernel
  obtain ⟨run, flat, there, bound⟩ := evaluated
  obtain ⟨g, last, collected, decls, placed⟩ := collected_of_walk run flat
  exact ⟨g, last, collected, decls, placed ▸ there, decls ▸ bound⟩

/-- Without the first line, `struct p` is met inside `struct s` before anything refers to it: it is
entered with its mark, and its union with it. -/
theorem parts_retained_crossing : ∃ g last,
    exec (crossing.collect [1, 2, 3]) .start = (.ok g, last) ∧
    ∃ p ∈ g.decls, p.isRecord = true ∧ p.body.settled = true ∧ p.retained = true ∧
      ∃ c ∈ g.decls, c.key = "c:@S@p@Ua" ∧ c.retained = true := by
  obtain ⟨g, last, collected, _, placed, p, mem, key, isRecord, complete, bound⟩ :=
    crossing_collected [1, 2, 3] (.inr rfl)
  refine ⟨g, last, collected, p, mem, isRecord, complete, bound, ?_⟩
  obtain ⟨d, defines, same, parts⟩ := parts_retained collected mem isRecord complete bound
  obtain rfl := crossing_definition defines (same.trans key)
  obtain ⟨c, memC, stands, passed⟩ := parts 8 (by decide) (by decide +kernel)
  have union := crossing_union placed stands
  refine ⟨c, memC, union, passed ?_⟩
  rw [key, union]
  decide +kernel

/-- With it, `struct p` is entered unmarked because `struct b` points to it, and is marked while its
members are read; its union is entered after that, unmarked. -/
theorem parts_not_retained : ¬ ∀ (w : Collector) (tops : List CursorId) (g : DeclGraph)
    (last : State), exec (w.collect tops) .start = (.ok g, last) →
      ∀ p ∈ g.decls, p.isRecord = true → p.body.settled = true → p.retained = true →
      ∃ d, (w.table.cursor d).defines = true ∧ w.table.keyOf d = p.key ∧
        ∀ child ∈ (w.table.cursor d).children, w.isPart child = true →
          ∃ c ∈ g.decls, w.StandsFor last child c.key ∧ c.retained = true := by
  intro all
  obtain ⟨g, last, collected, decls, placed, p, mem, key, isRecord, complete, bound⟩ :=
    crossing_collected [0, 1, 2, 3] (.inl rfl)
  have unbound : ∀ c ∈ g.decls, c.key = "c:@S@p@Ua" → c.retained = false := by
    rw [decls]
    decide +kernel
  obtain ⟨d, defines, same, parts⟩ := all _ _ g last collected p mem isRecord complete bound
  obtain rfl := crossing_definition defines (same.trans key)
  obtain ⟨c, memC, stands, retained⟩ := parts 8 (by decide) (by decide +kernel)
  rw [unbound c memC (crossing_union placed stands)] at retained
  cases retained

end Collector

end HeaderBind
