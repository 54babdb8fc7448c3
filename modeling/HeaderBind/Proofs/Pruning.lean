import HeaderBind.Proofs.RetainedParts
import HeaderBind.Proofs.Walk.Turning
/-!
# What compilers bring along

Unless it is asked for, what compilers bring along gets no mark by itself, neither when it is entered
nor later. A mark that goes on from a record to the tags noted inside it does not look at that. So only
an unnamed tag of a bound record can bring a mark to it, where the tag is kept under its key.
-/
namespace HeaderBind.Collector

open Collect (State exec)

variable {w : Collector} {tops : List CursorId} {s t : State} {key : String} {d e : Decl}

variable (w) in
/-- Whether every mark is one that a declaration may have by itself, or one that what it is noted
inside has as well. -/
def Pruned (s : State) : Prop :=
  ∀ {key d}, s.graph.get? key = some d → d.retained = true →
    w.Admits d ∨ ∃ owner, (owner, key) ∈ s.nested ∧ s.graph.marked owner = true

theorem Admits.becomes (h : w.Admits d) (becomes : d.Becomes e) : w.Admits e :=
  fun builtin => h (becomes.builtin ▸ builtin)

/-- A mark that was there stays one that a declaration may have. -/
theorem Pruned.onward (pruned : w.Pruned s) (grows : s.graph.Grows t.graph)
    (nested : s.nested ⊆ t.nested) (marked : s.graph.marked key = true)
    (found : t.graph.get? key = some e) :
    w.Admits e ∨ ∃ owner, (owner, key) ∈ t.nested ∧ t.graph.marked owner = true := by
  obtain ⟨d, before, bound⟩ := DeclGraph.marked_iff.mp marked
  obtain ⟨e', found', becomes⟩ := grows key d before
  obtain rfl := Option.some.inj (found.symm.trans found')
  refine (pruned before bound).imp (·.becomes becomes) ?_
  rintro ⟨owner, noted, held⟩
  exact ⟨owner, nested noted, grows.marked held⟩

theorem Turn.pruned (turn : Turn w tops s t) (pruned : w.Pruned s) : w.Pruned t := by
  intro key e found bound
  have grows := turn.grows
  have marked := DeclGraph.marked_iff.mpr ⟨e, found, bound⟩
  cases turn with
  | enter _ fresh _ _ admitted _ =>
    by_cases known : key ∈ s.graph.keys
    · exact pruned.onward grows (List.Subset.refl _) (DeclGraph.marked_push fresh known ▸ marked) found
    · rw [DeclGraph.get?_push] at found
      split at found
      · obtain rfl := Option.some.inj found
        exact .inl (admitted bound)
      · exact absurd (DeclGraph.mem_keys_iff.mpr ⟨e, found⟩) known
  | describe _ _ _ _ =>
    exact pruned.onward grows (List.Subset.refl _) (DeclGraph.marked_setBody ▸ marked) found
  | mark there _ admitted =>
    rcases DeclGraph.marked_of_retainAll marked with before | named | inside
    · exact pruned.onward grows (List.Subset.refl _) before found
    · obtain rfl := List.mem_singleton.mp named
      obtain ⟨e', found', becomes⟩ := grows _ _ there
      obtain rfl := Option.some.inj (found.symm.trans found')
      exact .inl (admitted.becomes becomes)
    · exact .inr inside
  | noteInside _ _ => exact pruned.onward grows (List.subset_append_left _ _) marked found
  | _ => exact pruned found bound

theorem Course.pruned (course : Course w tops s t) (pruned : w.Pruned s) : w.Pruned t := by
  induction course with
  | refl => exact pruned
  | tail _ turn ih => exact turn.pruned ih

/-- Unless it is asked for, nothing that compilers bring along is bound, however it is reached, but for
what an unnamed tag directly inside the definition of a bound record is kept under. -/
theorem builtins_pruned {g : DeclGraph} {last : State}
    (collected : exec (w.collect tops) .start = (.ok g, last)) (off : w.options.builtins = false)
    (mem : d ∈ g.decls) (builtin : d.builtin = true)
    (apart : ∀ p ∈ g.decls, p.retained = true → ¬ w.PartOf last p.key d.key) :
    d.retained = false := by
  obtain ⟨s, run, frozen, placed⟩ := walk_of_collected collected
  obtain ⟨_, rfl⟩ := DeclGraph.freeze_eq_ok frozen
  have found : s.graph.get? d.key = some d := DeclGraph.get?_eq_some_iff.mpr ⟨mem, rfl⟩
  have path := (proceeds_visit tops (sound_start (w := w))).path
  rw [run] at path
  have start : w.Pruned (w.noted tops) := fun found => by cases found
  by_contra bound
  rcases (walked_of_walk run).course.pruned start found (by simpa using bound) with
    admitted | ⟨owner, noted, held⟩
  · rw [admitted builtin] at off
    cases off
  · -- the mark came from a record, inside which only its parts are noted
    obtain ⟨p, foundP, boundP⟩ := DeclGraph.marked_iff.mp held
    obtain ⟨memP, rfl⟩ := DeclGraph.get?_eq_some_iff.mp foundP
    obtain ⟨c, inside, isPart, stands⟩ := (path.sound sound_start).parts noted
    exact apart p memP boundP ⟨c, inside, isPart, by rwa [StandsFor, placed]⟩

/-! ## A header that is included twice -/

/-- A cursor of a file that is included. -/
def partAt (kind : CursorKind) (name usr : String) (line column : Int) (type : TypeId) : Cursor :=
  { cursorAt kind name usr line column type with location := some ⟨some "part.h", line, column⟩ }

/-- `struct REC { struct __va_list_tag { int a; } s; };` in a file that is included with `A` for `REC`
and once more with `B`, and `extern struct B *b;` in between. The parser drops the name of the inner
record when it is defined again. -/
def includedTwice : Collector where
  options := .default
  table := {
    cursors := #[
      { partAt .struct "A" "c:@S@A" 1 8 (some 0) with
        isDefinition := some true, definition := some 0, children := [1, 3] },
      { partAt .struct "__va_list_tag" "c:@S@__va_list_tag" 1 21 (some 1) with
        isDefinition := some true, definition := some 1, children := [2] },
      { partAt .field "a" "c:@S@__va_list_tag@FI@a" 1 41 (some 2) with offset := some 0 },
      { partAt .field "s" "c:@S@A@FI@s" 1 46 (some 1) with offset := some 0 },
      cursorAt .object "b" "c:@b" 4 18 (some 3),
      { partAt .struct "B" "c:@S@B" 1 8 (some 4) with
        isDefinition := some true, definition := some 5, children := [6, 8] },
      { partAt .struct "" "c:@S@B@S@part.h@20" 1 21 (some 5) with
        isDefinition := some true, definition := some 6, children := [7] },
      { partAt .field "a" "c:@S@B@S@part.h@20@FI@a" 1 41 (some 2) with offset := some 0 },
      { partAt .field "s" "c:@S@B@FI@s" 1 46 (some 5) with offset := some 0 }]
    types := #[
      { typeOf .record 4 4 (some 0) with declaration := some 0 },
      { typeOf .record 4 4 (some 1) with declaration := some 1 },
      typeOf .int 4 4 (some 2),
      { typeOf .pointer 8 8 (some 3) with pointee := some 4 },
      { typeOf .record 4 4 (some 4) with declaration := some 5 },
      { typeOf .record 4 4 (some 5) with declaration := some 6 }]
    tops := [0, 4, 5] }

/-- Included once, the inner record has a name and gets no mark. -/
theorem builtins_pruned_includedOnce : ∃ g last,
    exec (includedTwice.collect [0]) .start = (.ok g, last) ∧
    ∃ d ∈ g.decls, d.builtin = true ∧ d.retained = false := by
  have evaluated :
      (exec (includedTwice.walk (includedTwice.visit includedTwice.depthBound) [0]) .start).1.isOk
        = true ∧
      (∀ d ∈ (includedTwice.lastState [0]).graph.decls, ∀ key ∈ d.valueKeys,
        (includedTwice.lastState [0]).graph.valueKeys key = []) ∧
      (∃ d ∈ (includedTwice.lastState [0]).graph.decls, d.builtin = true) ∧
      ∀ p ∈ (includedTwice.lastState [0]).graph.decls, p.retained = true → p.key = "c:@S@A" := by
    decide +kernel
  obtain ⟨run, flat, ⟨d, mem, builtin⟩, bound⟩ := evaluated
  obtain ⟨g, last, collected, decls, -⟩ := collected_of_walk run flat
  rw [← decls] at mem bound
  refine ⟨g, last, collected, d, mem, builtin, builtins_pruned collected rfl mem builtin ?_⟩
  -- the record that is bound has no unnamed tag inside
  rintro p memP boundP ⟨c, ⟨decl, defines, own, below⟩, isPart, -⟩
  have inTable : decl < includedTwice.table.cursors.size := lt_size_of_defines defines
  have none : ∀ decl < 9, includedTwice.table.keyOf decl = "c:@S@A" →
      ∀ c ∈ (includedTwice.table.cursor decl).children, includedTwice.isPart c = false := by
    decide +kernel
  rw [none decl inTable (own.trans (bound p memP boundP)) c below] at isPart
  cases isPart

/-- Included twice, it is noted inside `struct B` as well, which is entered unmarked because `b` points
to it; when `struct B` gets its mark at the top, so does the inner record. -/
theorem builtins_not_pruned : ¬ ∀ (w : Collector) (tops : List CursorId) (g : DeclGraph)
    (last : State), exec (w.collect tops) .start = (.ok g, last) → w.options.builtins = false →
      ∀ d ∈ g.decls, ¬ (d.retained = true ∧ d.builtin = true) := by
  intro all
  have evaluated :
      (exec (includedTwice.walk (includedTwice.visit includedTwice.depthBound) [0, 4, 5])
        .start).1.isOk = true ∧
      (∀ d ∈ (includedTwice.lastState [0, 4, 5]).graph.decls, ∀ key ∈ d.valueKeys,
        (includedTwice.lastState [0, 4, 5]).graph.valueKeys key = []) ∧
      ∃ d ∈ (includedTwice.lastState [0, 4, 5]).graph.decls, d.retained = true ∧ d.builtin = true := by
    decide +kernel
  obtain ⟨run, flat, d, mem, both⟩ := evaluated
  obtain ⟨g, last, collected, decls, -⟩ := collected_of_walk run flat
  exact all _ _ g last collected rfl d (decls ▸ mem) both

end HeaderBind.Collector
