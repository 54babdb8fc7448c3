import HeaderBind.Proofs.RecordMembers
import HeaderBind.Proofs.Walk.TopsAgain
/-!
# Declarations completed by definitions

A tag may be declared before it is defined, and be referred to before either. A record that was
entered before its definition is met is completed from it, whichever way it was entered. An
enumeration is never completed: it stays as the cursor describes it that was met first.
-/
namespace HeaderBind

/-- Whether each tag has at most one definition. -/
def CursorTable.DefinedOnce (t : CursorTable) : Prop :=
  ∀ c d e, (t.cursor c).kind.isTag = true → (t.cursor d).defines = true →
    (t.cursor e).defines = true → t.keyOf d = t.tagKey c → t.keyOf e = t.tagKey c → d = e

theorem CursorTable.DefinedOnce.definitionOf_eq {t : CursorTable} (once : t.DefinedOnce)
    {c c' : CursorId} (isTag : (t.cursor c).kind.isTag = true) (same : t.tagKey c' = t.tagKey c)
    (defines : (t.cursor (t.definitionOf c)).defines = true)
    (defines' : (t.cursor (t.definitionOf c')).defines = true) :
    t.definitionOf c' = t.definitionOf c :=
  once c _ _ isTag defines' defines same rfl

/-- An enumeration never becomes another one. -/
theorem Decl.Becomes.enum_iff {d e : Decl} {x : Enumeration} (h : d.Becomes e) :
    d.body = .enum x ↔ e.body = .enum x := by
  have sort := h.sort
  cases before : d.body <;> cases after : e.body <;> simp_all [Decl.Body.SameSort]

namespace Collector

open Collect (State exec)

variable (w : Collector)

/-- Whether a body holds what the definition says that a tag's cursor leads to: its enumerators or
members, as they are read in the state, and its layout. -/
def HoldsDefinition (s : State) (c : CursorId) : Decl.Body → Prop
  | .record r => r.complete = true ∧
      r.layout = w.table.layoutOf (w.table.cursor (w.table.definitionOf c)).typeId ∧
      ∃ (owner : Owner) (m : Members) (t : State), owner.key = w.table.tagKey c ∧
        owner.isUnion = r.isUnion ∧ r.fields = m.fields ∧
        exec (w.members (w.visit w.depthBound) owner false true (w.table.definitionOf c)) s =
          (.ok m, t) ∧
        w.Listed (w.visit w.depthBound) owner (w.table.definitionOf c) r.fields s t
  | .enum e => w.EnumIs c e
  | _ => False

/-- Whether the enumeration of a top cursor is met with its definition first: it is not declared when
the cursor is visited, or all its cursors lead to a definition. -/
def MetDefined (tops first : List CursorId) (c : CursorId) : Prop :=
  w.table.tagKey c ∉ (w.stateAfter tops first).graph.keys ∨
    ∀ c', (w.table.cursor c').kind = .enum → w.table.tagKey c' = w.table.tagKey c →
      (w.table.cursor (w.table.definitionOf c')).defines = true

variable {w} {tops first : List CursorId} {c c' : CursorId} {s t last : State} {again : Visit}
variable {g : DeclGraph}

/-! ## Enumerations -/

theorem EnumEntered.onward (h : w.EnumEntered s c) (grows : s.graph.Grows t.graph) :
    w.EnumEntered t c := by
  obtain ⟨d, e, found, body, said⟩ := h
  obtain ⟨d', found', becomes⟩ := grows _ d found
  exact ⟨d', e, found', (becomes.enum_iff.mp body), said⟩

/-- A visit of an enumeration that is not declared enters it as its definition says. -/
theorem Leads.topEnum (plain : w.Unfolded s) (apart : w.table.TagsApart)
    (kind : (w.table.cursor c).kind = .enum) (seen : w.passesOver c = false) :
    Leads w again [] s (w.topDecl (w.visit w.depthBound) c) fun _ t =>
      s.graph.get? (w.table.tagKey c) = none → w.EnumEntered t c := by
  obtain ⟨m, deep⟩ := Nat.exists_eq_add_one_of_ne_zero (Nat.ne_of_gt w.depthBound_pos)
  have tag : (w.visit w.depthBound).tag c (w.siteOf c false) true =
      w.enumDecl c (w.siteOf c false) true := by
    rw [deep]
    simp only [visit, tagDecl, kind, if_true]
  unfold Collector.topDecl
  simp only []
  split
  · rename_i passed
    have passed : w.passesOver c = true := passed
    rw [seen] at passed
    cases passed
  · simp only [kind, tag]
    refine .bind (.enumDecl plain apart kind) fun _ t extends' post => ?_
    exact .pure extends'.unfolded post.2

variable (w) in
/-- Whether what was declared at a visit still is, and an enumeration that was not was entered. -/
structure EnumRead (before after : State) (c : CursorId) : Prop where
  grows : before.graph.Grows after.graph
  entered : (w.table.cursor c).kind = .enum → w.passesOver c = false →
    before.graph.get? (w.table.tagKey c) = none → w.EnumEntered after c

theorem enumRead_of_walk (apart : w.table.TagsApart)
    (run : exec (w.walk (w.visit w.depthBound) tops) .start = (.ok (), last)) {rest : List CursorId}
    (split : tops = first ++ c :: rest) :
    w.EnumRead (w.stateAfter tops first) last c := by
  have reads : Rereads w w.depthBound w.depthBound := rereads_visit apart (Nat.le_refl _)
  have visit (c : CursorId) (s : State) (plain : w.Unfolded s) :
      Leads w (w.visit w.depthBound) [] s (w.topDecl (w.visit w.depthBound) c) fun _ t =>
        w.EnumRead s t c := by
    intro _ t run
    refine ⟨(reads.topDecl plain c _ t run).1, (reads.topDecl plain c _ t run).1.grows,
      fun kind seen => ?_⟩
    have enters : Leads w (w.visit w.depthBound) [] s _ _ := Leads.topEnum plain apart kind seen
    exact (enters _ t run).2
  refine (visited_of_walk run visit fun left extends' => ?_).2 first c rest split
  exact ⟨left.grows.trans extends'.grows, fun kind seen absent =>
    (left.entered kind seen absent).onward extends'.grows⟩

/-! ## What is held in the end -/

/-- The layout of a complete record with one definition is that of the definition. -/
theorem layout_of_collected (once : w.table.DefinedOnce) {r : Record}
    (collected : exec (w.collect tops) .start = (.ok g, last))
    (isTag : (w.table.cursor c).kind.isTag = true)
    (defines : (w.table.cursor (w.table.definitionOf c)).defines = true)
    (complete : g.complete? (w.table.tagKey c) = some r) :
    r.layout = w.table.layoutOf (w.table.cursor (w.table.definitionOf c)).typeId := by
  obtain ⟨bound, decl, owner, s, t, defines', own, same, fills, left⟩ :=
    filled_of_collected collected complete
  obtain rfl : decl = w.table.definitionOf c := once c _ _ isTag defines' defines own rfl
  obtain ⟨m, before, filled⟩ := fills.left
  rw [← same, filled.record] at left
  obtain rfl := Option.some.inj left
  exact filled.layout

/-- The members of a complete record are those read below its definition. -/
theorem WalkRead.members_read (h : w.WalkRead tops last) (once : w.table.DefinedOnce) {d : Decl}
    {r : Record} (isTag : (w.table.cursor c).kind.isTag = true)
    (defines : (w.table.cursor (w.table.definitionOf c)).defines = true)
    (found : last.graph.get? (w.table.tagKey c) = some d) (body : d.body = .record r)
    (complete : r.complete = true) :
    FieldsAre w (w.visit w.depthBound) last (w.table.definitionOf c) r := by
  have told := h.told _ d found
  rw [body] at told
  obtain ⟨c', _, defines', same, fields⟩ := told.2 complete
  rwa [once.definitionOf_eq isTag same defines defines'] at fields

/-- Where a definition is met first, its enumeration holds what it says. -/
theorem WalkRead.enum_said (h : w.WalkRead tops last) (once : w.table.DefinedOnce)
    (read : w.EnumRead (w.stateAfter tops first) last c)
    (kind : (w.table.cursor c).kind = .enum) (seen : w.passesOver c = false)
    (defines : (w.table.cursor (w.table.definitionOf c)).defines = true)
    (met : w.MetDefined tops first c) {d : Decl} {e : Enumeration}
    (found : last.graph.get? (w.table.tagKey c) = some d) (body : d.body = .enum e) :
    w.EnumIs c e := by
  rcases met with absent | linked
  · obtain ⟨d', e', found', body', said⟩ :=
      read.entered kind seen (DeclGraph.get?_eq_none_iff.mpr absent)
    obtain rfl := Option.some.inj (found.symm.trans found')
    obtain rfl := Decl.Body.enum.inj (body.symm.trans body')
    exact said
  · have told := h.told _ d found
    rw [body] at told
    obtain ⟨c', kind', same, variants, layout⟩ := told
    have one := once.definitionOf_eq (by rw [kind]; rfl) same defines (linked c' kind' same)
    rw [one] at variants layout
    exact ⟨variants, layout⟩

/-! ## Main statement -/

/-- Where each tag is defined once, and definitions of different tags stand apart, the declaration of
a tag whose definition was visited at the top holds what that says: always if it is a record, and if
it is an enumeration where that is met with its definition first. An enumeration that was declared
before the visit stays as it was. -/
theorem forward_completed (w : Collector) (tops : List CursorId) (once : w.table.DefinedOnce)
    (apart : w.table.TagsApart) (g : DeclGraph) (last : State)
    (collected : exec (w.collect tops) .start = (.ok g, last)) :
    ∀ first c rest, tops = first ++ c :: rest → (w.table.cursor c).kind.isTag = true →
      w.passesOver c = false → (w.table.cursor (w.table.definitionOf c)).defines = true →
      ∃ d, g.get? (w.table.tagKey c) = some d ∧ w.FitsTag c d.body ∧
        (((w.table.cursor c).kind = .enum → w.MetDefined tops first c) →
          w.HoldsDefinition last c d.body) ∧
        ((w.table.cursor c).kind = .enum → ∀ before,
          (w.stateAfter tops first).graph.get? (w.table.tagKey c) = some before →
            d.body = before.body) := by
  intro first c rest split isTag seen defines
  obtain ⟨s, run, frozen, same⟩ := state_of_collected collected
  obtain ⟨-, rfl⟩ := DeclGraph.freeze_eq_ok frozen
  have read := walkRead_of_walk apart run
  have enumRead := enumRead_of_walk apart run split
  obtain ⟨d, found, fits⟩ := ((read.visited split seen).tag isTag).fits
  refine ⟨d, found, fits, fun met => ?_, fun kind before there => ?_⟩
  · cases body : d.body with
    | enum e =>
      rw [body] at fits
      exact read.enum_said once enumRead fits seen defines (met fits) found body
    | record r =>
      rw [body] at fits
      have complete := fits.2 defines
      obtain ⟨m, fields, steady⟩ := read.members_read once isTag defines found body complete
      have plain : last.folded = [] := by
        rw [same]
        exact read.unfolded.folded
      have grows : s.graph.Grows last.graph := by
        rw [same]
        exact fun key d found => ⟨d, found, .refl d⟩
      obtain ⟨t, run', _⟩ := steady ⟨w.table.tagKey c, d.name, r.isUnion⟩ false rfl last grows plain
      refine ⟨complete, layout_of_collected once collected isTag defines ?_,
        ⟨w.table.tagKey c, d.name, r.isUnion⟩, m, t, rfl, rfl, fields, run', ?_⟩
      · exact DeclGraph.complete?_eq_some_iff.mpr
          ⟨DeclGraph.record?_eq_some_iff.mpr ⟨d, found, body⟩, complete⟩
      · rw [fields]
        exact listed_of_members run'
    | _ =>
      rw [body] at fits
      cases fits
  · obtain ⟨d', found', becomes⟩ := enumRead.grows _ _ there
    obtain rfl := Option.some.inj (found.symm.trans found')
    cases body : d.body with
    | enum e => exact (becomes.enum_iff.mpr body).symm
    | _ => simp [body, FitsTag, kind] at fits

/-- `struct s; enum e; struct s { int a; }; enum e { A, B = 4 };` on the lines of a file, where the
parser has no definition for the first two. -/
def forwards : Collector where
  options := .default
  table := {
    cursors := #[
      cursorAt .struct "s" "c:@S@s" 1 8 (some 1),
      cursorAt .enum "e" "c:@E@e" 2 6 (some 2),
      { cursorAt .struct "s" "c:@S@s" 3 8 (some 3) with
        isDefinition := some true, definition := some 2, children := [4] },
      { cursorAt .enum "e" "c:@E@e" 4 6 (some 4) with
        isDefinition := some true, definition := some 3, enumType := some 5, children := [5, 6] },
      { cursorAt .field "a" "c:@S@s@FI@a" 3 16 (some 0) with offset := some 0 },
      cursorAt .enumConstant "A" "c:@E@e@A" 4 10 (some 0),
      { cursorAt .enumConstant "B" "c:@E@e@B" 4 13 (some 0) with value := 4 }]
    types := #[
      typeOf .int 4 4 (some 0),
      { typeOf .record (-2) (-2) (some 1) with declaration := some 0 },
      { typeOf .enum (-2) (-2) (some 2) with declaration := some 1 },
      { typeOf .record 4 4 (some 3) with declaration := some 2 },
      { typeOf .enum 4 4 (some 4) with declaration := some 3 },
      typeOf .uint 4 4 (some 5)]
    tops := [0, 1, 2, 3] }

theorem forwards_apart : forwards.table.DefinedOnce ∧ forwards.table.TagsApart := by
  have two : ∀ d < 7, (forwards.table.cursor d).defines = true → d = 2 ∨ d = 3 := by decide +kernel
  have keys : forwards.table.keyOf 2 ≠ forwards.table.keyOf 3 := by decide +kernel
  have places : (forwards.table.cursor 2).place ≠ (forwards.table.cursor 3).place := by decide +kernel
  have cases (d : CursorId) (defines : (forwards.table.cursor d).defines = true) : d = 2 ∨ d = 3 :=
    two d (lt_size_of_defines defines) defines
  constructor
  · intro c d e _ hd he own own'
    have same := own.trans own'.symm
    rcases cases d hd with rfl | rfl <;> rcases cases e he with rfl | rfl
    · rfl
    · exact absurd same keys
    · exact absurd same.symm keys
    · rfl
  · intro d e hd he same
    rcases cases d hd.defines with rfl | rfl <;> rcases cases e he.defines with rfl | rfl
    · rfl
    · exact absurd same places
    · exact absurd same.symm places
    · rfl

/-- The record is completed after its forward declaration, the enumeration is met before its own. -/
theorem forward_completed_forwards : ∃ g last,
    (forwards.table.DefinedOnce ∧ forwards.table.TagsApart ∧
      exec (forwards.collect [0, 2, 3, 1]) .start = (.ok g, last)) ∧
    (∃ d, g.get? "c:@S@s" = some d ∧ forwards.HoldsDefinition last 2 d.body) ∧
    ∃ d, g.get? "c:@E@e" = some d ∧ forwards.HoldsDefinition last 3 d.body := by
  obtain ⟨once, apart⟩ := forwards_apart
  have evaluated :
      (exec (forwards.walk (forwards.visit forwards.depthBound) [0, 2, 3, 1]) .start).1.isOk = true ∧
      ∀ d ∈ (forwards.lastState [0, 2, 3, 1]).graph.decls, ∀ key ∈ d.valueKeys,
        (forwards.lastState [0, 2, 3, 1]).graph.valueKeys key = [] := by
    decide +kernel
  obtain ⟨g, last, collected, -⟩ := collected_of_walk evaluated.1 evaluated.2
  have completed := forward_completed forwards [0, 2, 3, 1] once apart g last collected
  refine ⟨g, last, ⟨once, apart, collected⟩, ?_, ?_⟩
  · obtain ⟨d, found, _, holds, _⟩ :=
      completed [0] 2 [3, 1] rfl (by decide) (by decide +kernel) (by decide)
    exact ⟨d, found, holds nofun⟩
  · obtain ⟨d, found, _, holds, _⟩ :=
      completed [0, 2] 3 [1] rfl (by decide) (by decide +kernel) (by decide)
    exact ⟨d, found, holds fun _ => .inl (by decide +kernel)⟩

/-- An enumeration that is declared before it is defined stays without enumerators. -/
theorem enum_not_completed : ¬ ∀ (w : Collector) (tops : List CursorId), w.table.DefinedOnce →
    w.table.TagsApart → ∀ (g : DeclGraph) (last : State),
      exec (w.collect tops) .start = (.ok g, last) →
      ∀ c ∈ tops, (w.table.cursor c).kind.isTag = true → w.passesOver c = false →
        (w.table.cursor c).defines = true → w.table.definitionOf c = c →
        ∃ d, g.get? (w.table.tagKey c) = some d ∧ w.HoldsDefinition last c d.body := by
  intro all
  obtain ⟨once, apart⟩ := forwards_apart
  have evaluated :
      (exec (forwards.walk (forwards.visit forwards.depthBound) [0, 1, 2, 3]) .start).1.isOk = true ∧
      (∀ d ∈ (forwards.lastState [0, 1, 2, 3]).graph.decls, ∀ key ∈ d.valueKeys,
        (forwards.lastState [0, 1, 2, 3]).graph.valueKeys key = []) ∧
      ((forwards.lastState [0, 1, 2, 3]).graph.get? "c:@E@e").map (·.body) =
        some (.enum ⟨.int, [], false, ⟨-2, -2⟩⟩) ∧
      forwards.table.variantsOf (forwards.table.definitionOf 3) = [("A", 0), ("B", 4)] := by
    decide +kernel
  obtain ⟨run, flat, bare, variants⟩ := evaluated
  obtain ⟨d, found, holds⟩ := all forwards [0, 1, 2, 3] once apart _ _
    (exec_collect_of_walk run flat) 3 (by decide) (by decide) (by decide +kernel) (by decide) rfl
  obtain ⟨d', found', body⟩ := Option.map_eq_some_iff.mp bare
  obtain rfl := Option.some.inj (found'.symm.trans found)
  rw [body] at holds
  have same := holds.variants.trans variants
  cases same

end Collector

end HeaderBind
