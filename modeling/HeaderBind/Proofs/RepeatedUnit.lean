import HeaderBind.Proofs.RetainedParts
import HeaderBind.Proofs.Walk.Alongside
import HeaderBind.Proofs.Walk.TopsAgain
/-!
# A unit that is repeated

A header that is read twice declares everything again. Where tag definitions stand apart and the
typedefs of a key are read alike, the second reading finds all that the first left behind: nothing is
named, entered, completed or marked any more, and the graph is the same.
-/
namespace HeaderBind

/-- Whether the typedefs of one key are read alike. -/
def CursorTable.TypedefsAlike (t : CursorTable) : Prop :=
  ∀ c d, (t.cursor c).kind = .typedef → (t.cursor d).kind = .typedef → t.keyOf c = t.keyOf d →
    t.ReadAlike c d

namespace Collector

open Collect (State exec exec_bind Alongside)

variable {w : Collector} {tops : List CursorId} {last s u : State} {c : CursorId}

/-! ## The second reading -/

/-- A typedef that stands for what its cursor is read as is left as it is. -/
theorem TypedefRead.idle {again : Visit} {before : State}
    (h : w.TypedefRead again before last c true) (told : ToldOf w again last (w.table.keyOf c))
    (kind : (w.table.cursor c).kind = .typedef) (alike : w.table.TypedefsAlike)
    (same : u.graph = last.graph) (plain : u.folded = []) :
    Idle u (w.typedefDecl again c true) (w.table.keyOf c) := by
  obtain ⟨d, target, found, body⟩ := h.isTypedef
  have reading : TargetIs w again last c target := by
    obtain ⟨c', kind', key, targetIs⟩ : Told w again last (w.table.keyOf c) (.typedef target) :=
      body ▸ told d found
    exact targetIs.alike (alike c' c kind' kind key)
  have mark {v : State} (quiet : Quiet u v) : Idle v (do
      modify fun s => { s with seenTypedefs := s.seenTypedefs ++ [w.table.keyOf c] }
      w.retainFor (w.table.keyOf c) c
      return w.table.keyOf c) (w.table.keyOf c) := by
    refine .bind ⟨_, rfl, rfl, rfl, rfl⟩ fun v' quiet' => ?_
    have later := quiet.trans quiet'
    refine .bind ((h.held rfl).steady v' ?_ (later.folded.trans plain)) fun v'' _ => .pure v'' _
    rw [later.graph, same]
    exact .refl _
  have own : (w.table.cursor c).key = w.table.keyOf c := rfl
  unfold typedefDecl
  simp only [own]
  refine .look rfl ?_
  rw [same, found]
  simp only [body]
  refine .look rfl ?_
  split
  · refine .bind (reading _ id u (same ▸ .refl _) plain) fun v quiet => ?_
    rw [if_neg (fun other => other rfl)]
    exact mark quiet
  · exact mark (.refl u)

/-- Every top cursor finds what its first visit left behind. -/
theorem WalkRead.idle_topDecl (h : w.WalkRead tops last) (alike : w.table.TypedefsAlike)
    (mem : c ∈ tops) (same : u.graph = last.graph) (plain : u.folded = []) :
    Idle u (w.topDecl (w.visit w.depthBound) c) () := by
  obtain ⟨first, rest, split⟩ := List.append_of_mem mem
  have tell (e : Event) : Idle u (Collect.tell e) () := ⟨_, rfl, rfl, rfl, rfl⟩
  have grows : last.graph.Grows u.graph := same ▸ .refl _
  unfold topDecl
  simp only []
  split
  · exact tell _
  · rename_i considered
    have read := h.visited split (by simpa [passesOver] using considered)
    have tag (isTag : (w.table.cursor c).kind.isTag = true) :
        Idle u (do let _ ← (w.visit w.depthBound).tag c (w.siteOf c false) true) () := by
      obtain ⟨m, deep⟩ := Nat.exists_eq_add_one_of_ne_zero (Nat.ne_of_gt w.depthBound_pos)
      rw [deep]
      exact .bind ((read.tag isTag).steady id u grows plain) fun v _ => .pure v _
    split <;> rename_i kind
    · exact tag (by rw [kind]; rfl)
    · exact tag (by rw [kind]; rfl)
    · exact tag (by rw [kind]; rfl)
    · refine .bind ((read.typedef kind).idle (h.told _) kind alike same plain) fun v _ => .pure v _
    · unfold functionDecl
      simp only []
      split
      · exact tell _
      · rename_i shared
        exact (read.function kind (by simpa using shared)).idle same plain
    · unfold objectDecl
      simp only []
      split
      · exact tell _
      · rename_i shared
        exact (read.object kind (by simpa using shared)).idle same plain
    · exact tell _

theorem idle_forM {f : CursorId → Collect Unit} (cs : List CursorId)
    (each : ∀ c ∈ cs, ∀ u : State, u.graph = last.graph → u.folded = [] → Idle u (f c) ())
    (same : u.graph = last.graph) (plain : u.folded = []) : Idle u (cs.forM f) () := by
  induction cs generalizing u with
  | nil => exact .pure u ()
  | cons c cs ih =>
    change Idle u (f c >>= fun _ => cs.forM f) ()
    refine .bind (each c List.mem_cons_self u same plain) fun v quiet => ?_
    exact ih (fun d mem => each d (List.mem_cons_of_mem _ mem)) (quiet.graph.trans same)
      (quiet.folded.trans plain)

/-! ## The first reading -/

/-- Noting the names of a unit twice is as good as once. -/
theorem alike_noteNames (w : Collector) (tops : List CursorId) :
    State.Alike ⟨false, false⟩ (exec (w.noteNames tops) .start).2
      (exec (w.noteNames (tops ++ tops)) .start).2 := by
  have noted (tops : List CursorId) : (exec (w.noteNames tops) .start).2 =
      { State.start with
        spelled := tops.flatMap (w.spelledNames (w.table.cursors.size + 1))
        adopted := tops.filterMap w.adoption? } := rfl
  rw [noted, noted]
  refine { State.Alike.refl _ _ with adopted := fun key => ?_, spelled := fun name => ?_ }
  · simp only [List.filterMap_append, List.lookup_append, Option.or_self]
  · simp

/-- A unit that is repeated is walked to a state with the same graph. -/
theorem walk_repeated (apart : w.table.TagsApart) (alike : w.table.TypedefsAlike)
    (run : exec (w.walk (w.visit w.depthBound) tops) .start = (.ok (), last)) :
    ∃ last', exec (w.walk (w.visit w.depthBound) (tops ++ tops)) .start = (.ok (), last') ∧
      last'.graph = last.graph := by
  have read := walkRead_of_walk apart run
  have noted (tops : List CursorId) : exec (w.walk (w.visit w.depthBound) tops) .start =
      exec (tops.forM (w.topDecl (w.visit w.depthBound))) (exec (w.noteNames tops) .start).2 := rfl
  have near : w.options.Near ⟨false, false⟩ False w.options := ⟨.inr rfl, rfl, .inr rfl, .inl rfl⟩
  have first : Alongside ⟨false, false⟩ False Eq
      (tops.forM (w.topDecl (w.visit w.depthBound))) (tops.forM (w.topDecl (w.visit w.depthBound))) :=
    .forM ((visit_alongside near _).topDecl near) tops
  have ends := first _ _ (alike_noteNames w tops)
  rw [← noted, run] at ends
  have twice : (tops ++ tops).forM (w.topDecl (w.visit w.depthBound)) =
      (do tops.forM (w.topDecl (w.visit w.depthBound)); tops.forM (w.topDecl (w.visit w.depthBound))) :=
    List.forM_append
  rw [noted, twice, exec_bind]
  generalize exec (tops.forM _) _ = out at ends ⊢
  cases ends with
  | ok _ alike' =>
    have same := alike'.graph.eq
    obtain ⟨last', second, quiet⟩ := idle_forM tops
      (fun c mem u same plain => read.idle_topDecl alike mem same plain) same.symm
      (alike'.folded.trans read.unfolded.folded)
    exact ⟨last', second, quiet.graph.trans same.symm⟩

/-- A unit is collected the same when all its top cursors come once more, where the definitions of
tags stand apart and the typedefs of a key are read alike. -/
theorem collect_repeated (w : Collector) (tops : List CursorId) (apart : w.table.TagsApart)
    (alike : w.table.TypedefsAlike) (g : DeclGraph)
    (collected : (exec (w.collect tops) .start).1 = .ok g) :
    (exec (w.collect (tops ++ tops)) .start).1 = .ok g := by
  obtain ⟨last, run, closed, -⟩ := walk_of_collected (Prod.ext collected rfl)
  obtain ⟨last', run', same⟩ := walk_repeated apart alike run
  rw [collect, exec_collectWithin, run']
  simp only [same, closed]

theorem lt_size_of_typedef (kind : (w.table.cursor c).kind = .typedef) :
    c < w.table.cursors.size :=
  lt_size_of_kind (by simp [kind, Cursor.absent])

/-- A typedef of a file. -/
def typedefAt (name usr : String) (line column : Int) (type underlying : TypeId) : Cursor :=
  { cursorAt .typedef name usr line column type with underlying := underlying }

/-- `typedef struct list list; struct list { list *next; int n; }; int length(list *l);` -/
def listed : Collector where
  options := .default
  table := {
    cursors := #[
      typedefAt "list" "c:@T@list" 1 21 (some 3) (some 2),
      { cursorAt .struct "list" "c:@S@list" 2 8 (some 1) with
        isDefinition := some true, definition := some 1, children := [2, 3] },
      { cursorAt .field "next" "c:@S@list@FI@next" 2 21 (some 4) with offset := some 0 },
      { cursorAt .field "n" "c:@S@list@FI@n" 2 31 (some 0) with offset := some 64 },
      { cursorAt .function "length" "c:@F@length" 3 5 (some 5) with arguments := [5] },
      cursorAt (.other "PARM_DECL") "l" "c:input.h@F@length@l" 3 18 (some 4)]
    types := #[
      typeOf .int 4 4 (some 0),
      { typeOf .record 16 8 (some 1) with declaration := some 1 },
      { typeOf .elaborated 16 8 (some 1) with named := some 1 },
      { typeOf .typedef 16 8 (some 1) with declaration := some 0 },
      { typeOf .pointer 8 8 (some 6) with pointee := some 3 },
      { typeOf .functionProto 1 4 (some 5) with result := some 0, parameters := [some 4] },
      { typeOf .pointer 8 8 (some 6) with pointee := some 1 }]
    tops := [0, 1, 4] }

theorem collect_repeated_listed : ∃ g : DeclGraph,
    (listed.table.TagsApart ∧ listed.table.TypedefsAlike ∧
      (exec (listed.collect [0, 1, 4]) .start).1 = .ok g) ∧
    g.keys = ["c:@T@list", "c:@S@list", "c:@F@length"] ∧
    (exec (listed.collect ([0, 1, 4] ++ [0, 1, 4])) .start).1 = .ok g := by
  have oneTag : ∀ c < 6, ∀ d < 6, (listed.table.cursor c).defines = true →
      (listed.table.cursor d).defines = true → c = d := by
    decide +kernel
  have oneTypedef : ∀ c < 6, ∀ d < 6, (listed.table.cursor c).kind = .typedef →
      (listed.table.cursor d).kind = .typedef → c = d := by
    decide +kernel
  have apart : listed.table.TagsApart := by
    intro d e hd he _
    rw [oneTag d (lt_size_of_defines hd.defines) e (lt_size_of_defines he.defines) hd.defines
      he.defines]
  have alike : listed.table.TypedefsAlike := by
    intro c d hc hd _
    rw [oneTypedef c (lt_size_of_typedef hc) d (lt_size_of_typedef hd) hc hd]
    exact ⟨rfl, .rfl, rfl⟩
  have evaluated :
      (exec (listed.walk (listed.visit listed.depthBound) [0, 1, 4]) .start).1.isOk = true ∧
      (∀ d ∈ (listed.lastState [0, 1, 4]).graph.decls, ∀ key ∈ d.valueKeys,
        (listed.lastState [0, 1, 4]).graph.valueKeys key = []) ∧
      (listed.lastState [0, 1, 4]).graph.keys = ["c:@T@list", "c:@S@list", "c:@F@length"] := by
    decide +kernel
  obtain ⟨run, flat, keys⟩ := evaluated
  obtain ⟨g, last, collected, decls, -⟩ := collected_of_walk run flat
  have collected : (exec (listed.collect [0, 1, 4]) .start).1 = .ok g := by rw [collected]
  refine ⟨g, ⟨apart, alike, collected⟩, ?_, collect_repeated _ _ apart alike g collected⟩
  rw [DeclGraph.keys, decls]
  exact keys

/-- `typedef int wchar_t; typedef int w; extern w v;`, where the parser gives both typedefs one
identifier and takes the first for that of `v`. -/
def widened : Collector where
  options := .default
  table := {
    cursors := #[
      typedefAt "wchar_t" "c:@T@w" 1 13 (some 1) (some 0),
      typedefAt "w" "c:@T@w" 2 13 (some 1) (some 0),
      cursorAt .object "v" "c:@v" 3 10 (some 1)]
    types := #[
      typeOf .int 4 4 (some 0),
      { typeOf .typedef 4 4 (some 0) with declaration := some 0 }]
    tops := [2, 1] }

/-- A typedef of one key may still be read in two ways, as `wchar_t` is never read as what it is
written with. It was entered for the object, so it is compared at its second visit only. -/
theorem repeated_conflicting : ¬ ∀ (w : Collector) (tops : List CursorId) (g : DeclGraph),
    w.table.TagsApart →
    (∀ c d, (w.table.cursor c).kind = .typedef → (w.table.cursor d).kind = .typedef →
      w.table.keyOf c = w.table.keyOf d →
      (w.table.cursor c).underlying = (w.table.cursor d).underlying) →
    (exec (w.collect tops) .start).1 = .ok g →
    (exec (w.collect (tops ++ tops)) .start).1 = .ok g := by
  intro all
  have noTag : ∀ c < 3, (widened.table.cursor c).defines = false := by decide +kernel
  have sameType : ∀ c < 3, ∀ d < 3, (widened.table.cursor c).kind = .typedef →
      (widened.table.cursor d).kind = .typedef →
      (widened.table.cursor c).underlying = (widened.table.cursor d).underlying := by
    decide +kernel
  have apart : widened.table.TagsApart := by
    intro d e hd _ _
    have := noTag d (lt_size_of_defines hd.defines)
    rw [hd.defines] at this
    cases this
  have evaluated :
      (exec (widened.walk (widened.visit widened.depthBound) [2, 1]) .start).1.isOk = true ∧
      (∀ d ∈ (widened.lastState [2, 1]).graph.decls, ∀ key ∈ d.valueKeys,
        (widened.lastState [2, 1]).graph.valueKeys key = []) ∧
      (exec (widened.walk (widened.visit widened.depthBound) ([2, 1] ++ [2, 1])) .start).1.isOk
        = false := by
    decide +kernel
  obtain ⟨run, flat, fails⟩ := evaluated
  obtain ⟨g, last, collected, -⟩ := collected_of_walk run flat
  have repeated := all widened [2, 1] g apart
    (fun c d hc hd _ => sameType c (lt_size_of_typedef hc) d (lt_size_of_typedef hd) hc hd)
    (by rw [collected])
  obtain ⟨last', run', -⟩ := walk_of_collected (Prod.ext repeated rfl)
  rw [run'] at fails
  cases fails

end Collector

end HeaderBind
