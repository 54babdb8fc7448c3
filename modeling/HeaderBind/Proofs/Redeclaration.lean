import HeaderBind.Proofs.RepeatedUnit
/-!
# Declaring again

What a key is declared as at the top of a unit, it is declared as everywhere: functions and objects
always, typedefs where a visit compares them, and tags of which there is one definition. Typedefs that
were entered before they were seen at the top are not compared, and tags never are.
-/
namespace HeaderBind

/-- Two declarations with the shape of a third, which is neither a record nor an enumeration, have
one shape. -/
theorem Decl.sameShape_of_common {e d d' : Decl} (other : ∀ r, e.body ≠ .record r)
    (other' : ∀ x, e.body ≠ .enum x) (left : e.sameShape d = true) (right : e.sameShape d' = true) :
    d.sameShape d' = true := by
  unfold Decl.sameShape at *
  cases body : e.body with
  | record r => exact absurd body (other r)
  | enum x => exact absurd body (other' x)
  | _ =>
    cases body' : d.body <;> cases body'' : d'.body <;>
      simp_all [Signature.sameTypes]

theorem Decl.sameShape_of_body {d d' : Decl} (same : d.body = d'.body) : d.sameShape d' = true := by
  unfold Decl.sameShape
  rw [same]
  cases d'.body <;> simp [Signature.sameTypes]

/-- What has the shape of a function or an object is no tag. -/
theorem Decl.noTag_of_sameShape {d e : Decl} (other : d.body.isType = false)
    (shape : e.sameShape d = true) : (∀ r, e.body ≠ .record r) ∧ ∀ x, e.body ≠ .enum x := by
  unfold Decl.sameShape at shape
  cases before : e.body <;> cases body : d.body <;> simp_all [Body.isType]

namespace CursorTable

variable (t : CursorTable)

/-- Whether the definition that a tag's cursor leads to says more than the name of the tag. -/
def tells (c : CursorId) : Bool :=
  (t.cursor (t.definitionOf c)).defines || !(t.variantsOf (t.definitionOf c)).isEmpty

/-- Whether two cursors of a tag lead to one definition, if they lead to definitions at all. -/
structure DefinedAlike (c d : CursorId) : Prop where
  union : (t.cursor (t.definitionOf c)).kind = .union ↔ (t.cursor (t.definitionOf d)).kind = .union
  same : t.tells c = true → t.tells d = true → t.definitionOf c = t.definitionOf d

theorem isEmpty_of_bare {c d : CursorId} (bare : ¬ (t.tells c = true ∧ t.tells d = true)) :
    (t.variantsOf (t.definitionOf c)).isEmpty = true ∨
      (t.variantsOf (t.definitionOf d)).isEmpty = true := by
  by_contra full
  rw [not_or, Bool.not_eq_true, Bool.not_eq_true] at full
  exact bare (by simp [tells, full])

end CursorTable

namespace Collector

open Collect (State exec exec_bind)

variable (w : Collector)

/-- What the cursor of a tag describes: the enumerators or members of its definition. Members are
read as those of a builtin, where no type is refused. -/
def describeTag (visit : Visit) (c : CursorId) : Collect Decl.Body := do
  let decl := w.table.definitionOf c
  let cursor := w.table.cursor decl
  let isUnion := cursor.kind = .union
  if (w.table.cursor c).kind = .enum then
    return .enum ⟨.int, w.table.variantsOf decl, false, .unknown⟩
  else if cursor.defines then
    let m ← members w visit ⟨w.table.keyOf decl, cursor.name, isUnion⟩ false true decl
    return .record ⟨isUnion, m.fields, false, none, none, 0, true, .unknown⟩
  else return .record ⟨isUnion, [], false, none, none, 0, false, .unknown⟩

/-- What a top cursor describes. -/
def describe (visit : Visit) (c : CursorId) : Collect Decl := do
  let cursor := w.table.cursor c
  match cursor.kind with
  | .typedef =>
    let target ← typedefTarget visit cursor (w.siteOf c (builtinNames.contains cursor.name))
    return ⟨cursor.key, cursor.name, cursor.origin, false, false, .typedef target⟩
  | .function => return w.functionOf c (← w.readFunction visit c)
  | .object => return w.objectOf c (← w.readObject visit c)
  | _ =>
    return ⟨w.table.tagKey c, cursor.name, cursor.origin, false, false, ← w.describeTag visit c⟩

/-- Whether a top cursor declares something that is not passed over. -/
def considers (c : CursorId) : Bool :=
  let cursor := w.table.cursor c
  !w.passesOver c && (cursor.kind.isTag || cursor.kind = .typedef ||
    (cursor.kind = .function || cursor.kind = .object) && !cursor.isStatic)

/-- Whether what a typedef stands for is compared with what the cursor is read as: at some visit it
is entered, or was seen at the top before; or all typedefs of the key are read alike. -/
def Compared (tops : List CursorId) (c : CursorId) : Prop :=
  (∃ first rest, tops = first ++ c :: rest ∧
    (w.table.keyOf c ∉ (w.stateAfter tops first).graph.keys ∨
      w.table.keyOf c ∈ (w.stateAfter tops first).seenTypedefs)) ∨
  ∀ d, (w.table.cursor d).kind = .typedef → w.table.keyOf d = w.table.keyOf c →
    w.table.ReadAlike d c

/-- Whether the cursor cannot declare its key as another thing than others do unnoticed. -/
structure Checked (tops : List CursorId) (c : CursorId) : Prop where
  typedef : (w.table.cursor c).kind = .typedef → w.Compared tops c
  tag : (w.table.cursor c).kind.isTag = true → ∀ d, (w.table.cursor d).kind.isTag = true →
    w.table.tagKey d = w.table.tagKey c → w.table.DefinedAlike d c

variable {w} {tops : List CursorId} {last u : State} {c c' : CursorId}

/-! ## What cursors describe -/

theorem describe_tag {visit : Visit} (isTag : (w.table.cursor c).kind.isTag = true) :
    w.describe visit c = do return ⟨w.table.tagKey c, (w.table.cursor c).name,
      (w.table.cursor c).origin, false, false, ← w.describeTag visit c⟩ := by
  unfold describe
  dsimp only
  split <;> rename_i kind <;> simp [kind, CursorKind.isTag] at isTag ⊢

/-- What a definition of a tag describes does not depend on which cursor leads to it. -/
theorem describeTag_congr {visit : Visit}
    (sort : (w.table.cursor c).kind = .enum ↔ (w.table.cursor c').kind = .enum)
    (same : w.table.definitionOf c = w.table.definitionOf c') :
    w.describeTag visit c = w.describeTag visit c' := by
  unfold describeTag
  simp only [same, sort]

theorem describeTag_enum {visit : Visit} (kind : (w.table.cursor c).kind = .enum) :
    w.describeTag visit c =
      pure (.enum ⟨.int, w.table.variantsOf (w.table.definitionOf c), false, .unknown⟩) := by
  unfold describeTag
  simp only [kind, if_true]

theorem describeTag_record {visit : Visit} {body : Decl.Body} {t : State}
    (other : (w.table.cursor c).kind ≠ .enum)
    (run : exec (w.describeTag visit c) u = (.ok body, t)) :
    ∃ r, body = .record r ∧
      r.isUnion = decide ((w.table.cursor (w.table.definitionOf c)).kind = .union) ∧
      r.complete = (w.table.cursor (w.table.definitionOf c)).defines := by
  unfold describeTag at run
  simp only [if_neg other] at run
  split at run
  · rename_i defines
    rw [exec_bind] at run
    rcases first : exec (w.members visit _ false true (w.table.definitionOf c)) u with ⟨e | m, v⟩ <;>
      rw [first] at run
    · cases (Prod.mk.inj run).1
    · obtain rfl := Except.ok.inj (Prod.mk.inj run).1
      exact ⟨_, rfl, rfl, defines.symm⟩
  · rename_i declares
    obtain rfl := Except.ok.inj (Prod.mk.inj run).1
    exact ⟨_, rfl, rfl, by simpa using declares⟩

/-- Cursors of one tag that lead to one definition, if they lead to definitions at all, describe it
alike. -/
theorem describeTag_alike {visit : Visit} {d d' : Decl} {t t' : State}
    (sort : (w.table.cursor c).kind = .enum ↔ (w.table.cursor c').kind = .enum)
    (alike : w.table.DefinedAlike c c')
    (here : exec (w.describeTag visit c) u = (.ok d.body, t))
    (there : exec (w.describeTag visit c') u = (.ok d'.body, t')) : d.sameShape d' = true := by
  by_cases both : w.table.tells c = true ∧ w.table.tells c' = true
  · rw [describeTag_congr sort (alike.same both.1 both.2), there] at here
    exact Decl.sameShape_of_body (Except.ok.inj (Prod.mk.inj here).1).symm
  · by_cases kind : (w.table.cursor c).kind = .enum
    · rw [describeTag_enum kind] at here
      rw [describeTag_enum (sort.mp kind)] at there
      have body := Except.ok.inj (Prod.mk.inj here).1
      have body' := Except.ok.inj (Prod.mk.inj there).1
      unfold Decl.sameShape
      rw [← body, ← body']
      rcases w.table.isEmpty_of_bare both with empty | empty <;> simp [empty]
    · obtain ⟨r, body, union, complete⟩ := describeTag_record kind here
      obtain ⟨r', body', union', complete'⟩ := describeTag_record (kind ∘ sort.mpr) there
      unfold Decl.sameShape
      rw [body, body']
      have waits : (r.complete && r'.complete) = false := by
        rw [complete, complete', ← Bool.not_eq_true, Bool.and_eq_true]
        exact fun defines => both (by simp [CursorTable.tells, defines])
      simp [waits, union, union', alike.union]

/-! ## What the graph has -/

/-- The enumeration under a key agrees with the cursors of the key. -/
theorem enum_described {visit : Visit} {e : Decl} {x : Enumeration}
    (kind : (w.table.cursor c).kind = .enum) (told : Told w visit last (w.table.tagKey c) e.body)
    (body : e.body = .enum x)
    (alike : ∀ d, (w.table.cursor d).kind.isTag = true → w.table.tagKey d = w.table.tagKey c →
      w.table.DefinedAlike d c) :
    ∃ b, Steady last (w.describeTag visit c) b ∧ ∀ d : Decl, d.body = b → e.sameShape d = true := by
  rw [describeTag_enum kind]
  refine ⟨_, .pure last _, fun d same => ?_⟩
  rw [body] at told
  obtain ⟨c', kind', key, variants, _⟩ := told
  have alike := alike c' (by rw [kind']; rfl) key
  unfold Decl.sameShape
  rw [body, same]
  by_cases both : w.table.tells c' = true ∧ w.table.tells c = true
  · simp [variants, alike.same both.1 both.2]
  · rcases w.table.isEmpty_of_bare both with empty | empty <;> simp [variants, empty]

/-- The record under a key agrees with the cursors of the key. -/
theorem record_described {visit : Visit} {e : Decl} {r : Record}
    (other : (w.table.cursor c).kind ≠ .enum) (told : Told w visit last (w.table.tagKey c) e.body)
    (body : e.body = .record r)
    (complete : (w.table.cursor (w.table.definitionOf c)).defines = true → r.complete = true)
    (alike : ∀ d, (w.table.cursor d).kind.isTag = true → w.table.tagKey d = w.table.tagKey c →
      w.table.DefinedAlike d c) :
    ∃ b, Steady last (w.describeTag visit c) b ∧ ∀ d : Decl, d.body = b → e.sameShape d = true := by
  rw [body] at told
  obtain ⟨⟨c', ⟨isTag, _⟩, key, union⟩, told⟩ := told
  have union : r.isUnion = decide ((w.table.cursor (w.table.definitionOf c)).kind = .union) := by
    simp [union, (alike c' isTag key).union]
  unfold describeTag
  simp only [if_neg other]
  by_cases defines : (w.table.cursor (w.table.definitionOf c)).defines = true
  · obtain ⟨c'', isTag', defines', key', m, fields, steady⟩ := told (complete defines)
    have same : w.table.definitionOf c'' = w.table.definitionOf c :=
      (alike c'' isTag' key').same (by simp [CursorTable.tells, defines'])
        (by simp [CursorTable.tells, defines])
    rw [same] at steady
    rw [if_pos defines]
    refine ⟨_, (steady _ false union.symm).bind (.pure last _), fun d same => ?_⟩
    unfold Decl.sameShape
    rw [body, same]
    simp [union, Record.members, fields]
  · rw [if_neg defines]
    refine ⟨_, .pure last _, fun d same => ?_⟩
    unfold Decl.sameShape
    rw [body, same]
    simp [union]

theorem lt_size_of_isTag (isTag : (w.table.cursor c).kind.isTag = true) :
    c < w.table.cursors.size :=
  lt_size_of_kind fun same => by simp [same, Cursor.absent, CursorKind.isTag] at isTag

/-- Whether a top cursor describes a declaration that has the shape of what the graph has. -/
structure Upheld (w : Collector) (visit : Visit) (s : State) (c : CursorId) (d e : Decl) : Prop where
  steady : Steady s (w.describe visit c) d
  found : s.graph.get? d.key = some e
  shape : e.sameShape d = true
  tag : (w.table.cursor c).kind.isTag = true → d.key = w.table.tagKey c ∧ w.FitsTag c e.body ∧
    Steady s (w.describeTag visit c) d.body
  other : (w.table.cursor c).kind.isTag = false →
    (∀ r, e.body ≠ .record r) ∧ ∀ x, e.body ≠ .enum x

/-- Two top cursors of one key describe declarations of one shape. -/
theorem Upheld.alike {visit : Visit} {s : State} {d d' e e' : Decl}
    (h : Upheld w visit s c d e) (h' : Upheld w visit s c' d' e') (same : d'.key = d.key)
    (plain : s.folded = [])
    (defined : (w.table.cursor c).kind.isTag = true → (w.table.cursor c').kind.isTag = true →
      w.table.tagKey c' = w.table.tagKey c → w.table.DefinedAlike c' c) : d'.sameShape d = true := by
  obtain rfl : e = e' := Option.some.inj (h.found.symm.trans (same ▸ h'.found))
  cases isTag : (w.table.cursor c).kind.isTag with
  | false =>
    obtain ⟨noRecord, noEnum⟩ := h.other isTag
    exact Decl.sameShape_of_common noRecord noEnum h'.shape h.shape
  | true =>
    cases isTag' : (w.table.cursor c').kind.isTag with
    | false =>
      obtain ⟨noRecord, noEnum⟩ := h'.other isTag'
      exact Decl.sameShape_of_common noRecord noEnum h'.shape h.shape
    | true =>
      obtain ⟨key, fits, steady⟩ := h.tag isTag
      obtain ⟨key', fits', steady'⟩ := h'.tag isTag'
      have sort : (w.table.cursor c').kind = .enum ↔ (w.table.cursor c).kind = .enum := by
        cases body : e.body <;> simp_all [FitsTag]
      obtain ⟨_, run, _⟩ := steady s (.refl _) plain
      obtain ⟨_, run', _⟩ := steady' s (.refl _) plain
      exact describeTag_alike sort (defined isTag isTag' (key'.symm.trans (same.trans key))) run' run

/-- A typedef is described as it is in the graph where some visit compares it, or all are alike. -/
theorem WalkRead.target (h : w.WalkRead tops last) (mem : c ∈ tops)
    (kind : (w.table.cursor c).kind = .typedef) (seen : w.passesOver c = false)
    (compared : w.Compared tops c) : w.Targeted (w.visit w.depthBound) last c := by
  rcases compared with ⟨first, rest, split, new | seenBefore⟩ | alike
  · exact ((h.visited split seen).typedef kind).targeted (.inl (DeclGraph.get?_eq_none_iff.mpr new))
  · exact ((h.visited split seen).typedef kind).targeted (.inr ⟨rfl, seenBefore⟩)
  · obtain ⟨first, rest, split⟩ := List.append_of_mem mem
    obtain ⟨d, target, found, body⟩ := ((h.visited split seen).typedef kind).isTypedef
    obtain ⟨c', kind', key, targetIs⟩ :
        Told w (w.visit w.depthBound) last (w.table.keyOf c) (.typedef target) := body ▸ h.told _ d found
    exact ⟨d, target, found, body, targetIs.alike (alike c' kind' key)⟩

theorem WalkRead.upheld (h : w.WalkRead tops last) (mem : c ∈ tops)
    (considered : w.considers c = true) (checked : w.Checked tops c) :
    ∃ d e, Upheld w (w.visit w.depthBound) last c d e := by
  obtain ⟨first, rest, split⟩ := List.append_of_mem mem
  obtain ⟨seen, sort⟩ : w.passesOver c = false ∧ ((w.table.cursor c).kind.isTag = true ∨
      (w.table.cursor c).kind = .typedef ∨ ((w.table.cursor c).kind = .function ∨
        (w.table.cursor c).kind = .object) ∧ (w.table.cursor c).isStatic = false) := by
    simpa [considers, or_assoc] using considered
  have read := h.visited split seen
  rcases sort with isTag | kind | ⟨kind | kind, shared⟩
  · obtain ⟨e, found, fits⟩ := (read.tag isTag).fits
    have told := h.told _ e found
    obtain ⟨body, steady, shape⟩ : ∃ b, Steady last (w.describeTag (w.visit w.depthBound) c) b ∧
        ∀ d : Decl, d.body = b → e.sameShape d = true := by
      cases body : e.body with
      | enum x =>
        rw [body] at fits
        exact enum_described fits told body (checked.tag isTag)
      | record r =>
        rw [body] at fits
        exact record_described fits.1 told body fits.2 (checked.tag isTag)
      | _ =>
        rw [body] at fits
        cases fits
    refine ⟨⟨w.table.tagKey c, (w.table.cursor c).name, (w.table.cursor c).origin, false, false,
      body⟩, e, ?_, found, shape _ rfl, fun _ => ⟨rfl, fits, steady⟩, by simp [isTag]⟩
    rw [describe_tag isTag]
    exact steady.bind (.pure last _)
  · obtain ⟨e, target, found, body, targetIs⟩ := h.target mem kind seen (checked.typedef kind)
    refine ⟨⟨w.table.keyOf c, (w.table.cursor c).name, (w.table.cursor c).origin, false, false,
      .typedef target⟩, e, ?_, found, Decl.sameShape_of_body body, ?_, ?_⟩
    · unfold describe
      simp only [kind]
      exact (targetIs _ id).bind (.pure last _)
    · simp [kind, CursorKind.isTag]
    · simp [body]
  · obtain ⟨sig, e, steady, found, settled, shape, _⟩ := read.function kind shared
    refine ⟨w.functionOf c sig, e, ?_, found, shape, ?_, ?_⟩
    · unfold describe
      simp only [kind]
      exact steady.bind (.pure last _)
    · simp [kind, CursorKind.isTag]
    · exact fun _ => Decl.noTag_of_sameShape rfl shape
  · obtain ⟨type, e, steady, found, settled, shape, _⟩ := read.object kind shared
    refine ⟨w.objectOf c type, e, ?_, found, shape, ?_, ?_⟩
    · unfold describe
      simp only [kind]
      exact steady.bind (.pure last _)
    · simp [kind, CursorKind.isTag]
    · exact fun _ => Decl.noTag_of_sameShape rfl shape

/-- What a top cursor describes in the end has the shape that the graph has for its key, and so do all
declarations that cursors of one key describe. -/
theorem redeclared_alike (w : Collector) (tops : List CursorId) (apart : w.table.TagsApart)
    (g : DeclGraph) (last : State) (collected : exec (w.collect tops) .start = (.ok g, last)) :
    ∀ c ∈ tops, w.considers c = true → w.Checked tops c →
      ∃ d, (exec (w.describe (w.visit w.depthBound) c) last).1 = .ok d ∧
        (∃ e, g.get? d.key = some e ∧ e.sameShape d = true) ∧
        ∀ c' ∈ tops, w.considers c' = true → w.Checked tops c' →
          ∀ d', (exec (w.describe (w.visit w.depthBound) c') last).1 = .ok d' →
            d'.key = d.key → d'.sameShape d = true := by
  obtain ⟨s, run, frozen, same⟩ := state_of_collected collected
  obtain ⟨-, rfl⟩ := DeclGraph.freeze_eq_ok frozen
  have read := walkRead_of_walk apart run
  have plain : last.folded = [] := by
    rw [same]
    exact read.unfolded.folded
  have grows : s.graph.Grows last.graph := by
    rw [same]
    exact fun key d found => ⟨d, found, .refl d⟩
  have describes {c : CursorId} {d e : Decl} (h : Upheld w (w.visit w.depthBound) s c d e) :
      (exec (w.describe (w.visit w.depthBound) c) last).1 = .ok d := by
    obtain ⟨_, run, _⟩ := h.steady last grows plain
    rw [run]
  intro c mem considered checked
  obtain ⟨d, e, upheld⟩ := read.upheld mem considered checked
  refine ⟨d, describes upheld, ⟨e, upheld.found, upheld.shape⟩, ?_⟩
  intro c' mem' considered' checked' d' described' key
  obtain ⟨d'', e', upheld'⟩ := read.upheld mem' considered' checked'
  obtain rfl : d'' = d' := Except.ok.inj ((describes upheld').symm.trans described')
  exact upheld.alike upheld' key read.unfolded.folded fun isTag => checked.tag isTag c'

/-- `typedef int T; typedef int T; struct s; struct s { T n; }; int f(T a); int f(T b);` on the lines of
a file. -/
def declaredTwice : Collector where
  options := .default
  table := {
    cursors := #[
      typedefAt "T" "c:@T@T" 1 13 (some 1) (some 0),
      typedefAt "T" "c:@T@T" 2 13 (some 1) (some 0),
      { cursorAt .struct "s" "c:@S@s" 3 8 (some 2) with definition := some 3 },
      { cursorAt .struct "s" "c:@S@s" 4 8 (some 2) with
        isDefinition := some true, definition := some 3, children := [4] },
      { cursorAt .field "n" "c:@S@s@FI@n" 4 14 (some 1) with offset := some 0 },
      { cursorAt .function "f" "c:@F@f" 5 5 (some 3) with arguments := [6] },
      cursorAt (.other "PARM_DECL") "a" "c:input.h@F@f@a" 5 9 (some 1),
      { cursorAt .function "f" "c:@F@f" 6 5 (some 3) with arguments := [8] },
      cursorAt (.other "PARM_DECL") "b" "c:input.h@F@f@b" 6 9 (some 1)]
    types := #[
      typeOf .int 4 4 (some 0),
      { typeOf .typedef 4 4 (some 0) with declaration := some 0 },
      { typeOf .record 4 4 (some 2) with declaration := some 3 },
      { typeOf .functionProto 1 4 (some 3) with result := some 0, parameters := [some 1] }]
    tops := [0, 1, 2, 3, 5, 7] }

theorem redeclared_alike_declaredTwice : ∃ g last,
    (declaredTwice.table.TagsApart ∧
      exec (declaredTwice.collect [0, 1, 2, 3, 5, 7]) .start = (.ok g, last) ∧
      ∀ c ∈ [0, 1, 2, 3, 5, 7], declaredTwice.considers c = true ∧
        declaredTwice.Checked [0, 1, 2, 3, 5, 7] c) ∧
    ∀ c ∈ [0, 1, 2, 3, 5, 7],
      ∃ d, (exec (declaredTwice.describe (declaredTwice.visit declaredTwice.depthBound) c) last).1
          = .ok d ∧
        (∃ e, g.get? d.key = some e ∧ e.sameShape d = true) ∧
        ∀ c' ∈ [0, 1, 2, 3, 5, 7], ∀ d',
          (exec (declaredTwice.describe (declaredTwice.visit declaredTwice.depthBound) c') last).1
            = .ok d' → d'.key = d.key → d'.sameShape d = true := by
  have oneTag : ∀ c < 9, (declaredTwice.table.cursor c).kind.isTag = true →
      declaredTwice.table.definitionOf c = 3 := by
    decide +kernel
  have oneDefinition : ∀ c < 9, (declaredTwice.table.cursor c).defines = true → c = 3 := by
    decide +kernel
  have considered : ∀ c ∈ [0, 1, 2, 3, 5, 7], declaredTwice.considers c = true := by decide +kernel
  have onlyTypedefs : ∀ c ∈ [0, 1, 2, 3, 5, 7],
      (declaredTwice.table.cursor c).kind = .typedef → c = 0 ∨ c = 1 := by
    decide +kernel
  have apart : declaredTwice.table.TagsApart := by
    intro d e hd he _
    rw [oneDefinition d (lt_size_of_defines hd.defines) hd.defines,
      oneDefinition e (lt_size_of_defines he.defines) he.defines]
  have entered : declaredTwice.table.keyOf 0 ∉
      (declaredTwice.stateAfter [0, 1, 2, 3, 5, 7] []).graph.keys := by
    decide +kernel
  have seen : declaredTwice.table.keyOf 1 ∈
      (declaredTwice.stateAfter [0, 1, 2, 3, 5, 7] [0]).seenTypedefs := by
    decide +kernel
  have checked : ∀ c ∈ [0, 1, 2, 3, 5, 7], declaredTwice.Checked [0, 1, 2, 3, 5, 7] c := by
    intro c mem
    refine ⟨fun kind => ?_, fun isTag d isTag' _ => ?_⟩
    · rcases onlyTypedefs c mem kind with rfl | rfl
      · exact .inl ⟨[], [1, 2, 3, 5, 7], rfl, .inl entered⟩
      · exact .inl ⟨[0], [2, 3, 5, 7], rfl, .inr seen⟩
    · have same : declaredTwice.table.definitionOf d = declaredTwice.table.definitionOf c :=
        (oneTag d (lt_size_of_isTag isTag') isTag').trans
          (oneTag c (lt_size_of_isTag isTag) isTag).symm
      exact ⟨by rw [same], fun _ _ => same⟩
  have evaluated :
      (exec (declaredTwice.walk (declaredTwice.visit declaredTwice.depthBound)
        [0, 1, 2, 3, 5, 7]) .start).1.isOk = true ∧
      ∀ d ∈ (declaredTwice.lastState [0, 1, 2, 3, 5, 7]).graph.decls, ∀ key ∈ d.valueKeys,
        (declaredTwice.lastState [0, 1, 2, 3, 5, 7]).graph.valueKeys key = [] := by
    decide +kernel
  obtain ⟨g, last, collected, -⟩ := collected_of_walk evaluated.1 evaluated.2
  refine ⟨g, last, ⟨apart, collected, fun c mem => ⟨considered c mem, checked c mem⟩⟩, ?_⟩
  intro c mem
  obtain ⟨d, described, entry, alike⟩ :=
    redeclared_alike _ _ apart g last collected c mem (considered c mem) (checked c mem)
  exact ⟨d, described, entry, fun c' mem' => alike c' mem' (considered c' mem') (checked c' mem')⟩

/-- `enum e { A }; enum e { B = 1 };`, where the parser takes both for definitions of one tag. -/
def rivals : Collector where
  options := .default
  table := {
    cursors := #[
      { cursorAt .enum "e" "c:@E@e" 1 6 (some 1) with
        isDefinition := some true, definition := some 0, enumType := some 0, children := [1] },
      cursorAt .enumConstant "A" "c:@E@e@A" 1 10 (some 0),
      { cursorAt .enum "e" "c:@E@e" 2 6 (some 1) with
        isDefinition := some true, definition := some 2, enumType := some 0, children := [3] },
      { cursorAt .enumConstant "B" "c:@E@e@B" 2 10 (some 0) with value := 1 }]
    types := #[
      typeOf .uint 4 4 (some 0),
      { typeOf .enum 4 4 (some 1) with declaration := some 0 }]
    tops := [0, 2] }

/-- A second definition of an enumeration is not looked at, so it may have other enumerators. -/
theorem redeclared_differently : ¬ ∀ (w : Collector) (tops : List CursorId) (g : DeclGraph)
    (last : State), w.table.TagsApart → exec (w.collect tops) .start = (.ok g, last) →
    ∀ c ∈ tops, ∀ c' ∈ tops, w.considers c = true → w.considers c' = true →
      ∀ d d', (exec (w.describe (w.visit w.depthBound) c) last).1 = .ok d →
        (exec (w.describe (w.visit w.depthBound) c') last).1 = .ok d' →
        d'.key = d.key → d'.sameShape d = true := by
  intro all
  have evaluated :
      (exec (rivals.walk (rivals.visit rivals.depthBound) [0, 2]) .start).1.isOk = true ∧
      ∀ d ∈ (rivals.lastState [0, 2]).graph.decls, ∀ key ∈ d.valueKeys,
        (rivals.lastState [0, 2]).graph.valueKeys key = [] := by
    decide +kernel
  have tags : ∀ d < 4, ∀ e < 4, (rivals.table.cursor d).defines = true →
      (rivals.table.cursor e).defines = true → rivals.table.keyOf d = rivals.table.keyOf e := by
    decide +kernel
  have apart : rivals.table.TagsApart := fun d e hd he _ =>
    tags d (lt_size_of_defines hd.defines) e (lt_size_of_defines he.defines) hd.defines he.defines
  obtain ⟨g, last, collected, -⟩ := collected_of_walk evaluated.1 evaluated.2
  have described {c : CursorId} (kind : (rivals.table.cursor c).kind = .enum) :
      (exec (rivals.describe (rivals.visit rivals.depthBound) c) last).1 =
        .ok ⟨rivals.table.tagKey c, (rivals.table.cursor c).name, (rivals.table.cursor c).origin,
          false, false, .enum ⟨.int, rivals.table.variantsOf (rivals.table.definitionOf c), false,
            .unknown⟩⟩ := by
    rw [describe_tag (by rw [kind]; rfl), describeTag_enum kind]
    rfl
  have same := all rivals [0, 2] g last apart collected 0 (by decide) 2 (by decide)
    (by decide +kernel) (by decide +kernel) _ _ (described (by decide +kernel))
    (described (by decide +kernel)) (by decide +kernel)
  revert same
  decide +kernel

end Collector

end HeaderBind
