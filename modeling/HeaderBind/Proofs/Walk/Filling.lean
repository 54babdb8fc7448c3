import HeaderBind.Proofs.Walk.Fill
import HeaderBind.Proofs.Walk.MemberStep
/-!
# The walk fills records

Every program of the walk advances: complete records stay, and those that have become complete were
filled. Filling reads members in between, which may fill other records but not this one, since it
counts as complete already.
-/
namespace HeaderBind.Collector

open Collect (State exec exec_bind_eq_ok)

variable {w : Collector} {safe : Prop} {s t : State} {key : String}

/-- What is known of a way of reading types and tags: it advances. -/
structure Advancing (w : Collector) (visit : Visit) : Prop where
  type : ∀ {safe open' type site s}, Advances w safe open' s (visit.type type site) fun _ _ => True
  tag : ∀ {safe open' c site top s}, Advances w safe open' s (visit.tag c site top) fun _ _ => True

/-! ## Types and typedefs -/

namespace Advancing

variable {visit : Visit} (advancing : Advancing w visit) {open' : List String}

theorem unknownType (info : CursorType) (layout : Layout) (site : Site) :
    Advances w safe open' s (w.unknownType info layout site) fun _ _ => True := by
  unfold Collector.unknownType
  simp only []
  split
  · exact .fail_bind
  · exact .bind (.tell _) fun _ _ _ _ => .pure trivial

include advancing in
theorem typedefTarget {cursor : Cursor} {site : Site} :
    Advances w safe open' s (Collector.typedefTarget visit cursor site) fun _ _ => True := by
  unfold Collector.typedefTarget
  split
  · exact .pure trivial
  · exact advancing.type

include advancing in
/-- A typedef that is declared is described by what it stands for. -/
theorem typedefBody {c : CursorId} {site : Site} (isTypedef : IsTypedef s (w.table.keyOf c)) :
    Advances w safe open' s (do
        let target ← Collector.typedefTarget visit (w.table.cursor c) site
        Collect.setBody (w.table.keyOf c) (.typedef target)
        return w.table.keyOf c) fun _ _ => True := by
  refine .bind advancing.typedefTarget fun target t advance _ => ?_
  obtain ⟨d, before, found, body⟩ := isTypedef.onward advance.grows
  exact .bind (.setTypedef found body) fun _ _ _ _ => .pure trivial

include advancing in
theorem typedefDecl {c : CursorId} {top : Bool} :
    Advances w safe open' s (w.typedefDecl visit c top) fun _ _ => True := by
  have marked {s : State} : Advances w safe open' s (do
      modify fun s => { s with seenTypedefs := s.seenTypedefs ++ [w.table.keyOf c] }
      w.retainFor (w.table.keyOf c) c
      return w.table.keyOf c) fun _ _ => True :=
    .bind (.see _) fun _ _ _ _ => .bind (.retainFor _ _) fun _ _ _ _ => .pure trivial
  unfold Collector.typedefDecl
  simp only []
  refine .look rfl ?_
  rw [show (w.table.cursor c).key = w.table.keyOf c from rfl]
  split
  · split
    · split
      · exact .pure trivial
      · refine .look rfl ?_
        split
        · refine .bind advancing.typedefTarget fun again t _ _ => ?_
          split
          · exact .fail_bind
          · exact marked
        · exact marked
    · exact .fail
  · rename_i absent
    refine .bind (.add (.inl rfl)) fun _ t _ entered => ?_
    obtain ⟨_, found⟩ := entered.resolve_right fun taken =>
      DeclGraph.get?_eq_none_iff.mp absent taken.1
    have isTypedef : IsTypedef t (w.table.keyOf c) := ⟨_, _, found, rfl⟩
    split
    · refine .bind (.see _) fun _ u advance _ => ?_
      exact advancing.typedefBody (isTypedef.onward advance.grows)
    · exact advancing.typedefBody isTypedef

include advancing in
theorem paramType {type : TypeId} {site : Site} :
    Advances w safe open' s (w.paramType visit type site) fun _ _ => True := by
  unfold Collector.paramType
  refine .bind advancing.type fun a t _ _ => ?_
  split
  · exact .pure trivial
  · exact .pure trivial
  · split
    · exact .bind advancing.type fun _ _ _ _ => .pure trivial
    · exact .pure trivial
  · exact .pure trivial

include advancing in
theorem paramList {site : Site} {params : List (String × TypeId)} {i : Nat} :
    Advances w safe open' s (w.paramList visit site i params) fun _ _ => True := by
  induction params generalizing i s with
  | nil => exact .pure trivial
  | cons p params ih =>
    unfold Collector.paramList
    simp only []
    exact .bind advancing.paramType fun _ _ _ _ => .bind ih fun _ _ _ _ => .pure trivial

include advancing in
theorem signature {type : TypeId} {site : Site} {arguments : Option (List CursorId)} :
    Advances w safe open' s (w.signature visit type site arguments) fun _ _ => True := by
  unfold Collector.signature
  generalize (if (w.table.type type).kind.isFunction then type else w.table.canonicalOf type) = f
  refine .bind advancing.type fun _ t _ _ => ?_
  split
  · exact .pure trivial
  · exact .bind advancing.paramList fun _ _ _ _ => .pure trivial

include advancing in
theorem typeRef {type : TypeId} {site : Site} :
    Advances w safe open' s (w.typeRef visit type site) fun _ _ => True := by
  have named {c : CursorId} : Advances w safe open' s
      (do return CType.named (← visit.tag c site false)) fun _ _ => True :=
    .bind advancing.tag fun _ _ _ _ => .pure trivial
  have array {element : TypeId} {length : Option Int} : Advances w safe open' s
      (do return CType.array (← visit.type element site) length) fun _ _ => True :=
    .bind advancing.type fun _ _ _ _ => .pure trivial
  have function : Advances w safe open' s
      (do return CType.function (← w.signature visit type site none)) fun _ _ => True :=
    .bind advancing.signature fun _ _ _ _ => .pure trivial
  unfold Collector.typeRef
  simp only []
  split
  · exact advancing.type
  · exact .pure trivial
  · split
    · exact .bind advancing.typedefDecl fun _ _ _ _ => .pure trivial
    · exact advancing.type
  · split
    · exact named
    · exact unknownType _ _ _
  · split
    · exact named
    · exact unknownType _ _ _
  · refine .bind advancing.type fun target t _ _ => ?_
    split
    · split
      · exact .pure trivial
      · exact .pure trivial
    · exact .pure trivial
  · exact array
  · exact array
  · exact array
  · exact function
  · exact function
  · split
    · exact .pure trivial
    · exact .pure trivial
    · split
      · exact advancing.type
      · exact unknownType _ _ _

/-! ## Tags -/

theorem enumDecl {c : CursorId} {site : Site} {top : Bool} :
    Advances w safe open' s (w.enumDecl c site top) fun _ _ => True := by
  unfold Collector.enumDecl
  simp only []
  refine .look rfl ?_
  refine .look rfl ?_
  split
  · split
    · exact .retain
    · exact .fail
  · rename_i absent
    have itself (anchored : Anchored s) := (anchored.stands_for_itself
      (w.table.keyOf (w.table.definitionOf c)) (DeclGraph.settled_of_absent absent)).2
    rw [show (w.table.cursor (w.table.definitionOf c)).key =
      w.table.keyOf (w.table.definitionOf c) from rfl] at absent ⊢
    generalize (s.folded.lookup (w.table.keyOf (w.table.definitionOf c))).getD _ = key
      at absent itself ⊢
    refine .bind (.definedBefore _ _) fun before t _ => ?_
    rintro ⟨rfl, noted⟩
    split
    · rename_i first folds
      obtain ⟨d, rfl, same⟩ := Option.bind_eq_some_iff.mp folds
      have settled : t.graph.settled first = true := by
        split at same
        · rename_i e body
          split at same
          · obtain rfl := Option.some.inj same
            exact DeclGraph.settled_iff.mpr ⟨d, (noted d rfl).1, by simp [body, Decl.Body.settled]⟩
          · cases same
        · cases same
      exact .bind (.fold (fun _ _ => settled) absent fun _ => itself) fun _ _ _ _ => .retain
    · have entered {u : State} {d : Decl} (graph : u.graph = t.graph) (own : d.key = key)
          (plain : d.isRecord = false) : Advances w safe open' u (do
            Collect.add d
            if (w.table.cursor (w.table.definitionOf c)).defines then
              w.noteDefined (w.table.definitionOf c) key
            return key) fun _ _ => True := by
        refine .bind (.add (.inl plain)) fun _ v _ added => ?_
        obtain ⟨_, found⟩ := added.resolve_right fun taken =>
          DeclGraph.get?_eq_none_iff.mp absent (own ▸ graph ▸ taken.1)
        have settled : v.graph.settled key = true :=
          DeclGraph.settled_iff.mpr ⟨d, own ▸ found, Decl.settled_of_not_record plain⟩
        split
        · exact .bind (.noteDefined fun _ _ => settled) fun _ _ _ _ => .pure trivial
        · exact .pure trivial
      split
      · exact .bind (.anonymousName _ _ _) fun _ u _ same => entered same.1 rfl rfl
      · exact entered rfl rfl rfl

end Advancing

/-! ## Records -/

section

variable {visit : Visit} (advancing : Advancing w visit) {owner : Owner} {site : Site}
  {tags : List (String × String)} {m m' : Members}
include advancing

theorem MemberStep.advance {c : CursorId} (step : w.MemberStep visit owner site tags c m s m' t) :
    Advance w safe [] s t := by
  have noted {t : State} (key : String) (h : Advance w safe [] s t) :
      Advance w safe [] s { t with nested := t.nested ++ [(owner.key, key)] } :=
    h.trans (.of_graph rfl rfl rfl List.prefix_rfl)
  cases step with
  | namedTag _ _ run => exact (advancing.tag _ _ run).1
  | fieldTag _ _ _ run => exact noted _ (advancing.tag _ _ run).1
  | looseEnum _ _ _ run => exact noted _ (advancing.tag _ _ run).1
  | anonymous _ _ _ run => exact noted _ (advancing.tag _ _ run).1
  | zeroWidth _ _ => exact .of_graph rfl rfl rfl (List.prefix_append _ _)
  | bits _ _ _ _ run => exact (advancing.type _ _ run).1
  | field _ _ _ run => exact (advancing.type _ _ run).1
  | implicit _ _ _ | packed _ | other _ _ _ => exact .refl s

theorem MemberSteps.advance {children : List CursorId}
    (steps : w.MemberSteps visit owner site tags children m s m' t) : Advance w safe [] s t := by
  induction steps with
  | nil => exact .refl _
  | cons first _ ih => exact (first.advance advancing).trans ih

theorem Advancing.members {retain builtin : Bool} {decl : CursorId} :
    Advances w safe [] s (w.members visit owner retain builtin decl) fun _ _ => True :=
  fun _ _ run => ⟨(memberSteps_of_run run).advance advancing, trivial⟩

/-- A record that was entered is complete or not as before once it is filled. -/
theorem Advancing.fillRecord {retain builtin : Bool} {decl : CursorId} :
    Advances w safe [owner.key] s (w.fillRecord visit owner retain builtin decl) fun _ _ => True := by
  unfold Collector.fillRecord
  refine .bind (.anywhere advancing.members) fun m t _ _ => ?_
  refine .look rfl ?_
  split
  · rename_i r found
    have there : t.graph.record? owner.key = some r :=
      DeclGraph.record?_eq_some_iff.mpr ⟨_, found, rfl⟩
    refine (Advances.setRecord there ?_ ?_).mono fun _ _ _ _ => trivial
    · rfl
    · exact id
  · exact .pure trivial

/-- A trial leaves its key without a record, and to itself if it is given up. -/
theorem Advancing.repeats {first : Decl} {decl : CursorId}
    (known : safe → Anchored s → s.graph.settled first.key = true)
    (absent : s.graph.get? key = none) (itself : safe → Anchored s → s.folded.lookup key = none) :
    Advances w safe [key] s (w.repeats visit first decl key) fun again t =>
      (again = false → t.folded.lookup key = none) ∧
        (safe → Anchored s → t.graph.record? key = none) := by
  unfold Collector.repeats
  refine .bind (.fold known absent itself) fun _ t folding same => ?_
  have folds : t.folded.lookup key = some first.key := by simp [same]
  refine .bind (.along (Advancing.members advancing)) fun read u _ ⟨reading, _⟩ => ?_
  have bare (holds : safe) (anchored : Anchored s) : u.graph.record? key = none := by
    have tidy := reading.tidy holds (folding.tidy holds anchored).anchored
    exact tidy.anchored.bare (tidy.folded List.not_mem_nil folds)
  have giveUp : Advances w safe [key] u (do
      Collect.unfold key
      return false) fun again t =>
        (again = false → t.folded.lookup key = none) ∧
          (safe → Anchored s → t.graph.record? key = none) := by
    refine .bind .unfold fun _ v _ same => .pure ?_
    subst same
    exact ⟨fun _ => by simp [lookup_filter_ne], bare⟩
  refine .look rfl ?_
  split
  · split
    · refine .bind (.tell _) fun _ v _ same => .pure ⟨nofun, ?_⟩
      subst same
      exact bare
    · exact giveUp
  · exact giveUp

end

section

variable {bound : Nat} (advancing : Advancing w (w.visit bound)) {open' : List String}
include advancing

/-- What is complete under the key of a record that was entered is what it is filled with. -/
theorem Advancing.readEntered {decl : CursorId} {owner : Owner} {retain builtin : Bool} {r : Record}
    (defines : (w.table.cursor decl).defines = true) (own : safe → w.table.keyOf decl = owner.key)
    (there : s.graph.record? owner.key = some r) (complete : r.complete = true)
    (layout : r.layout = w.table.layoutOf (w.table.cursor decl).typeId)
    (union : r.isUnion = owner.isUnion) :
    Advances w safe [owner.key] s (do
      w.noteDefined decl owner.key
      w.fillRecord (w.visit bound) owner retain builtin decl) fun _ t =>
        safe → ∀ r, t.graph.complete? owner.key = some r → w.Filled owner.key r := by
  refine .bind (.noteDefined fun _ _ => DeclGraph.settled_of_complete there complete)
    fun _ t _ same => ?_
  refine (Advancing.fillRecord advancing).ran.mono fun _ u _ ran holds r' there' => ?_
  have entered : t.graph.complete? owner.key = some r :=
    same ▸ DeclGraph.complete?_eq_some_iff.mpr ⟨there, complete⟩
  exact ⟨bound, decl, owner, t, u, defines, own holds, rfl,
    ⟨⟨r, entered, layout, union⟩, _, _, ran.1⟩, there'⟩

/-- A record is entered under a key that is free, or was taken by something else while it was tried as
another record. -/
theorem Advancing.newRecord {decl : CursorId} {site : Site} {top : Bool}
    (own : safe → w.table.keyOf decl = key) (itself : safe → s.folded.lookup key = none)
    (plain : safe → s.graph.record? key = none) :
    Advances w safe [key] s (w.newRecord (w.visit bound) decl key site top) fun _ t =>
      safe → ∀ r, t.graph.complete? key = some r → w.Filled key r := by
  have entered {d : Decl} {r : Record} {owner : Owner} {retain builtin : Bool} {u : State}
      (graph : u.graph = s.graph) (folded : u.folded = s.folded) (same : d.key = key)
      (same' : owner.key = key) (body : d.body = .record r)
      (complete : r.complete = (w.table.cursor decl).defines)
      (layout : r.layout = w.table.layoutOf (w.table.cursor decl).typeId)
      (union : r.isUnion = owner.isUnion) :
      Advances w safe [key] u (do
        Collect.add d
        if (w.table.cursor decl).defines then
          w.noteDefined decl key
          w.fillRecord (w.visit bound) owner retain builtin decl) fun _ t =>
        safe → ∀ r, t.graph.complete? key = some r → w.Filled key r := by
    subst same'
    refine .bind (.add (.inr ⟨by simp [same], fun safe _ => same ▸ folded ▸ itself safe⟩))
      fun _ t _ added => ?_
    split
    · rename_i defines
      rcases added with ⟨_, found⟩ | ⟨taken, rfl⟩
      · have there : t.graph.record? owner.key = some r :=
          DeclGraph.record?_eq_some_iff.mpr ⟨d, same ▸ found, body⟩
        exact Advancing.readEntered advancing defines own there (complete.trans defines) layout union
      · have known : owner.key ∈ t.graph.keys := same ▸ taken
        have bare (holds : safe) : t.graph.record? owner.key = none := graph ▸ plain holds
        refine .bind (.noteDefined fun holds _ => DeclGraph.settled_of_known known (bare holds))
          fun _ v noting _ => ?_
        refine (Advancing.fillRecord advancing).mono fun _ u' filling _ holds r there => ?_
        have none := (noting.trans filling).grows.record?_eq_none known (bare holds)
        rw [DeclGraph.complete?_of_record? none] at there
        cases there
    · rename_i declares
      refine .pure fun holds r' there => ?_
      have incomplete : t.graph.complete? owner.key = none := by
        rcases added with ⟨_, found⟩ | ⟨_, rfl⟩
        · have there : t.graph.record? owner.key = some r :=
            DeclGraph.record?_eq_some_iff.mpr ⟨d, same ▸ found, body⟩
          simp [DeclGraph.complete?, there, complete, declares]
        · exact DeclGraph.complete?_of_record? (graph ▸ plain holds)
      rw [incomplete] at there
      cases there
  unfold Collector.newRecord
  simp only []
  split
  · exact .bind (.anonymousName _ _ _) fun name u _ same =>
      entered same.1 same.2 rfl rfl rfl rfl rfl rfl
  · exact entered rfl rfl rfl rfl rfl rfl rfl rfl

/-- A record that was only declared is completed from its definition. -/
theorem Advancing.complete {decl : CursorId} {owner : Owner} {retain builtin : Bool} {r : Record}
    (defines : (w.table.cursor decl).defines = true) (own : safe → w.table.keyOf decl = key)
    (itself : safe → s.folded.lookup key = none) (same : owner.key = key)
    (union : owner.isUnion = r.isUnion) (there : s.graph.record? key = some r)
    (waits : r.complete = false) :
    Advances w safe open' s (do
      Collect.setBody key (.record { r with
        complete := true, layout := w.table.layoutOf (w.table.cursor decl).typeId })
      w.noteDefined decl key
      w.fillRecord (w.visit bound) owner retain builtin decl) fun _ _ => True := by
  subst same
  refine .close ?_ (by simp [DeclGraph.complete?, there, waits]) itself
  refine .bind (.setRecord there ?_ ?_) fun _ t _ entered =>
    Advancing.readEntered advancing defines own entered rfl rfl union.symm
  · rfl
  · exact fun _ => rfl

theorem Advancing.recordDecl {c : CursorId} {site : Site} {top : Bool} :
    Advances w safe open' s (w.recordDecl (w.visit bound) c site top) fun _ _ => True := by
  refine .assume ?_
  unfold Collector.recordDecl
  simp only []
  refine .look rfl ?_
  refine .look rfl ?_
  rw [show (w.table.cursor (w.table.definitionOf c)).key = w.table.keyOf (w.table.definitionOf c)
    from rfl]
  have itself (waits : s.graph.settled _ = false) (holds : safe ∧ Anchored s) :=
    holds.2.stands_for_itself (w.table.keyOf (w.table.definitionOf c)) waits
  generalize (s.folded.lookup (w.table.keyOf (w.table.definitionOf c))).getD _ = key at itself ⊢
  split
  · rename_i previous found
    split
    · rename_i r body
      split
      · rename_i completes
        obtain ⟨waits, defines⟩ : r.complete = false ∧ _ = true := by simpa using completes
        have there := DeclGraph.record?_eq_some_iff.mpr ⟨previous, found, body⟩
        have itself := itself (by simp [DeclGraph.settled, found, body, Decl.Body.settled, waits])
        refine .bind₃ (Advancing.complete advancing defines (fun holds => (itself holds).1)
          (fun holds => (itself holds).2) rfl rfl there waits) fun _ _ _ _ => ?_
        exact .retain
      · exact .retain
    · exact .fail
  · rename_i absent
    have itself := itself (DeclGraph.settled_of_absent absent)
    have free := DeclGraph.record?_of_absent absent
    refine .close ?_ (DeclGraph.complete?_of_record? free) fun holds => (itself holds).2
    -- whatever a trial leaves, the key was free before it
    have enter {t : State} (itself' : safe ∧ Anchored s → t.folded.lookup key = none)
        (plain : safe ∧ Anchored s → t.graph.record? key = none) :
        Advances w (safe ∧ Anchored s) [key] t (do
          w.newRecord (w.visit bound) (w.table.definitionOf c) key site top
          return key) fun _ u =>
            safe ∧ Anchored s → ∀ r, u.graph.complete? key = some r → w.Filled key r :=
      .bind (Advancing.newRecord advancing (fun holds => (itself holds).1) itself' plain)
        fun _ u _ filled => .pure filled
    refine .bind (.definedBefore _ _) fun before t _ => ?_
    rintro ⟨rfl, noted⟩
    split
    · rename_i first
      obtain ⟨_, _, there⟩ := noted first rfl
      split
      · refine .bind (Advancing.repeats advancing (fun _ anchored => anchored.placed there) absent
          fun holds _ => (itself holds).2) fun again u trying => ?_
        rintro ⟨itself', plain⟩
        have plain (holds : safe ∧ Anchored t) := plain holds holds.2
        split
        · refine (Advances.along .retain).mono fun _ v _ marked holds => ?_
          refine marked.1.still_filled holds (trying.tidy holds holds.2).anchored fun r there => ?_
          rw [DeclGraph.complete?_of_record? (plain holds)] at there
          cases there
        · rename_i differs
          exact enter (fun _ => itself' (by simpa using differs)) plain
      · exact enter (fun holds => (itself holds).2) fun _ => free
    · exact enter (fun holds => (itself holds).2) fun _ => free

theorem Advancing.tagDecl {c : CursorId} {site : Site} {top : Bool} :
    Advances w safe open' s (w.tagDecl (w.visit bound) c site top) fun _ _ => True := by
  unfold Collector.tagDecl
  split
  · exact Advancing.enumDecl
  · exact Advancing.recordDecl advancing

end

/-- The walk advances, however deep it may go. -/
theorem advancing_visit (bound : Nat) : Advancing w (w.visit bound) := by
  induction bound with
  | zero => exact ⟨.fail, .fail⟩
  | succ bound ih => exact ⟨ih.typeRef, Advancing.tagDecl ih⟩

/-! ## Top cursors -/

theorem declare_advances {open' : List String} {d : Decl} {site : Site} (plain : d.isRecord = false) :
    Advances w safe open' s (declare d site) fun _ _ => True := by
  unfold Collector.declare
  refine .look rfl ?_
  split
  · exact (Advances.add (.inl plain)).mono fun _ _ _ _ => trivial
  · have marked : Advances w safe open' s (Collect.markRetained d.key) fun _ _ => True :=
      .anywhere (.step rfl (.mark [d.key]) trivial)
    simp only []
    split
    · exact .fail_bind
    · split
      · exact marked
      · exact .pure trivial

theorem topDecl_advances {open' : List String} {bound : Nat} {c : CursorId} :
    Advances w safe open' s (w.topDecl (w.visit bound) c) fun _ _ => True := by
  have advancing : Advancing w (w.visit bound) := advancing_visit bound
  have traced {s : State} (level : Level) (message : String) :
      Advances w safe open' s (Collect.trace level message) fun _ _ => True :=
    (Advances.tell _).mono fun _ _ _ _ => trivial
  have tag {s : State} : Advances w safe open' s
      (do let _ ← (w.visit bound).tag c (w.siteOf c false) true) fun _ _ => True :=
    .bind advancing.tag fun _ _ _ _ => .pure trivial
  unfold Collector.topDecl
  simp only []
  split
  · exact traced _ _
  · split
    · exact tag
    · exact tag
    · exact tag
    · exact .bind advancing.typedefDecl fun _ _ _ _ => .pure trivial
    · unfold Collector.functionDecl
      simp only []
      split
      · exact traced _ _
      · exact .bind advancing.signature fun _ _ _ _ => declare_advances rfl
    · unfold Collector.objectDecl
      simp only []
      split
      · exact traced _ _
      · exact .bind advancing.type fun _ _ _ _ => declare_advances rfl
    · exact traced _ _

theorem forM_advances {open' : List String} {bound : Nat} (rest : List CursorId) :
    Advances w safe open' s (rest.forM (w.topDecl (w.visit bound))) fun _ _ => True := by
  induction rest generalizing s with
  | nil => exact .pure trivial
  | cons c rest ih => exact .bind topDecl_advances fun _ _ _ _ => ih

/-! ## What filling leaves -/

/-- What is known of a record that is filled: the members that were read from its cursor were put into
it as it was entered. -/
structure FilledBy (w : Collector) (bound : Nat) (decl : CursorId) (owner : Owner) (s t : State)
    (m : Members) (before : Record) : Prop where
  read : ∃ retain builtin u,
    exec (w.members (w.visit bound) owner retain builtin decl) s = (.ok m, u) ∧ u.events = t.events
  record : t.graph.complete? owner.key =
    some (m.intoRecord before (w.table.widestAlign (w.table.cursor decl).children))
  layout : before.layout = w.table.layoutOf (w.table.cursor decl).typeId
  union : before.isUnion = owner.isUnion

/-- A record is still there as it was entered when its members are read. -/
theorem Fills.left {bound : Nat} {decl : CursorId} {owner : Owner}
    (fills : w.Fills bound decl owner s t) : ∃ m before, FilledBy w bound decl owner s t m before := by
  obtain ⟨⟨before, entered, layout, union⟩, retain, builtin, run⟩ := fills
  unfold Collector.fillRecord at run
  obtain ⟨m, u, read, run⟩ := exec_bind_eq_ok.mp run
  have advance : Advance w False [] s u := (Advancing.members (advancing_visit bound) _ _ read).1
  obtain ⟨there, complete⟩ :=
    DeclGraph.complete?_eq_some_iff.mp (advance.stays List.not_mem_nil entered)
  obtain ⟨d, found, body⟩ := DeclGraph.record?_eq_some_iff.mp there
  obtain ⟨_, v, look, run⟩ := exec_bind_eq_ok.mp run
  obtain ⟨same, rfl⟩ := Prod.mk.inj look
  obtain rfl := Except.ok.inj same
  obtain ⟨key, name, origin, retained, builtin', _⟩ := d
  obtain rfl : _ = Decl.Body.record before := body
  rw [found] at run
  obtain ⟨_, rfl⟩ := Prod.mk.inj run
  exact ⟨m, before, ⟨retain, builtin, _, read, rfl⟩,
    DeclGraph.complete?_eq_some_iff.mpr ⟨DeclGraph.record?_setBody_self _ there rfl, complete⟩,
    layout, union⟩

/-- Every complete record of a graph that was collected was filled from a definition on the way, and
is as it was left there. -/
theorem filled_of_collected {bound : Nat} {tops : List CursorId} {g : DeclGraph} {r : Record}
    (collected : exec (w.collectWithin bound tops) .start = (.ok g, t))
    (complete : g.complete? key = some r) : w.Filled key r := by
  obtain ⟨last, run, frozen, _⟩ := walk_of_collected collected
  obtain ⟨_, rfl⟩ := DeclGraph.freeze_eq_ok frozen
  have noting : exec (w.walk (w.visit bound) tops) .start =
      exec (tops.forM (w.topDecl (w.visit bound))) (w.noted tops) := rfl
  rw [noting] at run
  have start : Anchored .start := anchored_start
  have advance : Advance w True [] (w.noted tops) last := (forM_advances tops () last run).1
  have tidy := advance.tidy trivial ⟨start.target, start.bare, start.placed⟩
  rcases tidy.filled List.not_mem_nil complete with there | filled
  · cases there
  · exact filled

end HeaderBind.Collector
