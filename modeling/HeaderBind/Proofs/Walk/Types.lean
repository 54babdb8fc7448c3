import HeaderBind.Proofs.Walk.Program
import HeaderBind.Proofs.Walk.Depth
/-!
# Reading types, typedefs and enumerations

Where types and tags met on the way are read as they should be, so are the types, typedefs and
enumerations that lead to them: whatever a type mentions is declared as a type.
-/
namespace HeaderBind.Collector

open Collect (State exec)

/-- Whether all keys are declared as types. -/
def Known (s : State) (keys : List String) : Prop := ∀ key ∈ keys, s.graph.namesType key = true

variable {w : Collector} {stop : State → Bool} {safe : Prop} {rank : TypeId → Nat} {bound : Nat}
variable {s t : State}

theorem Known.onward {keys : List String} {open' : List String} (h : Known s keys)
    (onward : Onward w stop open' s t) : Known t keys :=
  fun key mem => onward.namesType (h key mem)

/-- What is known of a way of reading types and tags that goes no deeper than the bound. -/
structure Reads (w : Collector) (stop : State → Bool) (safe : Prop) (rank : TypeId → Nat)
    (bound : Nat) (visit : Visit) : Prop where
  type : ∀ {type site s}, Sound w s → (safe → w.TypeRoom rank bound s type) →
    Walks w stop safe [] s (visit.type type site) fun a t => Known t a.keys
  tag : ∀ {c site top s}, Sound w s → (safe → w.TagRoom bound s) →
    Walks w stop safe [] s (visit.tag c site top) fun key t =>
      t.graph.namesType key = true ∧ w.StandsFor t c key ∧ stop t = false

theorem lt_size_of_kind {c : CursorId} (declared : (w.table.cursor c).kind ≠ Cursor.absent.kind) :
    c < w.table.cursors.size := by
  by_contra outside
  exact declared (by simp [CursorTable.cursor, Array.getD, outside])

namespace Reads

variable {visit : Visit} (reads : Reads w stop safe rank bound visit)
  (ranked : safe → w.table.Ranked rank)

theorem unknownType (sound : Sound w s) (info : CursorType) (layout : Layout) (site : Site) :
    Walks w stop safe [] s (w.unknownType info layout site) fun a t => Known t a.keys := by
  have placeholder (t : State) (spelling : String) :
      Walks w stop safe [] t (Pure.pure (CType.placeholder spelling layout) : Collect CType)
        fun a t => Known t a.keys :=
    .pure (by simp [Known, CType.keys])
  unfold Collector.unknownType
  simp only []
  split
  · exact .fail_bind ⟨by simp, by simp⟩
  · exact .bind sound (.tell _) fun _ t _ _ _ => placeholder t _

include reads in
theorem typedefTarget {cursor : Cursor} {site : Site} (sound : Sound w s)
    (room : safe → w.TypeRoom rank bound s cursor.underlying) :
    Walks w stop safe [] s (Collector.typedefTarget visit cursor site) fun a t => Known t a.keys := by
  unfold Collector.typedefTarget
  split
  · exact .pure (by simp [Known, CType.keys])
  · exact reads.type sound room

include reads ranked in
/-- A typedef that was entered is described by what it stands for. -/
theorem typedefBody {c : CursorId} {site : Site} {d : Decl} {target : CType} (sound : Sound w s)
    (room : safe → w.BodyRoom bound s) (found : s.graph.get? (w.table.cursor c).key = some d)
    (body : d.body = .typedef target) :
    Walks w stop safe [] s (do
        let target ← Collector.typedefTarget visit (w.table.cursor c) site
        Collect.setBody (w.table.cursor c).key (.typedef target)
        return (w.table.cursor c).key)
      fun key t => t.graph.namesType key = true := by
  refine .bind sound (reads.typedefTarget sound fun safe => (room safe).type (ranked safe) _)
    fun target' t onward sound known => ?_
  obtain ⟨e, found', becomes⟩ := onward.path.grows _ d found
  obtain ⟨target₀, body'⟩ : ∃ target₀, e.body = .typedef target₀ := by
    have sort := becomes.sort
    rw [body] at sort
    cases h : e.body <;> simp [h, Decl.Body.SameSort] at sort ⊢
  have describing : Walks w stop safe [] t
      (Collect.setBody (w.table.cursor c).key (.typedef target')) fun _ _ => True := by
    refine (Walks.setBody found' ?_ (fun _ => rfl) ?_ (.inr fun _ => ?_)).mono fun _ _ _ _ => trivial
    · simp [body', Decl.Body.SameSort]
    · simpa [Decl.mentions, Decl.types, Known] using known
    · simp [body', Decl.Body.settled]
  refine .bind sound describing fun _ u onward' _ _ => .pure ?_
  refine onward'.namesType (DeclGraph.namesType_iff.mpr ⟨e, found', ?_⟩)
  simp [body', Decl.Body.isType]

include reads ranked in
/-- A typedef that is there already may be seen again at the top. -/
theorem typedefAgain {c : CursorId} {site : Site} {previous : Decl} {key : String} {target : CType}
    (sound : Sound w s) (room : safe → w.BodyRoom bound s)
    (isType : s.graph.namesType key = true) :
    Walks w stop safe [] s (do
        if (← get).seenTypedefs.contains key then
          let again ← Collector.typedefTarget visit (w.table.cursor c) site
          if again ≠ target then Collect.fail (.conflicting site.place previous)
        modify fun s => { s with seenTypedefs := s.seenTypedefs ++ [key] }
        w.retainFor key c
        return key)
      fun key t => t.graph.namesType key = true := by
  have mark (t : State) (sound : Sound w t) (onward : Onward w stop [] s t) :
      Walks w stop safe [] t (do
          modify fun s => { s with seenTypedefs := s.seenTypedefs ++ [key] }
          w.retainFor key c
          return key)
        fun key t => t.graph.namesType key = true := by
    refine .bind sound (.modifyAside ⟨rfl, rfl, rfl, rfl⟩) fun _ u onward' sound _ => ?_
    refine .bind sound (.retainFor _ c) fun _ v onward'' _ _ => .pure ?_
    exact (onward.trans (onward'.trans onward'')).namesType isType
  refine .look rfl ?_
  split
  · refine .bind sound (reads.typedefTarget sound fun safe => (room safe).type (ranked safe) _)
      fun again t onward sound _ => ?_
    split
    · exact .fail_bind ⟨by simp, by simp⟩
    · exact mark t sound onward
  · exact mark s sound (.refl s)

include reads ranked in
theorem typedefDecl {c : CursorId} {top : Bool} (sound : Sound w s)
    (kind : (w.table.cursor c).kind = .typedef) (room : safe → w.TagRoom (bound + 1) s)
    (roomTop : top = true → safe → w.BodyRoom bound s) :
    Walks w stop safe [] s (w.typedefDecl visit c top) fun key t => t.graph.namesType key = true := by
  unfold Collector.typedefDecl
  simp only []
  refine .look rfl ?_
  split
  · rename_i previous found
    split
    · rename_i target body
      have isType : s.graph.namesType (w.table.cursor c).key = true :=
        DeclGraph.namesType_iff.mpr ⟨previous, found, by simp [body, Decl.Body.isType]⟩
      split
      · exact .pure isType
      · rename_i atTop
        exact reads.typedefAgain ranked sound (roomTop (by simpa using atTop)) isType
    · exact .fail ⟨by simp, by simp⟩
  · rename_i absent
    -- entering the typedef leaves less to read, which makes room for what it stands for
    have room' {t : State} (onward : Onward w stop [] s t)
        (settled : t.graph.settled (w.table.cursor c).key = true) (safe : safe) :
        w.BodyRoom bound t := by
      have inTable : c < w.table.cursors.size := lt_size_of_kind (by simp [kind, Cursor.absent])
      refine (room safe).body (onward.unread_lt_of_settled inTable ?_ settled)
      simp [DeclGraph.settled, CursorTable.keyOf, absent]
    refine .bind sound (.add (by simp [Decl.mentions, Decl.types, CType.keys]) (.inr ?_))
      fun _ t onward sound entered => ?_
    · simp [Decl.isRecord, Decl.Body.isType, Decl.Body.settled]
    · obtain ⟨_, found⟩ := entered.resolve_right fun h => DeclGraph.get?_eq_none_iff.mp absent h.1
      have settled : t.graph.settled (w.table.cursor c).key = true :=
        DeclGraph.settled_iff.mpr ⟨_, found, rfl⟩
      split
      · refine .bind sound (.modifyAside ⟨rfl, rfl, rfl, rfl⟩) fun _ u onward' sound same => ?_
        exact reads.typedefBody ranked sound
          (room' (onward.trans onward') (same.graph ▸ settled)) (same.graph ▸ found) rfl
      · exact reads.typedefBody ranked sound (room' onward settled) found rfl

include reads ranked in
theorem paramType {type : TypeId} {site : Site} (sound : Sound w s)
    (room : safe → w.TypeRoom rank bound s type) :
    Walks w stop safe [] s (w.paramType visit type site) fun a t => Known t a.keys := by
  unfold Collector.paramType
  refine .bind sound (reads.type sound room) fun a t onward sound known => ?_
  split
  · exact .pure known
  · exact .pure known
  · split
    · rename_i isArray
      refine .bind sound (reads.type sound fun safe => ?_) fun elem u _ _ known => .pure known
      have step : w.table.TypeStep (w.table.canonicalOf type)
          (w.table.type (w.table.canonicalOf type)).element :=
        .element (w.table.kind_canonicalOf type ▸ isArray)
      exact ((room safe).onward onward).canonical_step (ranked safe) step
    · exact .pure known
  · exact .pure known

include reads ranked in
theorem paramList {site : Site} {params : List (String × TypeId)} {i : Nat} (sound : Sound w s)
    (room : safe → ∀ p ∈ params, w.TypeRoom rank bound s p.2) :
    Walks w stop safe [] s (w.paramList visit site i params) fun ps t => Known t ps.keys := by
  induction params generalizing i s with
  | nil => exact .pure (by simp [Known, Params.keys])
  | cons p params ih =>
    obtain ⟨name, type⟩ := p
    unfold Collector.paramList
    simp only []
    refine .bind sound (reads.paramType ranked sound fun safe => room safe _ List.mem_cons_self)
      fun a t onward sound known => ?_
    refine .bind sound (ih sound fun safe p mem => (room safe p (List.mem_cons_of_mem _ mem)).onward onward)
      fun ps u onward' _ known' => .pure ?_
    intro key mem
    rcases List.mem_append.mp mem with mem | mem
    · exact known.onward onward' key mem
    · exact known' key mem

include reads ranked in
/-- The type of a function, as `f` describes it, with the parameters named by the arguments. -/
theorem signature {type f : TypeId} {site : Site} {arguments : Option (List CursorId)}
    (sound : Sound w s)
    (describes : (if (w.table.type type).kind.isFunction then type else w.table.canonicalOf type) = f)
    (result : safe → w.TypeRoom rank bound s (w.table.type f).result)
    (parameters : safe → ∀ p ∈ (w.table.type f).parameters, w.TypeRoom rank bound s p)
    (named : safe → ∀ c ∈ arguments.getD [], w.TypeRoom rank bound s (w.table.cursor c).typeId) :
    Walks w stop safe [] s (w.signature visit type site arguments) fun sig t => Known t sig.keys := by
  unfold Collector.signature
  simp only [describes]
  refine .bind sound (reads.type sound result) fun a t onward sound known => ?_
  split
  · exact .pure (by simpa [Known, Signature.keys, Params.keys] using known)
  · refine .bind sound (reads.paramList ranked sound fun safe p mem => ?_)
      fun ps u onward' _ known' => .pure ?_
    · refine TypeRoom.onward ?_ onward
      split at mem
      · split at mem
        · obtain ⟨c, hc, rfl⟩ := List.mem_map.mp mem
          exact named safe c (by simpa using hc)
        · obtain ⟨q, hq, rfl⟩ := List.mem_map.mp mem
          exact parameters safe q hq
      · obtain ⟨q, hq, rfl⟩ := List.mem_map.mp mem
        exact parameters safe q hq
    · intro key mem
      rcases List.mem_append.mp mem with mem | mem
      · exact known.onward onward' key mem
      · exact known' key mem

include reads ranked in
theorem typeRef {type : TypeId} {site : Site} (sound : Sound w s)
    (room : safe → w.TypeRoom rank (bound + 1) s type) :
    Walks w stop safe [] s (w.typeRef visit type site) fun a t => Known t a.keys := by
  have nothing : Known s [] := by simp [Known]
  have step {b : TypeId} (h : w.table.TypeStep type b) (safe : safe) : w.TypeRoom rank bound s b :=
    (room safe).step (ranked safe) h
  have named (c : CursorId) :
      Walks w stop safe [] s (do return CType.named (← visit.tag c site false))
        fun a t => Known t a.keys :=
    .bind sound (reads.tag sound fun safe => (room safe).tag) fun key t _ _ h =>
      .pure (by simpa [Known, CType.keys] using h.1)
  have array (isArray : (w.table.type type).kind.isArray = true) (count : Option Int) :
      Walks w stop safe [] s
        (do return CType.array (← visit.type (w.table.type type).element site) count)
        fun a t => Known t a.keys :=
    .bind sound (reads.type sound (step (.element isArray))) fun elem t _ _ known => .pure known
  have function (isFunction : (w.table.type type).kind.isFunction = true) :
      Walks w stop safe [] s (do return CType.function (← w.signature visit type site none))
        fun a t => Known t a.keys :=
    .bind sound (reads.signature ranked sound (by rw [if_pos isFunction]) (step (.result isFunction))
        (fun safe p mem => step (.parameter isFunction mem) safe) (by simp))
      fun sig t _ _ known => .pure known
  unfold Collector.typeRef
  simp only []
  split <;> rename_i kind
  · exact reads.type sound (step (.named kind))
  · exact .pure nothing
  · split
    · rename_i declared
      refine .bind sound (reads.typedefDecl ranked sound declared (fun safe => ?_) (by simp))
        fun key t _ _ isType => .pure (by simpa [Known, CType.keys] using isType)
      exact Nat.lt_succ_of_lt (room safe).tag
    · rename_i undeclared
      exact reads.type sound fun safe =>
        step (.canonical ((ranked safe).sugar kind undeclared)) safe
  · split
    · exact named _
    · exact unknownType sound _ _ _
  · split
    · exact named _
    · exact unknownType sound _ _ _
  · refine .bind sound (reads.type sound (step (.pointee kind))) fun target t _ _ known => ?_
    split
    · split
      · exact .pure known
      · exact .pure known
    · exact .pure known
  · exact array (by simp [kind, TypeKind.isArray]) _
  · exact array (by simp [kind, TypeKind.isArray]) _
  · exact array (by simp [kind, TypeKind.isArray]) _
  · exact function (by simp [kind, TypeKind.isFunction])
  · exact function (by simp [kind, TypeKind.isFunction])
  · split
    · exact .pure nothing
    · exact .pure nothing
    · split
      · rename_i other
        refine reads.type sound (step (.canonical fun same => other ?_))
        rw [← w.table.kind_canonicalOf, same]
      · exact unknownType sound _ _ _

end Reads

/-- A tag stands for what its key is folded into, where that was defined at the tag's place. -/
theorem standsFor_of_folded (folded : ∀ {key target}, s.folded.lookup key = some target →
      ∃ x, w.table.keyOf x = key ∧ s.definedAt.lookup (w.table.cursor x).place = some target)
    (c : CursorId) :
    w.StandsFor s c ((s.folded.lookup (w.table.keyOf (w.table.definitionOf c))).getD
      (w.table.keyOf (w.table.definitionOf c))) := by
  cases folds : s.folded.lookup (w.table.keyOf (w.table.definitionOf c)) with
  | none => exact .inl rfl
  | some target =>
    obtain ⟨x, same, there⟩ := folded folds
    exact .inr ⟨x, same, there⟩

/-- Where keys are folded into what is settled, a key that stands for something else is not folded. -/
theorem unfolded_of_unsettled (settles : ∀ {key target}, s.folded.lookup key = some target →
      s.graph.settled target = true) (key : String)
    (unsettled : s.graph.settled ((s.folded.lookup key).getD key) = false) :
    s.folded.lookup key = none ∧ (s.folded.lookup key).getD key = key := by
  cases folds : s.folded.lookup key with
  | none => exact ⟨rfl, rfl⟩
  | some target =>
    rw [folds, Option.getD_some, settles folds] at unsettled
    cases unsettled

theorem Sound.standsFor (sound : Sound w s) (c : CursorId) :
    w.StandsFor s c ((s.folded.lookup (w.table.keyOf (w.table.definitionOf c))).getD
      (w.table.keyOf (w.table.definitionOf c))) :=
  standsFor_of_folded (fun folds => (sound.folded folds).2) c

/-- What a key is folded into is settled, and so declared. -/
theorem Sound.settled_of_folded (sound : Sound w s) {key target : String}
    (folds : s.folded.lookup key = some target) : s.graph.settled target = true := by
  obtain ⟨_, x, _, there⟩ := sound.folded folds
  exact sound.placed there

/-- A key is not folded, and so stands for itself, when what it stands for is not settled. -/
theorem Sound.stands_for_itself (sound : Sound w s) (key : String)
    (unsettled : s.graph.settled ((s.folded.lookup key).getD key) = false) :
    s.folded.lookup key = none ∧ (s.folded.lookup key).getD key = key :=
  unfolded_of_unsettled sound.settled_of_folded key unsettled

/-- A tag that is found to be declared gets its mark where it stands at the top. -/
theorem Walks.declared {c decl : CursorId} {key : String} {top : Bool} (sound : Sound w s)
    (isType : s.graph.namesType key = true) (stands : w.StandsFor s c key) :
    Walks w stop safe [] s (do
        if top then w.retainFor key decl
        return key) fun key t => t.graph.namesType key = true ∧ w.StandsFor t c key := by
  split
  · exact .bind sound (.retainFor _ _) fun _ t onward _ _ =>
      .pure ⟨onward.namesType isType, stands.onward onward.path⟩
  · exact .pure ⟨isType, stands⟩

/-- An enumeration is entered whole. -/
theorem Walks.enterEnum {c decl : CursorId} {d : Decl} {e : Enumeration} (sound : Sound w s)
    (body : d.body = .enum e) (stands : w.StandsFor s c d.key) (absent : s.graph.get? d.key = none) :
    Walks w stop safe [] s (do
        Collect.add d
        if (w.table.cursor decl).defines then w.noteDefined decl d.key
        return d.key) fun key t => t.graph.namesType key = true ∧ w.StandsFor t c key := by
  have fresh := DeclGraph.get?_eq_none_iff.mp absent
  refine .bind sound (.add ?_ (.inr ?_)) fun _ t onward sound entered => ?_
  · simp [Decl.mentions, Decl.types, body]
  · simp [Decl.isRecord, Decl.Body.isType, Decl.Body.settled, body]
  · obtain ⟨_, found⟩ := entered.resolve_right fun h => fresh h.1
    have isType : t.graph.namesType d.key = true :=
      DeclGraph.namesType_iff.mpr ⟨d, found, by simp [body, Decl.Body.isType]⟩
    have stands := stands.onward onward.path
    split
    · refine .bind sound (.noteDefined ?_) fun _ u onward' _ _ =>
        .pure ⟨onward'.namesType isType, stands.onward onward'.path⟩
      exact DeclGraph.settled_iff.mpr ⟨d, found, by simp [body, Decl.Body.settled]⟩
    · exact .pure ⟨isType, stands⟩

theorem Walks.enumDecl {c : CursorId} {site : Site} {top : Bool} (sound : Sound w s) :
    Walks w stop safe [] s (w.enumDecl c site top) fun key t =>
      t.graph.namesType key = true ∧ w.StandsFor t c key := by
  unfold Collector.enumDecl
  simp only []
  refine .look rfl ?_
  refine .look rfl ?_
  split
  · rename_i previous found
    split
    · rename_i e body
      refine .declared sound (DeclGraph.namesType_iff.mpr ⟨previous, found, ?_⟩) (sound.standsFor c)
      simp [body, Decl.Body.isType]
    · exact .fail ⟨by simp, by simp⟩
  · rename_i absent
    obtain ⟨new, own⟩ := sound.stands_for_itself (w.table.keyOf (w.table.definitionOf c))
      (by simp [DeclGraph.settled, CursorTable.keyOf, absent])
    rw [CursorTable.keyOf] at own
    rw [own] at absent ⊢
    refine .bind sound (.definedBefore _ _) fun found t onward sound => ?_
    rintro ⟨rfl, before⟩
    split
    · rename_i first repeated
      obtain ⟨d, hd, hfirst⟩ := Option.bind_eq_some_iff.mp repeated
      obtain ⟨_, found, there⟩ := before d hd
      split at hfirst
      · rename_i e body
        obtain rfl : d.key = first := by
          split at hfirst
          · exact Option.some.inj hfirst
          · cases hfirst
        have isType : t.graph.namesType d.key = true :=
          DeclGraph.namesType_iff.mpr ⟨d, found, by simp [body, Decl.Body.isType]⟩
        have stands : w.StandsFor t c d.key := .inr ⟨_, rfl, there⟩
        exact .bind sound (.fold new isType there) fun _ u onward sound _ =>
          .declared sound (onward.namesType isType) (stands.onward onward.path)
      · cases hfirst
    · split
      · exact .bind sound (.anonymousName _ _ _) fun name u _ sound same =>
          .enterEnum sound rfl (.inl rfl) (same.graph ▸ absent)
      · exact .enterEnum sound rfl (.inl rfl) absent

end HeaderBind.Collector
