import HeaderBind.Proofs.Walk.Types
/-!
# Reading records

A record is entered, then its members are read: what its fields mention is declared as a type, and
every unnamed tag below its cursor is noted inside it.
-/
namespace HeaderBind

/-- The keys that the members read so far mention. -/
def Members.keys (m : Members) : List String := m.fields.flatMap (·.type.keys)

namespace Collector

open Collect (State exec)

variable {w : Collector} {stop : State → Bool} {safe : Prop} {rank : TypeId → Nat} {bound : Nat}
variable {s t : State}

theorem known_addField {m : Members} {isUnion : Bool} {name : String} {type : CType}
    {width fieldEnd : Option Int} (before : Known s m.keys) (new : Known s type.keys) :
    Known s (m.addField isUnion name type width fieldEnd).keys := by
  intro key mem
  simp only [Members.keys, Members.addField, List.flatMap_append, List.mem_append] at mem
  rcases mem with mem | mem
  · exact before key mem
  · exact new key (by simpa using mem)

theorem known_addAnonymous {m : Members} {part : String} (before : Known s m.keys)
    (new : s.graph.namesType part = true) : Known s (m.addAnonymous part).keys := by
  intro key mem
  simp only [Members.keys, Members.addAnonymous, List.flatMap_append, List.mem_append] at mem
  rcases mem with mem | mem
  · exact before key mem
  · obtain rfl : key = part := by simpa [CType.keys] using mem
    exact new

namespace Reads

variable {visit : Visit} (reads : Reads w stop safe rank bound visit)
  (ranked : safe → w.table.Ranked rank)

include reads in
theorem unnamedTag {owner : Owner} {site : Site} {tags : List (String × String)} {m : Members}
    {c : CursorId} (sound : Sound w s) (room : safe → w.TagRoom bound s) (known : Known s m.keys)
    (inside : w.Inside owner.key c) (part : w.isPart c = true) :
    Walks w stop safe [] s (w.unnamedTag visit owner site tags m c) fun m' t =>
      Known t m'.keys ∧ ∃ key, (owner.key, key) ∈ t.nested ∧ w.StandsFor t c key := by
  unfold Collector.unnamedTag
  split
  · refine .bind sound (reads.tag sound room) fun key t onward sound => ?_
    rintro ⟨isType, stands, passed⟩
    have partOf : w.PartOf t owner.key key := ⟨c, inside, part, stands⟩
    refine .bind sound (.addNested passed isType partOf) fun _ u onward' _ noted => .pure ?_
    exact ⟨known.onward (onward.trans onward'), key, noted, stands.onward onward'.path⟩
  · refine .bind sound (reads.tag sound room) fun key t onward sound => ?_
    rintro ⟨isType, stands, passed⟩
    have partOf : w.PartOf t owner.key key := ⟨c, inside, part, stands⟩
    refine .bind sound (.addNested passed isType partOf) fun _ u onward' _ noted => .pure ⟨?_, ?_⟩
    · split
      · exact known.onward (onward.trans onward')
      · exact known_addAnonymous (known.onward (onward.trans onward')) (onward'.namesType isType)
    · exact ⟨key, noted, stands.onward onward'.path⟩

include reads ranked in
theorem fieldDecl {owner : Owner} {site : Site} {m : Members} {c : CursorId} (sound : Sound w s)
    (room : safe → w.BodyRoom bound s) (known : Known s m.keys) :
    Walks w stop safe [] s (w.fieldDecl visit owner site m c) fun m' t => Known t m'.keys := by
  unfold Collector.fieldDecl
  simp only []
  split
  · exact .pure known
  · split
    · exact .bind sound (.tell _) fun _ t onward _ _ => .pure (known.onward onward)
    · refine .bind sound (reads.type sound fun safe => (room safe).type (ranked safe) _)
        fun type t onward _ new => .pure (known_addField ?_ new)
      split <;> exact known.onward onward

include reads ranked in
theorem member {owner : Owner} {site : Site} {tags : List (String × String)} {m : Members}
    {c : CursorId} (sound : Sound w s) (room : safe → w.BodyRoom bound s) (known : Known s m.keys)
    (inside : w.Inside owner.key c) :
    Walks w stop safe [] s (w.member visit owner site tags m c) fun m' t =>
      Known t m'.keys ∧
        (w.isPart c = true → ∃ key, (owner.key, key) ∈ t.nested ∧ w.StandsFor t c key) := by
  unfold Collector.member
  simp only []
  split
  · rename_i isTag
    split
    · rename_i unnamed
      have part : w.isPart c = true := Bool.and_eq_true_iff.mpr ⟨isTag, unnamed⟩
      refine (reads.unnamedTag sound (fun safe => (room safe).tag) known inside part).mono ?_
      rintro m' t _ ⟨known, noted⟩
      exact ⟨known, fun _ => noted⟩
    · rename_i named
      refine .bind sound (reads.tag sound fun safe => (room safe).tag) fun _ t onward _ _ =>
        .pure ⟨known.onward onward, ?_⟩
      simp [isPart, named]
  · rename_i other
    have noPart : w.isPart c = false := by simp [isPart, other]
    split
    · refine (reads.fieldDecl ranked sound room known).mono fun m' t _ known => ⟨known, ?_⟩
      simp [noPart]
    · split
      · exact .pure ⟨known, by simp [noPart]⟩
      · exact .pure ⟨known, by simp [noPart]⟩

include reads ranked in
theorem foldMembers {owner : Owner} {site : Site} {tags : List (String × String)} {m : Members}
    (children : List CursorId) (sound : Sound w s) (room : safe → w.BodyRoom bound s)
    (known : Known s m.keys) (inside : ∀ c ∈ children, w.Inside owner.key c) :
    Walks w stop safe [] s (children.foldlM (w.member visit owner site tags) m) fun m' t =>
      Known t m'.keys ∧ ∀ c ∈ children, w.isPart c = true →
        ∃ key, (owner.key, key) ∈ t.nested ∧ w.StandsFor t c key := by
  induction children generalizing s m with
  | nil => exact .pure ⟨known, by simp⟩
  | cons c children ih =>
    rw [List.foldlM_cons]
    obtain ⟨here, below⟩ := List.forall_mem_cons.mp inside
    refine .bind sound (reads.member ranked sound room known here) fun m' t onward sound => ?_
    rintro ⟨known, first⟩
    refine (ih sound (fun safe => (room safe).onward onward) known below).mono ?_
    rintro m'' u onward' ⟨known, others⟩
    refine ⟨known, fun c' hc part => ?_⟩
    rcases List.mem_cons.mp hc with rfl | hc
    · obtain ⟨key, noted, stands⟩ := first part
      exact ⟨key, onward'.path.nested_subset noted, stands.onward onward'.path⟩
    · exact others c' hc part

include reads ranked in
theorem members {owner : Owner} {retain builtin : Bool} {decl : CursorId} (sound : Sound w s)
    (room : safe → w.BodyRoom bound s) (defines : (w.table.cursor decl).defines = true)
    (own : owner.key = w.table.keyOf decl) :
    Walks w stop safe [] s (w.members visit owner retain builtin decl) fun m t =>
      Known t m.keys ∧ w.PartsNoted t owner.key decl :=
  reads.foldMembers ranked _ sound room (by simp [Known, Members.keys, Members.start])
    fun _ mem => ⟨decl, defines, own.symm, mem⟩

include reads ranked in
theorem fillRecord {owner : Owner} {retain builtin : Bool} {decl : CursorId} (sound : Sound w s)
    (room : safe → w.BodyRoom bound s) (defines : (w.table.cursor decl).defines = true)
    (own : owner.key = w.table.keyOf decl) :
    Walks w stop safe [] s (w.fillRecord visit owner retain builtin decl) fun _ t =>
      w.PartsNoted t owner.key decl := by
  unfold Collector.fillRecord
  refine .bind sound (reads.members ranked sound room defines own) fun m t onward sound => ?_
  rintro ⟨known, noted⟩
  refine .look rfl ?_
  split
  · rename_i r found
    simp only []
    refine .mono (.setBody found ?_ ?_ ?_ (.inr ?_)) fun _ u onward' _ => noted.onward onward'.path
    · exact rfl
    · exact id
    · intro key mem
      simp only [Decl.mentions, Decl.types, Members.intoRecord, List.flatMap_map] at mem
      exact known key mem
    · exact id
  · exact .pure noted

end Reads

theorem lt_size_of_defines {decl : CursorId} (defines : (w.table.cursor decl).defines = true) :
    decl < w.table.cursors.size := by
  by_contra outside
  rw [CursorTable.cursor_eq_absent (Nat.not_lt.mp outside)] at defines
  cases defines

/-- Whether a key is free, or declared as a type that waits for nothing. -/
structure Clear (w : Collector) (s : State) (key : String) : Prop where
  read : s.graph.isComplete key = true → w.Read s key
  entered : key ∈ s.graph.keys → s.graph.namesType key = true ∧ s.graph.settled key = true

theorem Clear.of_absent {key : String} (absent : s.graph.get? key = none) : Clear w s key where
  read complete := by
    obtain ⟨d, found, _⟩ := DeclGraph.isComplete_iff.mp complete
    simp [absent] at found
  entered known := absurd known (DeclGraph.get?_eq_none_iff.mp absent)

theorem Clear.aside {key : String} (clear : Clear w s key) (path : Path w stop s t)
    (same : t.graph = s.graph) : Clear w t key where
  read complete := (clear.read (same ▸ complete)).onward path
  entered known := same ▸ clear.entered (same ▸ known)

/-- What is finished from where a key was free but folded leaves it clear. -/
theorem Finished.clear {key target : String} {open' : List String} (h : Finished w open' s t)
    (shut : key ∉ open') (absent : s.graph.get? key = none)
    (folded : s.folded.lookup key = some target) : Clear w t key where
  read complete := by
    refine (h.read shut complete).resolve_left fun before => ?_
    obtain ⟨d, found, _⟩ := DeclGraph.isComplete_iff.mp before
    simp [absent] at found
  entered known := by
    obtain ⟨isType, settled⟩ := h.entered shut (DeclGraph.get?_eq_none_iff.mp absent) known
    exact ⟨isType, settled.resolve_right (by simp [folded])⟩

namespace Reads

variable {visit : Visit} (reads : Reads w stop safe rank bound visit)
  (ranked : safe → w.table.Ranked rank)

include reads ranked in
/-- A trial leaves the key clear that it was made for. -/
theorem repeats {first : Decl} {decl : CursorId} (sound : Sound w s)
    (room : safe → w.TagRoom (bound + 1) s) (defines : (w.table.cursor decl).defines = true)
    (new : s.folded.lookup (w.table.keyOf decl) = none)
    (absent : s.graph.get? (w.table.keyOf decl) = none)
    (isType : s.graph.namesType first.key = true)
    (there : s.definedAt.lookup (w.table.cursor decl).place = some first.key) :
    Walks w stop safe [] s (w.repeats visit first decl (w.table.keyOf decl)) fun again t =>
      Clear w t (w.table.keyOf decl) ∧
        (again = false → t.folded.lookup (w.table.keyOf decl) = none) := by
  have folding : Walks w stop safe [] s (Collect.fold (w.table.keyOf decl) first.key) fun _ t =>
      Onward w stop [] s t ∧ t.folded.lookup (w.table.keyOf decl) = some first.key ∧
        t.graph = s.graph :=
    (Walks.fold new isType there).mono fun _ t onward same => ⟨onward, by simp [same], by simp [same]⟩
  have shut : w.table.keyOf decl ∈ [w.table.keyOf decl] := List.mem_singleton_self _
  refine Walks.close (?_ : Walks w stop safe [w.table.keyOf decl] s _ _) (by simpa using new) ?_
  · unfold Collector.repeats
    refine .bind sound (folding.widen (List.nil_subset _)) fun _ t _ sound => ?_
    rintro ⟨onward, folded, same⟩
    have less := onward.unread_lt_of_folded (lt_size_of_defines defines) new folded
    refine .bind sound ((reads.members ranked sound (fun safe => (room safe).body less) defines
      (by rfl)).finished.widen (List.nil_subset _)) fun read u _ sound => ?_
    rintro ⟨finished, _⟩
    have clear := finished.clear (List.not_mem_nil) (same ▸ absent) folded
    -- both ways of giving up unfold the key
    have giveUp : Walks w stop safe [w.table.keyOf decl] u (do
        Collect.unfold (w.table.keyOf decl)
        return false) fun again t => Clear w t (w.table.keyOf decl) ∧
          (again = false → t.folded.lookup (w.table.keyOf decl) = none) := by
      refine .bind sound (.unfold shut) fun _ v onward _ same => .pure ⟨?_, fun _ => ?_⟩
      · exact clear.aside onward.path (by simp [same])
      · simp [same, lookup_filter_ne]
    refine .look rfl ?_
    split
    · split
      · exact .bind sound (.tell _) fun _ v onward _ same =>
          .pure ⟨clear.aside onward.path same.graph, by simp⟩
      · exact giveUp
    · exact giveUp
  · rintro again t ⟨clear, _⟩ key mem
    obtain rfl := List.mem_singleton.mp mem
    exact ⟨fun complete => .inr (clear.read complete), fun _ known => (clear.entered known).1⟩

include reads ranked in
/-- A record is entered under a key that is clear, and read if this is its definition. -/
theorem enterRecord {earlier : State} {decl : CursorId} {d : Decl} {r : Record} {owner : Owner}
    {retain builtin : Bool} (sound : Sound w s) (since : Onward w stop [] earlier s)
    (room : safe → w.TagRoom (bound + 1) earlier)
    (absent : earlier.graph.get? (w.table.keyOf decl) = none)
    (new : s.folded.lookup (w.table.keyOf decl) = none) (clear : Clear w s (w.table.keyOf decl))
    (body : d.body = .record r) (key : d.key = w.table.keyOf decl) (empty : r.fields = [])
    (complete : r.complete = (w.table.cursor decl).defines)
    (same : owner.key = w.table.keyOf decl) :
    Walks w stop safe [w.table.keyOf decl] s (do
        Collect.add d
        if (w.table.cursor decl).defines then
          w.noteDefined decl (w.table.keyOf decl)
          w.fillRecord visit owner retain builtin decl) fun _ t =>
      t.graph.namesType (w.table.keyOf decl) = true ∧
        (t.graph.isComplete (w.table.keyOf decl) = true →
          s.graph.isComplete (w.table.keyOf decl) = true ∨ w.Read t (w.table.keyOf decl)) := by
  refine .bind sound (.add ?_ (.inl (by simp [key]))) fun _ t entering sound entered => ?_
  · simp [Decl.mentions, Decl.types, body, empty]
  rw [key] at entered
  have isType : t.graph.namesType (w.table.keyOf decl) = true := by
    rcases entered with ⟨_, found⟩ | ⟨taken, rfl⟩
    · exact DeclGraph.namesType_iff.mpr ⟨d, found, by simp [body, Decl.Body.isType]⟩
    · exact (clear.entered taken).1
  split
  · rename_i defines
    have settled : t.graph.settled (w.table.keyOf decl) = true := by
      rcases entered with ⟨_, found⟩ | ⟨taken, rfl⟩
      · exact DeclGraph.settled_iff.mpr
          ⟨d, found, by simp [body, Decl.Body.settled, complete, defines]⟩
      · exact (clear.entered taken).2
    refine .bind sound (.noteDefined settled) fun _ u noting sound same' => ?_
    have closed : Onward w stop [] s u := (entering.trans noting).close (by simpa using new)
    have less : w.unread u < w.unread earlier := by
      refine (since.trans closed).unread_lt_of_settled (lt_size_of_defines defines) ?_
        (same' ▸ settled)
      simp [DeclGraph.settled, absent]
    refine ((reads.fillRecord ranked sound (fun safe => (room safe).body less) defines same).widen
      (List.nil_subset _)).mono fun _ v filling noted => ?_
    exact ⟨(noting.trans filling).namesType isType, fun _ => .inr ⟨decl, defines, rfl, same ▸ noted⟩⟩
  · rename_i declares
    refine .pure ⟨isType, fun complete' => .inl ?_⟩
    rcases entered with ⟨_, found⟩ | ⟨_, rfl⟩
    · simp [DeclGraph.isComplete, found, body, Decl.Body.settled, complete, declares] at complete'
    · exact complete'

include reads ranked in
/-- A record is entered that is not settled yet, nor was in an earlier state. -/
theorem newRecord {earlier : State} {decl : CursorId} {site : Site} {top : Bool} (sound : Sound w s)
    (since : Onward w stop [] earlier s) (room : safe → w.TagRoom (bound + 1) earlier)
    (absent : earlier.graph.get? (w.table.keyOf decl) = none)
    (new : s.folded.lookup (w.table.keyOf decl) = none) (clear : Clear w s (w.table.keyOf decl)) :
    Walks w stop safe [] s (w.newRecord visit decl (w.table.keyOf decl) site top) fun _ t =>
      t.graph.namesType (w.table.keyOf decl) = true ∧
        (t.graph.isComplete (w.table.keyOf decl) = true →
          s.graph.isComplete (w.table.keyOf decl) = true ∨ w.Read t (w.table.keyOf decl)) := by
  refine Walks.close (?_ : Walks w stop safe [w.table.keyOf decl] s _ _) (by simpa using new) ?_
  · unfold Collector.newRecord
    simp only []
    split
    · have naming (tag : Tag) : Walks w stop safe [] s (w.anonymousName decl tag site) fun _ t =>
          Onward w stop [] s t ∧ Aside s t :=
        (Walks.anonymousName decl tag site).mono fun _ _ onward aside => ⟨onward, aside⟩
      refine .bind sound ((naming _).widen (List.nil_subset _)) fun name t _ sound => ?_
      rintro ⟨onward, aside⟩
      rw [← aside.folded] at new
      rw [← aside.graph]
      exact reads.enterRecord ranked sound (since.trans onward) room absent new
        (clear.aside onward.path aside.graph) rfl rfl rfl rfl rfl
    · exact reads.enterRecord ranked sound since room absent new clear rfl rfl rfl rfl rfl
  · rintro _ t ⟨isType, finished⟩ key mem
    obtain rfl := List.mem_singleton.mp mem
    exact ⟨finished, fun _ _ => isType⟩

include reads ranked in
/-- A record that was only declared is completed from its definition. -/
theorem complete {decl : CursorId} {d : Decl} {r : Record} {layout : Layout} {name : String}
    {isUnion retain builtin : Bool} (sound : Sound w s) (room : safe → w.TagRoom (bound + 1) s)
    (defines : (w.table.cursor decl).defines = true)
    (new : s.folded.lookup (w.table.keyOf decl) = none)
    (found : s.graph.get? (w.table.keyOf decl) = some d) (body : d.body = .record r)
    (waits : r.complete = false) :
    Walks w stop safe [] s (do
        Collect.setBody (w.table.keyOf decl) (.record { r with complete := true, layout := layout })
        w.noteDefined decl (w.table.keyOf decl)
        w.fillRecord visit ⟨w.table.keyOf decl, name, isUnion⟩ retain builtin decl) fun _ t =>
      w.PartsNoted t (w.table.keyOf decl) decl := by
  refine Walks.close (?_ : Walks w stop safe [w.table.keyOf decl] s _ _) (by simpa using new) ?_
  · refine .bind sound (.setBody found ?_ (fun _ => rfl) ?_ (.inl (List.mem_singleton_self _)))
      fun _ t describing sound same' => ?_
    · simp [body, Decl.Body.SameSort]
    · intro key mem
      refine sound.closed.mentions found key ?_
      simpa [Decl.mentions, Decl.types, body] using mem
    have settled : t.graph.settled (w.table.keyOf decl) = true := by
      refine DeclGraph.settled_iff.mpr ⟨_, by rw [same', DeclGraph.get?_setBody, found]; rfl, ?_⟩
      simp [Decl.Body.settled]
    refine .bind sound (.noteDefined settled) fun _ u noting sound same' => ?_
    have closed : Onward w stop [] s u := (describing.trans noting).close (by simpa using new)
    have less : w.unread u < w.unread s := by
      refine closed.unread_lt_of_settled (lt_size_of_defines defines) ?_ (same' ▸ settled)
      simp [DeclGraph.settled, found, body, Decl.Body.settled, waits]
    exact (reads.fillRecord ranked sound (fun safe => (room safe).body less) defines rfl).widen
      (List.nil_subset _)
  · rintro _ t noted key mem
    obtain rfl := List.mem_singleton.mp mem
    refine ⟨fun _ => .inr ⟨decl, defines, rfl, noted⟩, fun fresh => absurd ?_ fresh⟩
    exact DeclGraph.mem_keys_iff.mpr ⟨d, found⟩

include reads ranked in
theorem recordDecl {c : CursorId} {site : Site} {top : Bool} (sound : Sound w s)
    (room : safe → w.TagRoom (bound + 1) s) :
    Walks w stop safe [] s (w.recordDecl visit c site top) fun key t =>
      t.graph.namesType key = true ∧ w.StandsFor t c key := by
  unfold Collector.recordDecl
  simp only []
  refine .look rfl ?_
  refine .look rfl ?_
  rw [show (w.table.cursor (w.table.definitionOf c)).key = w.table.keyOf (w.table.definitionOf c)
    from rfl]
  split
  · rename_i previous found
    split
    · rename_i r body
      have isType : s.graph.namesType _ = true :=
        DeclGraph.namesType_iff.mpr ⟨previous, found, by simp [body, Decl.Body.isType]⟩
      split
      · rename_i completes
        obtain ⟨waits, defines⟩ : r.complete = false ∧ _ = true := by simpa using completes
        obtain ⟨new, own⟩ := sound.stands_for_itself (w.table.keyOf (w.table.definitionOf c))
          (by simp [DeclGraph.settled, found, body, Decl.Body.settled, waits])
        rw [own] at found isType ⊢
        exact .bind₃ sound (reads.complete ranked sound room defines new found body waits)
          fun _ t onward sound _ => .declared sound (onward.namesType isType) (.inl rfl)
      · exact .declared sound isType (sound.standsFor c)
    · exact .fail ⟨by simp, by simp⟩
  · rename_i absent
    obtain ⟨new, own⟩ := sound.stands_for_itself (w.table.keyOf (w.table.definitionOf c))
      (by simp [DeclGraph.settled, absent])
    rw [own] at absent ⊢
    have enter {t : State} (sound : Sound w t) (since : Onward w stop [] s t)
        (new : t.folded.lookup (w.table.keyOf (w.table.definitionOf c)) = none)
        (clear : Clear w t (w.table.keyOf (w.table.definitionOf c))) :
        Walks w stop safe [] t (do
            w.newRecord visit (w.table.definitionOf c) (w.table.keyOf (w.table.definitionOf c)) site top
            return w.table.keyOf (w.table.definitionOf c)) fun key t =>
          t.graph.namesType key = true ∧ w.StandsFor t c key :=
      .bind sound (reads.newRecord ranked sound since room absent new clear)
        fun _ u _ _ h => .pure ⟨h.1, .inl rfl⟩
    have clear : Clear w s (w.table.keyOf (w.table.definitionOf c)) := .of_absent absent
    refine .bind sound (.definedBefore _ _) fun before t onward sound => ?_
    rintro ⟨rfl, noted⟩
    split
    · rename_i first
      split
      · rename_i isRecord
        obtain ⟨defines, found, there⟩ := noted first rfl
        have isType : t.graph.namesType first.key = true :=
          DeclGraph.namesType_iff.mpr ⟨first, found, Decl.isType_of_isRecord isRecord⟩
        have stands : w.StandsFor t c first.key := .inr ⟨_, rfl, there⟩
        refine .bind sound (reads.repeats ranked sound room defines new absent isType there)
          fun again u onward sound => ?_
        rintro ⟨clear, unfolded⟩
        split
        · exact .declared sound (onward.namesType isType) (stands.onward onward.path)
        · rename_i differs
          exact enter sound onward (unfolded (by simpa using differs)) clear
      · exact enter sound (.refl t) new clear
    · exact enter sound (.refl t) new clear

include reads ranked in
theorem tagDecl {c : CursorId} {site : Site} {top : Bool} (sound : Sound w s)
    (room : safe → w.TagRoom (bound + 1) s) :
    Walks w stop safe [] s (w.tagDecl visit c site top) fun key t =>
      t.graph.namesType key = true ∧ w.StandsFor t c key := by
  unfold Collector.tagDecl
  split
  · exact .enumDecl sound
  · exact reads.recordDecl ranked sound room

end Reads

end Collector

end HeaderBind
