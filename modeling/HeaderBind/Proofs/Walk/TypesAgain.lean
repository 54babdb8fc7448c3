import HeaderBind.Proofs.Walk.Steady
/-!
# Types read once more

Types, typedefs and enumerations in a unit whose tag definitions stand apart: what they are read as,
they are read as afterwards, by every walk that goes as deep; a tag or typedef that is entered is
only looked up.
-/
namespace HeaderBind.Collector

open Collect (State exec exec_bind)

variable {w : Collector} {limit bound deeper : Nat} {s t : State} {key : String} {c : CursorId}

/-! ## Tags that are entered -/

variable (w) in
/-- Whether a declaration fits the tag that a cursor declares: it is of that sort, and complete if
that is defined. -/
def FitsTag (c : CursorId) : Decl.Body → Prop
  | .enum _ => (w.table.cursor c).kind = .enum
  | .record r => (w.table.cursor c).kind ≠ .enum ∧
      ((w.table.cursor (w.table.definitionOf c)).defines = true → r.complete = true)
  | _ => False

variable (w) in
/-- Whether the tag that a cursor declares is entered; one at the top is bound if that is asked
for. -/
structure Entered (s : State) (c : CursorId) (top : Bool) : Prop where
  fits : ∃ d, s.graph.get? (w.table.tagKey c) = some d ∧ w.FitsTag c d.body
  held : top = true → w.Held s (w.table.tagKey c) (w.table.definitionOf c)

variable (w) in
/-- Whether the enumeration that a cursor declares is entered as its definition says. -/
def EnumEntered (s : State) (c : CursorId) : Prop :=
  ∃ d e, s.graph.get? (w.table.tagKey c) = some d ∧ d.body = .enum e ∧ w.EnumIs c e

theorem FitsTag.becomes {d e : Decl} (h : w.FitsTag c d.body) (becomes : d.Becomes e) :
    w.FitsTag c e.body := by
  have sort := becomes.sort
  have settled := becomes.settled
  cases before : d.body with
  | enum _ =>
    rw [before] at sort h
    cases after : e.body <;> simp [after, Decl.Body.SameSort] at sort
    exact h
  | record r =>
    rw [before] at sort settled h
    cases after : e.body <;> simp only [after, Decl.Body.SameSort] at sort settled <;>
      try cases sort
    exact ⟨h.1, fun defines => settled (h.2 defines)⟩
  | _ => simp [before, FitsTag] at h

theorem Entered.onward {top : Bool} (h : w.Entered s c top) (grows : s.graph.Grows t.graph) :
    w.Entered t c top := by
  obtain ⟨d, found, fits⟩ := h.fits
  obtain ⟨e, found, becomes⟩ := grows _ d found
  exact ⟨⟨e, found, fits.becomes becomes⟩, fun atTop => (h.held atTop).onward grows⟩

/-- Marks a declaration that is met at the top. -/
theorem idle_retainIf {top : Bool} (held : top = true → w.Held s key c) (k : String) :
    Idle s (do
      if top then w.retainFor key c
      return k) k := by
  cases top with
  | true => exact (held rfl).idle.bind fun t _ => .pure t k
  | false => exact .pure s k

/-- A tag that is declared under what its key stands for is only looked up. -/
theorem idle_tagDecl {d : Decl} {top : Bool} {visit : Visit} {site : Site}
    (stands : (s.folded.lookup (w.table.tagKey c)).getD (w.table.tagKey c) = key)
    (found : s.graph.get? key = some d) (fits : w.FitsTag c d.body)
    (held : top = true → w.Held s key (w.table.definitionOf c)) :
    Idle s (w.tagDecl visit c site top) key := by
  have own : (w.table.cursor (w.table.definitionOf c)).key = w.table.tagKey c := rfl
  have redirect : exec (Collect.redirect (w.table.tagKey c)) s = (.ok key, s) := by
    rw [← stands]
    rfl
  have mark : Idle s (do
      if top then w.retainFor key (w.table.definitionOf c)
      return key) key := idle_retainIf held key
  unfold tagDecl
  cases body : d.body with
  | enum e =>
    rw [body] at fits
    have isEnum : (w.table.cursor c).kind = .enum := fits
    rw [if_pos isEnum]
    unfold enumDecl
    simp only [own]
    refine .look redirect (.look rfl ?_)
    rw [found]
    simp only [body]
    exact mark
  | record r =>
    rw [body] at fits
    obtain ⟨other, complete⟩ := fits
    rw [if_neg other]
    unfold recordDecl
    simp only [own]
    refine .look redirect (.look rfl ?_)
    rw [found]
    have nothing : (!r.complete && (w.table.cursor (w.table.definitionOf c)).defines) = false := by
      cases defines : (w.table.cursor (w.table.definitionOf c)).defines <;> simp [complete, defines]
    simp only [body, nothing, Bool.false_eq_true, if_false]
    exact mark
  | _ =>
    rw [body] at fits
    cases fits

/-- A tag that is entered is only looked up. -/
theorem Entered.steady {top top' : Bool} {visit : Visit} {site : Site} (h : w.Entered s c top)
    (less : top' = true → top = true) :
    Steady s (w.tagDecl visit c site top') (w.table.tagKey c) := by
  intro u grows plain
  have later := h.onward grows
  obtain ⟨d, found, fits⟩ := later.fits
  exact idle_tagDecl (by simp [plain]) found fits fun atTop => later.held (less atTop)

variable {again : Visit} {open' : List String}

theorem Leads.retainIf {d : Decl} {top : Bool} (plain : w.Unfolded s)
    (found : s.graph.get? key = some d) (k : String) :
    Leads w again open' s (do
      if top then w.retainFor key c
      return k) fun k' t => k' = k ∧ (top = true → w.Held t key c) := by
  cases top with
  | true =>
    refine .bind (.retainFor plain found) fun _ t extends' held => ?_
    exact .pure extends'.unfolded ⟨rfl, fun _ => held⟩
  | false => exact .pure plain ⟨rfl, nofun⟩

/-- An enumeration is told as soon as it is entered. -/
theorem Leads.enterEnum {d : Decl} {e : Enumeration} {top : Bool} (plain : w.Unfolded s)
    (kind : (w.table.cursor c).kind = .enum) (absent : s.graph.get? (w.table.tagKey c) = none)
    (own : d.key = w.table.tagKey c) (body : d.body = .enum e) (said : w.EnumIs c e)
    (held : top = true → d.retained = true ∨
      w.retains (w.table.cursor (w.table.definitionOf c)) d.builtin = false) :
    Leads w again [] s (do
        Collect.add d
        if (w.table.cursor (w.table.definitionOf c)).defines then
          w.noteDefined (w.table.definitionOf c) (w.table.tagKey c)
        return w.table.tagKey c) fun key t =>
      (key = w.table.tagKey c ∧ w.Entered t c top) ∧ w.EnumEntered t c := by
  have isTag : (w.table.cursor c).kind.isTag = true := by rw [kind]; rfl
  have entered {t : State} (found : t.graph.get? (w.table.tagKey c) = some d) :
      w.Entered t c top ∧ w.EnumEntered t c :=
    ⟨⟨⟨d, found, by rw [body]; exact kind⟩, fun atTop => ⟨d, found, held atTop⟩⟩,
      d, e, found, body, said⟩
  have adding : Leads w again [] s (Collect.add d) fun _ t =>
      t.graph.get? (w.table.tagKey c) = some d := by
    rw [← own] at absent ⊢
    refine .close (.add plain absent) (by simp [DeclGraph.settled, absent]) ?_
    intro _ t found _ f found'
    obtain rfl := Option.some.inj (found.symm.trans found')
    rw [body]
    exact ⟨c, kind, own.symm, said⟩
  refine .bind adding fun _ t extends' found => ?_
  split
  · rename_i defines
    refine .bind (.noteDefined extends'.unfolded isTag defines) fun _ u noting same => ?_
    obtain ⟨here, said⟩ := entered (same ▸ found)
    exact .pure noting.unfolded ⟨⟨rfl, here⟩, said⟩
  · obtain ⟨here, said⟩ := entered found
    exact .pure extends'.unfolded ⟨⟨rfl, here⟩, said⟩

/-- Reading an enumeration enters it as its definition says, unless its key is declared. -/
theorem Leads.enumDecl {site : Site} {top : Bool} (plain : w.Unfolded s) (apart : w.table.TagsApart)
    (kind : (w.table.cursor c).kind = .enum) :
    Leads w again [] s (w.enumDecl c site top) fun key t =>
      (key = w.table.tagKey c ∧ w.Entered t c top) ∧
        (s.graph.get? (w.table.tagKey c) = none → w.EnumEntered t c) := by
  have isTag : (w.table.cursor c).kind.isTag = true := by rw [kind]; rfl
  have own : (w.table.cursor (w.table.definitionOf c)).key = w.table.tagKey c := rfl
  unfold Collector.enumDecl
  simp only [own]
  refine .look (plain.redirect _) ?_
  refine .look rfl ?_
  split
  · rename_i previous found
    split
    · rename_i e body
      refine (Leads.retainIf plain found _).mono fun key t extends' post => ?_
      obtain ⟨rfl, held⟩ := post
      obtain ⟨d, found', becomes⟩ := extends'.grows _ _ found
      have fits : w.FitsTag c previous.body := by
        rw [body]
        exact kind
      refine ⟨⟨rfl, ⟨d, found', fits.becomes becomes⟩, held⟩, fun absent => ?_⟩
      rw [found] at absent
      cases absent
    · exact .fail
  · rename_i absent
    refine .look (plain.definedBefore apart isTag) ?_
    -- which names are builtin does not matter, and is not to be computed
    generalize builtinNames.contains _ = builtin
    simp only [Option.bind_none]
    split
    · refine .bind (.anonymousName plain _ _ _) fun name t extends' quiet => ?_
      exact (Leads.enterEnum extends'.unfolded kind (quiet.graph ▸ absent) rfl rfl ⟨rfl, rfl⟩
        held_of_top).mono fun _ _ _ post => ⟨post.1, fun _ => post.2⟩
    · exact (Leads.enterEnum plain kind absent rfl rfl ⟨rfl, rfl⟩ held_of_top).mono
        fun _ _ _ post => ⟨post.1, fun _ => post.2⟩

/-! ## Types -/

/-- What is known of reading types and tags that goes no deeper than the bound: types are read the
same again by all that goes as deep, and tags are entered. -/
structure Rereads (w : Collector) (limit bound : Nat) : Prop where
  type : ∀ {type site site' s deeper}, w.Unfolded s →
    (site.builtin = true → site'.builtin = true) → bound ≤ deeper →
    Again w (w.visit limit) s ((w.visit bound).type type site) ((w.visit deeper).type type site')
  tag : ∀ {c site top s}, w.Unfolded s → (w.table.cursor c).kind.isTag = true →
    Leads w (w.visit limit) [] s ((w.visit bound).tag c site top) fun key t =>
      0 < bound ∧ key = w.table.tagKey c ∧ w.Entered t c top

theorem unknownType_again {info : CursorType} {layout : Layout} {site site' : Site}
    (plain : w.Unfolded s) (inside : site.builtin = true → site'.builtin = true) :
    Again w again s (w.unknownType info layout site) (w.unknownType info layout site') := by
  unfold unknownType
  simp only []
  split
  · exact .fail_bind
  · rename_i taken
    have taken' : ¬ (w.options.failOnUnknownType && !site'.builtin) = true := by
      cases refuses : w.options.failOnUnknownType <;> simp_all
    rw [if_neg taken']
    exact .bind (.tell plain _ _) fun _ _ extends' => .pure extends'.unfolded _

variable (w) in
/-- Whether the key is that of a typedef. -/
def IsTypedef (s : State) (key : String) : Prop :=
  ∃ d target, s.graph.get? key = some d ∧ d.body = .typedef target

theorem IsTypedef.onward (h : IsTypedef s key) (grows : s.graph.Grows t.graph) :
    IsTypedef t key := by
  obtain ⟨d, target, found, body⟩ := h
  obtain ⟨e, found, becomes⟩ := grows key d found
  have sort := becomes.sort
  rw [body] at sort
  cases after : e.body <;> simp [after, Decl.Body.SameSort] at sort
  exact ⟨e, _, found, after⟩

/-- A typedef that is entered is only looked up, but at the top. -/
theorem IsTypedef.idle {visit : Visit} (h : IsTypedef s (w.table.keyOf c)) :
    Idle s (w.typedefDecl visit c false) (w.table.keyOf c) := by
  obtain ⟨d, target, found, body⟩ := h
  have own : (w.table.cursor c).key = w.table.keyOf c := rfl
  unfold typedefDecl
  simp only [own]
  refine .look rfl ?_
  rw [found]
  simp only [body]
  exact .pure s _

theorem IsTypedef.steady {visit : Visit} (h : IsTypedef s (w.table.keyOf c)) :
    Steady s (w.typedefDecl visit c false) (w.table.keyOf c) :=
  fun _ grows _ => (h.onward grows).idle

variable (w) in
/-- Whether a typedef stands for what its target is read as from the cursor. -/
def Targeted (again : Visit) (s : State) (c : CursorId) : Prop :=
  ∃ d target, s.graph.get? (w.table.keyOf c) = some d ∧ d.body = .typedef target ∧
    TargetIs w again s c target

variable (w) in
/-- What reading a typedef brings about. Its target is read only where the typedef is entered, or
was seen at the top before. -/
structure TypedefRead (again : Visit) (before after : State) (c : CursorId) (top : Bool) : Prop where
  isTypedef : IsTypedef after (w.table.keyOf c)
  held : top = true → w.Held after (w.table.keyOf c) c
  targeted : before.graph.get? (w.table.keyOf c) = none ∨
      top = true ∧ w.table.keyOf c ∈ before.seenTypedefs → w.Targeted again after c

theorem isTag_of_isRecord {kind : CursorKind} (h : kind.isRecord = true) : kind.isTag = true := by
  cases kind <;> simp_all [CursorKind.isRecord, CursorKind.isTag]

theorem inside_at {site site' : Site} (inside : site.builtin = true → site'.builtin = true)
    (owner member owner' member' : String) :
    (site.at owner member).builtin = true → (site'.at owner' member').builtin = true :=
  inside

namespace Rereads

variable (reads : Rereads w limit bound) (within : bound ≤ limit)
include reads

theorem typedefTarget {cursor : Cursor} {site site' : Site} (plain : w.Unfolded s)
    (inside : site.builtin = true → site'.builtin = true) (deep : bound ≤ deeper) :
    Again w (w.visit limit) s (Collector.typedefTarget (w.visit bound) cursor site)
      (Collector.typedefTarget (w.visit deeper) cursor site') := by
  unfold Collector.typedefTarget
  split
  · exact .pure plain _
  · exact reads.type plain inside deep

include within in
/-- What the target of a typedef is read as, it is read as from every site that takes as much. -/
theorem targetIs (plain : w.Unfolded s) (c : CursorId) :
    Leads w (w.visit limit) [] s (Collector.typedefTarget (w.visit bound) (w.table.cursor c)
        (w.siteOf c (builtinNames.contains (w.table.cursor c).name)))
      fun target t => TargetIs w (w.visit limit) t c target := by
  have here : Nonempty { site : Site //
      builtinNames.contains (w.table.cursor c).name = true → site.builtin = true } :=
    ⟨⟨w.siteOf c (builtinNames.contains (w.table.cursor c).name), id⟩⟩
  have all : Leads w (w.visit limit) [] s (Collector.typedefTarget (w.visit bound) (w.table.cursor c)
        (w.siteOf c (builtinNames.contains (w.table.cursor c).name)))
      fun target t => ∀ site : { site : Site //
        builtinNames.contains (w.table.cursor c).name = true → site.builtin = true },
        Steady t (Collector.typedefTarget (w.visit limit) (w.table.cursor c) site.1) target :=
    .all fun site => reads.typedefTarget plain site.2 within
  exact all.mono fun target t _ steady site inside => steady ⟨site, inside⟩

include within in
/-- A typedef that was entered is described by what it stands for. -/
theorem typedefBody {d : Decl} {target : CType} {top : Bool} (plain : w.Unfolded s)
    (found : s.graph.get? (w.table.keyOf c) = some d) (body : d.body = .typedef target)
    (held : top = true → w.Held s (w.table.keyOf c) c) :
    Leads w (w.visit limit) [w.table.keyOf c] s (do
        let target ← Collector.typedefTarget (w.visit bound) (w.table.cursor c)
          (w.siteOf c (builtinNames.contains (w.table.cursor c).name))
        Collect.setBody (w.table.keyOf c) (.typedef target)
        return w.table.keyOf c)
      fun key t => key = w.table.keyOf c ∧ w.Targeted (w.visit limit) t c ∧
        (top = true → w.Held t (w.table.keyOf c) c) := by
  refine .bind ((reads.targetIs within plain c).widen (List.nil_subset _))
    fun again t extends' targetIs => ?_
  obtain ⟨e, target', found', body'⟩ : IsTypedef t (w.table.keyOf c) :=
    .onward ⟨d, target, found, body⟩ extends'.grows
  have sort : e.body.SameSort (.typedef again) := by simp [body', Decl.Body.SameSort]
  refine .bind (.setBody extends'.unfolded found' sort fun _ => rfl)
    fun _ u describing found'' => ?_
  refine .pure describing.unfolded ⟨rfl, ⟨_, again, found'', rfl, fun site inside => ?_⟩,
    fun atTop => (held atTop).onward (extends'.grows.trans describing.grows)⟩
  exact (targetIs site inside).onward describing.grows

include within in
/-- A typedef that is there already is compared when it was seen at the top before. -/
theorem typedefAgain {d : Decl} {target : CType} {site : Site} (plain : w.Unfolded s)
    (found : s.graph.get? (w.table.keyOf c) = some d) (body : d.body = .typedef target) :
    Leads w (w.visit limit) [] s (do
        if (← get).seenTypedefs.contains (w.table.keyOf c) then
          let again ← Collector.typedefTarget (w.visit bound) (w.table.cursor c)
            (w.siteOf c (builtinNames.contains (w.table.cursor c).name))
          if again ≠ target then Collect.fail (.conflicting site.place d)
        modify fun s => { s with seenTypedefs := s.seenTypedefs ++ [w.table.keyOf c] }
        w.retainFor (w.table.keyOf c) c
        return w.table.keyOf c)
      fun key t => key = w.table.keyOf c ∧ w.Held t (w.table.keyOf c) c ∧
        (w.table.keyOf c ∈ s.seenTypedefs → w.Targeted (w.visit limit) t c) := by
  -- marking it keeps what it stands for
  have mark {t : State} (extends' : Extends w (w.visit limit) [] s t) {P : Prop}
      (targetIs : P → TargetIs w (w.visit limit) t c target) :
      Leads w (w.visit limit) [] t (do
          modify fun s => { s with seenTypedefs := s.seenTypedefs ++ [w.table.keyOf c] }
          w.retainFor (w.table.keyOf c) c
          return w.table.keyOf c)
        fun key u => key = w.table.keyOf c ∧ w.Held u (w.table.keyOf c) c ∧
          (P → w.Targeted (w.visit limit) u c) := by
    obtain ⟨e, found', same⟩ := extends'.bodies List.not_mem_nil found (by simp [body, Decl.Body.settled])
    refine .bind (.modifyQuiet extends'.unfolded ⟨rfl, rfl, rfl⟩) fun _ u noting quiet => ?_
    refine .bind (.retainFor noting.unfolded (quiet.graph ▸ found')) fun _ v marking held => ?_
    refine .pure marking.unfolded ⟨rfl, held, fun p => ?_⟩
    obtain ⟨f, found'', same'⟩ := (noting.trans marking).bodies List.not_mem_nil found'
      (by simp [same, body, Decl.Body.settled])
    exact ⟨f, target, found'', same'.trans (same.trans body), fun site inside =>
      (targetIs p site inside).onward (noting.trans marking).grows⟩
  refine .look rfl ?_
  split
  · refine .bind (reads.targetIs within plain c) fun again t extends' targetIs => ?_
    split
    · exact .fail_bind
    · rename_i agrees
      obtain rfl : again = target := by simpa using agrees
      exact (mark extends' fun _ => targetIs)
  · rename_i unseen
    refine mark (.refl plain) fun seen => absurd ?_ unseen
    simpa using seen

include within in
theorem typedefDecl {top : Bool} (plain : w.Unfolded s)
    (kind : (w.table.cursor c).kind = .typedef) :
    Leads w (w.visit limit) [] s (w.typedefDecl (w.visit bound) c top) fun key t =>
      key = w.table.keyOf c ∧ w.TypedefRead (w.visit limit) s t c top := by
  unfold Collector.typedefDecl
  simp only []
  have own : (w.table.cursor c).key = w.table.keyOf c := rfl
  simp only [own]
  refine .look rfl ?_
  split
  · rename_i previous found
    split
    · rename_i target body
      split
      · rename_i below
        have notTop : top = false := by simpa using below
        exact .pure plain ⟨rfl, ⟨previous, target, found, body⟩, by simp [notTop],
          by simp [notTop, found]⟩
      · refine (reads.typedefAgain within plain found body).mono fun key t extends' post => ?_
        obtain ⟨rfl, held, targeted⟩ := post
        refine ⟨rfl, .onward ⟨previous, target, found, body⟩ extends'.grows, fun _ => held, ?_⟩
        intro read
        rcases read with absent | ⟨_, seen⟩
        · simp [found] at absent
        · exact targeted seen
    · exact .fail
  · rename_i absent
    have new : s.graph.settled (w.table.keyOf c) = false := by simp [DeclGraph.settled, absent]
    have close {x : Collect String}
        (h : Leads w (w.visit limit) [w.table.keyOf c] s x fun key t =>
          key = w.table.keyOf c ∧ w.Targeted (w.visit limit) t c ∧
            (top = true → w.Held t (w.table.keyOf c) c)) :
        Leads w (w.visit limit) [] s x fun key t =>
          key = w.table.keyOf c ∧ w.TypedefRead (w.visit limit) s t c top := by
      refine (h.close new fun _ t post _ e found => ?_).mono fun key t _ post => ?_
      · obtain ⟨d, target, found', body, targetIs⟩ := post.2.1
        obtain rfl := Option.some.inj (found'.symm.trans found)
        rw [body]
        exact ⟨c, kind, rfl, targetIs⟩
      · obtain ⟨rfl, ⟨d, target, found, body, targetIs⟩, held⟩ := post
        exact ⟨rfl, ⟨d, target, found, body⟩, held, fun _ => ⟨d, target, found, body, targetIs⟩⟩
    refine close (.bind (.add plain absent) fun _ t entering found => ?_)
    have held (atTop : top = true) : w.Held t (w.table.keyOf c) c :=
      ⟨_, found, by simp [atTop]⟩
    split
    · refine .bind (.modifyQuiet entering.unfolded ⟨rfl, rfl, rfl⟩) fun _ u noting quiet => ?_
      exact reads.typedefBody within noting.unfolded (quiet.graph ▸ found) rfl
        fun atTop => (held atTop).onward noting.grows
    · exact reads.typedefBody within entering.unfolded found rfl held

/-- A tag is entered once, and looked up after that. -/
theorem tagAgain {site site' : Site} {top top' : Bool} (plain : w.Unfolded s)
    (isTag : (w.table.cursor c).kind.isTag = true) (less : top' = true → top = true)
    (deep : bound ≤ deeper) :
    Again w (w.visit limit) s ((w.visit bound).tag c site top)
      ((w.visit deeper).tag c site' top') := by
  refine (reads.tag plain isTag).mono fun key t _ post => ?_
  obtain ⟨some, rfl, entered⟩ := post
  obtain ⟨m, rfl⟩ := Nat.exists_eq_add_one_of_ne_zero (Nat.ne_of_gt (Nat.lt_of_lt_of_le some deep))
  exact entered.steady less

section

variable {site site' : Site} (inside : site.builtin = true → site'.builtin = true)
  (deep : bound ≤ deeper)
include inside deep

theorem paramType {type : TypeId} (plain : w.Unfolded s) :
    Again w (w.visit limit) s (w.paramType (w.visit bound) type site)
      (w.paramType (w.visit deeper) type site') := by
  unfold Collector.paramType
  refine .bind (reads.type plain inside deep) fun a t extends' => ?_
  split
  · exact .pure extends'.unfolded _
  · exact .pure extends'.unfolded _
  · split
    · refine .bind (reads.type extends'.unfolded inside deep) fun _ _ extends'' => ?_
      exact .pure extends''.unfolded _
    · exact .pure extends'.unfolded _
  · exact .pure extends'.unfolded _

theorem paramList {params : List (String × TypeId)} {i : Nat} (plain : w.Unfolded s) :
    Again w (w.visit limit) s (w.paramList (w.visit bound) site i params)
      (w.paramList (w.visit deeper) site' i params) := by
  induction params generalizing i s with
  | nil => exact .pure plain _
  | cons p params ih =>
    refine .bind (reads.paramType (inside_at inside _ _ _ _) deep plain) fun _ _ extends' => ?_
    exact .bind (ih extends'.unfolded) fun _ _ extends'' => .pure extends''.unfolded _

theorem signature {type : TypeId} {arguments : Option (List CursorId)} (plain : w.Unfolded s) :
    Again w (w.visit limit) s (w.signature (w.visit bound) type site arguments)
      (w.signature (w.visit deeper) type site' arguments) := by
  unfold Collector.signature
  simp only []
  generalize (if (w.table.type type).kind.isFunction = true then type else w.table.canonicalOf type)
    = type
  refine .bind (reads.type plain inside deep) fun _ _ extends' => ?_
  split
  · exact .pure extends'.unfolded _
  · refine .bind (reads.paramList inside deep extends'.unfolded) fun _ _ extends'' => ?_
    exact .pure extends''.unfolded _

include within in
theorem typeRef {type : TypeId} (plain : w.Unfolded s) :
    Again w (w.visit limit) s (w.typeRef (w.visit bound) type site)
      (w.typeRef (w.visit deeper) type site') := by
  have unknown : Again w (w.visit limit) s
      (w.unknownType (w.table.type type) (w.table.layoutOf type) site)
      (w.unknownType (w.table.type type) (w.table.layoutOf type) site') :=
    unknownType_again plain inside
  have type (a : TypeId) : Again w (w.visit limit) s ((w.visit bound).type a site)
      ((w.visit deeper).type a site') :=
    reads.type plain inside deep
  have tag {c : CursorId} (isTag : (w.table.cursor c).kind.isTag = true) :
      Again w (w.visit limit) s (do return CType.named (← (w.visit bound).tag c site false))
        (do return CType.named (← (w.visit deeper).tag c site' false)) :=
    .bind (reads.tagAgain plain isTag nofun deep) fun _ _ extends' => .pure extends'.unfolded _
  unfold Collector.typeRef
  simp only []
  split
  · exact type _
  · exact .pure plain _
  · split
    · rename_i kind
      refine .bind ((reads.typedefDecl within plain kind).mono fun key t _ post => ?_)
        fun _ _ extends' => .pure extends'.unfolded _
      exact post.1 ▸ post.2.isTypedef.steady
    · exact type _
  · split
    · rename_i isRecord
      exact tag (isTag_of_isRecord isRecord)
    · exact unknown
  · split
    · rename_i isEnum
      exact tag (by rw [isEnum]; rfl)
    · exact unknown
  · refine .bind (type _) fun target t extends' => ?_
    split
    · split
      · exact .pure extends'.unfolded _
      · exact .pure extends'.unfolded _
    · exact .pure extends'.unfolded _
  · exact .bind (type _) fun _ _ extends' => .pure extends'.unfolded _
  · exact .bind (type _) fun _ _ extends' => .pure extends'.unfolded _
  · exact .bind (type _) fun _ _ extends' => .pure extends'.unfolded _
  · exact .bind (reads.signature inside deep plain) fun _ _ extends' => .pure extends'.unfolded _
  · exact .bind (reads.signature inside deep plain) fun _ _ extends' => .pure extends'.unfolded _
  · split
    · exact .pure plain _
    · exact .pure plain _
    · split
      · exact type _
      · exact unknown

end

end Rereads

end HeaderBind.Collector
