import HeaderBind.Proofs.Walk.Program
/-!
# What is read the same again

Where the tag definitions of a unit stand at places of their own, nothing is folded. A type, the
target of a typedef and the members of a record are then read the same in every later state, and
reading them once more changes no declaration. So it makes sense to say which cursor a declaration
was read from: it still says what that cursor is read as.
-/
namespace HeaderBind

namespace CursorTable

variable (t : CursorTable)

/-- The key of the tag that a cursor declares: that of its definition. -/
def tagKey (c : CursorId) : String := t.keyOf (t.definitionOf c)

/-- Whether a cursor is the definition of some tag, in a file that is known. -/
structure TagDefinition (d : CursorId) : Prop where
  tag : ∃ c, (t.cursor c).kind.isTag = true ∧ t.definitionOf c = d
  defines : (t.cursor d).defines = true
  known : ((t.cursor d).origin.getD "").isEmpty = false

/-- Whether definitions at one place are definitions of one tag. -/
def TagsApart : Prop :=
  ∀ d e, t.TagDefinition d → t.TagDefinition e → (t.cursor d).place = (t.cursor e).place →
    t.keyOf d = t.keyOf e

end CursorTable

namespace Collector

open Collect (State exec exec_bind exec_add)

/-- Whether two states agree in the graph and in what was noted of definitions. -/
structure Quiet (s t : State) : Prop where
  graph : t.graph = s.graph
  definedAt : t.definedAt = s.definedAt
  folded : t.folded = s.folded

/-- Whether a program gives something without changing what counts. -/
def Idle {α : Type} (s : State) (x : Collect α) (a : α) : Prop :=
  ∃ t, exec x s = (.ok a, t) ∧ Quiet s t

/-- Whether a program gives the same in every later state in which nothing is folded, and leaves the
graph as it is there. -/
def Steady {α : Type} (s : State) (x : Collect α) (a : α) : Prop :=
  ∀ u, s.graph.Grows u.graph → u.folded = [] → Idle u x a

variable {w : Collector} {α β : Type} {s t u : State} {key : String}

theorem Quiet.refl (s : State) : Quiet s s := ⟨rfl, rfl, rfl⟩

theorem Quiet.trans (h : Quiet s t) (h' : Quiet t u) : Quiet s u :=
  ⟨h'.graph.trans h.graph, h'.definedAt.trans h.definedAt, h'.folded.trans h.folded⟩

theorem Aside.quiet (h : Aside s t) : Quiet s t := ⟨h.graph, h.definedAt, h.folded⟩

namespace Idle

variable {x : Collect α} {f : α → Collect β} {a : α} {b : β}

theorem pure (s : State) (a : α) : Idle s (Pure.pure a : Collect α) a := ⟨s, rfl, .refl s⟩

theorem bind (hx : Idle s x a) (hf : ∀ t, Quiet s t → Idle t (f a) b) : Idle s (x >>= f) b := by
  obtain ⟨t, run, quiet⟩ := hx
  obtain ⟨u, run', quiet'⟩ := hf t quiet
  exact ⟨u, by rw [exec_bind, run]; exact run', quiet.trans quiet'⟩

theorem look (h : exec x s = (.ok a, s)) (hf : Idle s (f a) b) : Idle s (x >>= f) b := by
  obtain ⟨t, run, quiet⟩ := hf
  exact ⟨t, by rw [exec_bind, h]; exact run, quiet⟩

end Idle

namespace Steady

theorem onward {x : Collect α} {a : α} (h : Steady s x a) (grows : s.graph.Grows t.graph) :
    Steady t x a :=
  fun u later plain => h u (grows.trans later) plain

theorem pure (s : State) (a : α) : Steady s (Pure.pure a : Collect α) a :=
  fun u _ _ => .pure u a

theorem bind {x : Collect α} {f : α → Collect β} {a : α} {b : β} (hx : Steady s x a)
    (hf : Steady s (f a) b) : Steady s (x >>= f) b := by
  intro u later plain
  exact (hx u later plain).bind fun v quiet =>
    hf v (quiet.graph ▸ later) (quiet.folded.trans plain)

end Steady

/-! ## States in which nothing is folded -/

theorem exec_redirect (plain : s.folded = []) (key : String) :
    exec (Collect.redirect key) s = (.ok key, s) := by
  have run : exec (Collect.redirect key) s = (.ok ((s.folded.lookup key).getD key), s) := rfl
  simpa [plain] using run

variable (w) in
/-- Whether nothing is folded, and the keys noted at places are those of definitions that stand
there. -/
structure Unfolded (s : State) : Prop where
  folded : s.folded = []
  placed : ∀ {place key}, s.definedAt.lookup place = some key →
    ∃ d, w.table.TagDefinition d ∧ (w.table.cursor d).place = place ∧ w.table.keyOf d = key

theorem unfolded_start : w.Unfolded .start := ⟨rfl, fun there => by cases there⟩

namespace Unfolded

theorem quiet (h : w.Unfolded s) (quiet : Quiet s t) : w.Unfolded t :=
  ⟨quiet.folded.trans h.folded, fun there => h.placed (quiet.definedAt ▸ there)⟩

theorem redirect (h : w.Unfolded s) (key : String) :
    exec (Collect.redirect key) s = (.ok key, s) :=
  exec_redirect h.folded key

/-- A definition is not taken for one that was met before. -/
theorem definedBefore (h : w.Unfolded s) (apart : w.table.TagsApart) {c : CursorId}
    (isTag : (w.table.cursor c).kind.isTag = true) :
    exec (w.definedBefore (w.table.definitionOf c) (w.table.tagKey c)) s = (.ok none, s) := by
  unfold Collector.definedBefore
  simp only []
  split
  · rfl
  · rename_i known
    have got : exec (get : Collect State) s = (.ok s, s) := rfl
    rw [exec_bind, got]
    dsimp only
    split
    · rfl
    · rename_i first there
      obtain ⟨d, isDefinition, place, rfl⟩ := h.placed there
      have here : w.table.TagDefinition (w.table.definitionOf c) :=
        ⟨⟨c, isTag, rfl⟩, by simp_all, by simp_all⟩
      have same : w.table.keyOf d = w.table.tagKey c := apart d _ isDefinition here place
      rw [if_pos same]
      rfl

end Unfolded

/-! ## What declarations were read from -/

/-- Whether a type is what the target of the typedef is read as. An unknown type may be read from
inside a builtin only, if the typedef was. -/
def TargetIs (w : Collector) (again : Visit) (s : State) (c : CursorId) (target : CType) : Prop :=
  ∀ site : Site, (builtinNames.contains (w.table.cursor c).name = true → site.builtin = true) →
    Steady s (typedefTarget again (w.table.cursor c) site) target

/-- Whether the fields are those that the members below a cursor are read as. -/
def FieldsAre (w : Collector) (again : Visit) (s : State) (decl : CursorId) (r : Record) : Prop :=
  ∃ m : Members, r.fields = m.fields ∧ ∀ (owner : Owner) (retain : Bool),
    owner.isUnion = r.isUnion → Steady s (w.members again owner retain true decl) m

variable (w) in
/-- Whether a record is a union just as the definition that some cursor leads to. -/
def Shaped (key : String) (r : Record) : Prop :=
  ∃ c, ((w.table.cursor c).kind.isTag = true ∧ (w.table.cursor c).kind ≠ .enum) ∧
    w.table.tagKey c = key ∧
    r.isUnion = decide ((w.table.cursor (w.table.definitionOf c)).kind = .union)

variable (w) in
/-- Whether an enumeration has the enumerators and the layout of the definition a cursor leads to. -/
structure EnumIs (c : CursorId) (e : Enumeration) : Prop where
  variants : e.variants = w.table.variantsOf (w.table.definitionOf c)
  layout : e.layout = w.table.layoutOf (w.table.cursor (w.table.definitionOf c)).typeId

/-- Whether what stands under a key was read from cursors of that key, and is what they are still
read as. -/
def Told (w : Collector) (again : Visit) (s : State) (key : String) : Decl.Body → Prop
  | .typedef target => ∃ c, (w.table.cursor c).kind = .typedef ∧ w.table.keyOf c = key ∧
      TargetIs w again s c target
  | .record r => w.Shaped key r ∧ (r.complete = true → ∃ c, (w.table.cursor c).kind.isTag = true ∧
      (w.table.cursor (w.table.definitionOf c)).defines = true ∧ w.table.tagKey c = key ∧
      FieldsAre w again s (w.table.definitionOf c) r)
  | .enum e => ∃ c, (w.table.cursor c).kind = .enum ∧ w.table.tagKey c = key ∧ w.EnumIs c e
  | .function _ | .object _ _ => True

/-- Whether whatever is under the key was read from cursors of that key. -/
def ToldOf (w : Collector) (again : Visit) (s : State) (key : String) : Prop :=
  ∀ d, s.graph.get? key = some d → Told w again s key d.body

theorem Told.onward {again : Visit} {body : Decl.Body} (h : Told w again s key body)
    (grows : s.graph.Grows t.graph) : Told w again t key body := by
  cases body with
  | typedef target =>
    obtain ⟨c, kind, same, target⟩ := h
    exact ⟨c, kind, same, fun site inside => (target site inside).onward grows⟩
  | record r =>
    obtain ⟨shaped, told⟩ := h
    refine ⟨shaped, fun complete => ?_⟩
    obtain ⟨c, isTag, defines, same, m, fields, steady⟩ := told complete
    exact ⟨c, isTag, defines, same, m, fields, fun owner retain union =>
      (steady owner retain union).onward grows⟩
  | enum e => exact h
  | function sig => trivial
  | object type isMutable => trivial

theorem ToldOf.of_absent {again : Visit} (absent : s.graph.get? key = none) :
    ToldOf w again s key := by
  intro d found
  rw [absent] at found
  cases found

/-- What is said of bodies only is said of every graph that has them. -/
theorem ToldOf.onward {again : Visit} (h : ToldOf w again s key) (grows : s.graph.Grows t.graph)
    (back : ∀ e, t.graph.get? key = some e → ∃ d, s.graph.get? key = some d ∧ e.body = d.body) :
    ToldOf w again t key := by
  intro e found
  obtain ⟨d, found', same⟩ := back e found
  rw [same]
  exact (h d found').onward grows

/-! ## States that lead to others -/

/-- Whether a state with nothing folded is led to: the graph grew, the bodies of settled declarations
stayed, and what was read from a cursor still is. Some keys are left out, whose declarations are still
being read. -/
structure Extends (w : Collector) (again : Visit) (open' : List String) (s t : State) : Prop where
  unfolded : w.Unfolded t
  grows : s.graph.Grows t.graph
  bodies : ∀ {key d}, key ∉ open' → s.graph.get? key = some d → d.body.settled = true →
    ∃ e, t.graph.get? key = some e ∧ e.body = d.body
  told : ∀ {key}, key ∉ open' → ToldOf w again s key → ToldOf w again t key

namespace Extends

variable {again : Visit} {open' : List String}

theorem refl (plain : w.Unfolded s) : Extends w again open' s s :=
  ⟨plain, .refl _, fun _ found _ => ⟨_, found, rfl⟩, fun _ => id⟩

theorem trans (h : Extends w again open' s t) (h' : Extends w again open' t u) :
    Extends w again open' s u where
  unfolded := h'.unfolded
  grows := h.grows.trans h'.grows
  bodies shut found settled := by
    obtain ⟨e, found, same⟩ := h.bodies shut found settled
    obtain ⟨f, found, same'⟩ := h'.bodies shut found (same ▸ settled)
    exact ⟨f, found, same'.trans same⟩
  told shut told := h'.told shut (h.told shut told)

theorem widen {open'' : List String} (h : Extends w again open' s t) (wider : open' ⊆ open'') :
    Extends w again open'' s t :=
  ⟨h.unfolded, h.grows, fun shut => h.bodies fun mem => shut (wider mem),
    fun shut => h.told fun mem => shut (wider mem)⟩

/-- A key that was not settled before need not be left out once it is told what it was read from. -/
theorem close (h : Extends w again [key] s t) (new : s.graph.settled key = false)
    (told : ToldOf w again s key → ToldOf w again t key) : Extends w again [] s t where
  unfolded := h.unfolded
  grows := h.grows
  bodies := by
    intro k d _ found settled
    by_cases same : k = key
    · have : s.graph.settled key = true := DeclGraph.settled_iff.mpr ⟨d, same ▸ found, settled⟩
      rw [new] at this
      cases this
    · exact h.bodies (by simpa using same) found settled
  told := by
    intro k _ before
    by_cases same : k = key
    · subst same
      exact told before
    · exact h.told (by simpa using same) before

/-- Where the graph only changed in marks and under keys that are left out, all else stays. -/
theorem of_back (plain : w.Unfolded t) (grows : s.graph.Grows t.graph)
    (back : ∀ {key e}, key ∉ open' → t.graph.get? key = some e →
      ∃ d, s.graph.get? key = some d ∧ e.body = d.body) : Extends w again open' s t where
  unfolded := plain
  grows := grows
  bodies := by
    intro key d shut found _
    obtain ⟨e, found', _⟩ := grows key d found
    obtain ⟨d', again', same⟩ := back shut found'
    obtain rfl := Option.some.inj (found.symm.trans again')
    exact ⟨e, found', same⟩
  told shut told := told.onward grows fun _ found => back shut found

theorem quiet (plain : w.Unfolded s) (quiet : Quiet s t) : Extends w again open' s t :=
  of_back (plain.quiet quiet) (quiet.graph ▸ .refl _) fun {_ e} _ found =>
    ⟨e, quiet.graph ▸ found, rfl⟩

theorem mark (plain : w.Unfolded s) (keys : List String) :
    Extends w again open' s { s with graph := s.graph.retainAll s.nested keys } :=
  of_back ⟨plain.folded, plain.placed⟩ (DeclGraph.grows_retainAll keys) fun _ found => by
    obtain ⟨d, found', same⟩ := DeclGraph.retainAll_back found
    exact ⟨d, found', by rw [same]⟩

theorem push {d : Decl} (plain : w.Unfolded s) (fresh : d.key ∉ s.graph.keys) :
    Extends w again [d.key] s { s with graph := s.graph.push d fresh } :=
  of_back ⟨plain.folded, plain.placed⟩ (DeclGraph.grows_push fresh) fun {k e} shut found => by
    have other : k ≠ d.key := by simpa using shut
    exact ⟨e, by simpa [DeclGraph.get?_push, other] using found, rfl⟩

theorem setBody {d : Decl} {body : Decl.Body} (plain : w.Unfolded s)
    (found : s.graph.get? key = some d) (sort : d.body.SameSort body)
    (settled : d.body.settled = true → body.settled = true) :
    Extends w again [key] s { s with graph := s.graph.setBody key body } :=
  of_back ⟨plain.folded, plain.placed⟩ (DeclGraph.grows_setBody found sort settled)
    fun {k e} shut found => by
      have other : k ≠ key := by simpa using shut
      exact ⟨e, by simpa [DeclGraph.get?_setBody, other] using found, rfl⟩

end Extends

/-! ## Programs that lead from state to state -/

/-- What is known of running a program from a state when it gives something. -/
def Leads (w : Collector) (again : Visit) (open' : List String) (s : State) (x : Collect α)
    (post : α → State → Prop) : Prop :=
  ∀ a t, exec x s = (.ok a, t) → Extends w again open' s t ∧ post a t

variable {again : Visit} {open' : List String}

namespace Leads

variable {x : Collect α} {post : α → State → Prop}

theorem pure {a : α} (plain : w.Unfolded s) (h : post a s) :
    Leads w again open' s (Pure.pure a : Collect α) post := by
  intro b t run
  obtain ⟨same, rfl⟩ := Prod.mk.inj run
  obtain rfl := Except.ok.inj same
  exact ⟨.refl plain, h⟩

theorem fail {e : ResolutionError} : Leads w again open' s (Collect.fail e : Collect α) post := by
  intro a t run
  cases (Prod.mk.inj run).1

theorem fail_bind {e : ResolutionError} {f : α → Collect β} {post : β → State → Prop} :
    Leads w again open' s (Collect.fail e >>= f) post := by
  intro b t run
  cases (Prod.mk.inj run).1

theorem bind {f : α → Collect β} {mid : α → State → Prop} {post : β → State → Prop}
    (hx : Leads w again open' s x mid)
    (hf : ∀ a t, Extends w again open' s t → mid a t → Leads w again open' t (f a) post) :
    Leads w again open' s (x >>= f) post := by
  intro b u run
  rw [exec_bind] at run
  rcases first : exec x s with ⟨e | a, t⟩ <;> rw [first] at run
  · cases (Prod.mk.inj run).1
  · obtain ⟨extends', mid⟩ := hx a t first
    obtain ⟨extends'', post⟩ := hf a t extends' mid b u run
    exact ⟨extends'.trans extends'', post⟩

/-- Three programs that do one thing together, and what follows them. -/
theorem bind₃ {γ δ : Type} {x : Collect α} {y : Collect β} {z : Collect γ} {f : γ → Collect δ}
    {mid : γ → State → Prop} {post : δ → State → Prop}
    (h : Leads w again open' s (x >>= fun _ => y >>= fun _ => z) mid)
    (hf : ∀ a t, Extends w again open' s t → mid a t → Leads w again open' t (f a) post) :
    Leads w again open' s (x >>= fun _ => y >>= fun _ => z >>= f) post := by
  simpa only [bind_assoc] using bind h hf

theorem mono {post' : α → State → Prop} (h : Leads w again open' s x post)
    (weaker : ∀ a t, Extends w again open' s t → post a t → post' a t) :
    Leads w again open' s x post' := by
  intro a t run
  obtain ⟨extends', post⟩ := h a t run
  exact ⟨extends', weaker a t extends' post⟩

theorem widen {open'' : List String} (h : Leads w again open' s x post) (wider : open' ⊆ open'') :
    Leads w again open'' s x post := by
  intro a t run
  obtain ⟨extends', post⟩ := h a t run
  exact ⟨extends'.widen wider, post⟩

/-- What holds at the end for every choice, where there is one, holds for all of them at once. -/
theorem all {ι : Type} [Nonempty ι] {post : ι → α → State → Prop}
    (h : ∀ i, Leads w again open' s x (post i)) :
    Leads w again open' s x fun a t => ∀ i, post i a t := by
  intro a t run
  obtain ⟨i⟩ := ‹Nonempty ι›
  exact ⟨(h i a t run).1, fun j => (h j a t run).2⟩

theorem close (h : Leads w again [key] s x post) (new : s.graph.settled key = false)
    (told : ∀ a t, post a t → ToldOf w again s key → ToldOf w again t key) :
    Leads w again [] s x post := by
  intro a t run
  obtain ⟨extends', post⟩ := h a t run
  exact ⟨extends'.close new (told a t post), post⟩

theorem look {f : α → Collect β} {a : α} {post : β → State → Prop} (h : exec x s = (.ok a, s))
    (hf : Leads w again open' s (f a) post) : Leads w again open' s (x >>= f) post := by
  intro b t run
  rw [exec_bind, h] at run
  exact hf b t run

/-- A program that makes one step. -/
theorem step {a : α} (h : exec x s = (.ok a, t)) (extends' : Extends w again open' s t)
    (hpost : post a t) : Leads w again open' s x post := by
  intro b u run
  obtain ⟨same, rfl⟩ := Prod.mk.inj (h.symm.trans run)
  obtain rfl := Except.ok.inj same
  exact ⟨extends', hpost⟩

theorem quiet {a : α} (plain : w.Unfolded s) (h : exec x s = (.ok a, t)) (quiet : Quiet s t)
    (hpost : post a t) : Leads w again open' s x post :=
  step h (.quiet plain quiet) hpost

theorem modifyQuiet {f : State → State} (plain : w.Unfolded s) (same : Quiet s (f s)) :
    Leads w again open' s (modify f : Collect Unit) fun _ t => Quiet s t :=
  quiet plain rfl same same

/-- A declaration that is entered under a free key. -/
theorem add {d : Decl} (plain : w.Unfolded s) (absent : s.graph.get? d.key = none) :
    Leads w again [d.key] s (Collect.add d) fun _ t => t.graph.get? d.key = some d := by
  have run := exec_add d s
  have fresh := DeclGraph.get?_eq_none_iff.mp absent
  by_cases frozen : s.graph.frozen = true
  · rw [show s.graph.add d = .error (.frozen d.key) by simp [DeclGraph.add, frozen]] at run
    intro a t ok
    cases (Prod.mk.inj (run.symm.trans ok)).1
  · rw [show s.graph.add d = .ok (d, s.graph.push d fresh) by
      simp [DeclGraph.add, frozen, fresh]] at run
    exact step run (.push plain fresh) (by simp [DeclGraph.get?_push])

/-- A declaration that is given another body. -/
theorem setBody {d : Decl} {body : Decl.Body} (plain : w.Unfolded s)
    (found : s.graph.get? key = some d) (sort : d.body.SameSort body)
    (settled : d.body.settled = true → body.settled = true) :
    Leads w again [key] s (Collect.setBody key body) fun _ t =>
      t.graph.get? key = some { d with body := body } :=
  step rfl (.setBody plain found sort settled) (by simp [DeclGraph.get?_setBody, found])

theorem markRetained {d : Decl} (plain : w.Unfolded s) (found : s.graph.get? key = some d) :
    Leads w again open' s (Collect.markRetained key) fun _ t => t.graph.marked key = true :=
  step rfl (.mark plain [key]) (DeclGraph.marked_retainAll (List.mem_singleton_self _)
    (DeclGraph.mem_keys_iff.mpr ⟨d, found⟩))

theorem noteDefined {c : CursorId} (plain : w.Unfolded s)
    (isTag : (w.table.cursor c).kind.isTag = true)
    (defines : (w.table.cursor (w.table.definitionOf c)).defines = true) :
    Leads w again open' s (w.noteDefined (w.table.definitionOf c) (w.table.tagKey c))
      fun _ t => t.graph = s.graph := by
  unfold Collector.noteDefined
  simp only []
  split
  · exact pure plain rfl
  · rename_i known
    refine look rfl ?_
    split
    · refine step rfl (.of_back ⟨plain.folded, fun {place k} there => ?_⟩ (.refl _)
        fun {_ e} _ found => ⟨e, found, rfl⟩) rfl
      rw [List.lookup_append, Option.or_eq_some_iff] at there
      rcases there with there | ⟨_, there⟩
      · exact plain.placed there
      · simp only [List.lookup_cons, List.lookup_nil] at there
        split at there
        · rename_i same
          refine ⟨_, ⟨⟨c, isTag, rfl⟩, defines, by simpa using known⟩, (eq_of_beq same).symm, ?_⟩
          exact Option.some.inj there
        · cases there
    · exact pure plain rfl

theorem anonymousName (plain : w.Unfolded s) (decl : CursorId) (tag : Tag) (site : Site) :
    Leads w again open' s (w.anonymousName decl tag site) fun _ t => Quiet s t := by
  intro name t run
  have walks : Walks w (fun _ => false) False [] s (w.anonymousName decl tag site)
      fun _ t => Aside s t := .anonymousName decl tag site
  have aside := (walks.done (by rw [run])).2
  rw [run] at aside
  exact ⟨.quiet plain aside.quiet, aside.quiet⟩

end Leads

/-! ## Marks -/

variable (w) in
/-- Whether the key is declared, and bound if the options ask for it where the cursor stands. -/
def Held (s : State) (key : String) (c : CursorId) : Prop :=
  ∃ d, s.graph.get? key = some d ∧
    (d.retained = true ∨ w.retains (w.table.cursor c) d.builtin = false)

/-- What is entered at the top is bound if the options ask for it. -/
theorem held_of_top {c : CursorId} {top builtin inside : Bool} (atTop : top = true) :
    (if top = true then w.retains (w.table.cursor c) builtin else inside) = true ∨
      w.retains (w.table.cursor c) builtin = false := by
  rw [if_pos atTop]
  exact Bool.eq_false_or_eq_true _

theorem Held.onward {c : CursorId} (h : w.Held s key c) (grows : s.graph.Grows t.graph) :
    w.Held t key c := by
  obtain ⟨d, found, held⟩ := h
  obtain ⟨e, found, becomes⟩ := grows key d found
  exact ⟨e, found, held.imp becomes.retained fun unasked => becomes.builtin ▸ unasked⟩

/-- What is bound already, or not asked for, is not marked once more. -/
theorem Held.idle {c : CursorId} (h : w.Held s key c) : Idle s (w.retainFor key c) () := by
  obtain ⟨d, found, held⟩ := h
  have asked : (d.retained || !w.retains (w.table.cursor c) d.builtin) = true := by
    simpa using held
  unfold retainFor
  refine .look rfl ?_
  rw [found]
  simp only [asked, if_true]
  exact .pure s ()

theorem Held.steady {c : CursorId} (h : w.Held s key c) : Steady s (w.retainFor key c) () :=
  fun _ grows _ => (h.onward grows).idle

theorem Leads.retainFor {d : Decl} {c : CursorId} (plain : w.Unfolded s)
    (found : s.graph.get? key = some d) :
    Leads w again open' s (w.retainFor key c) fun _ t => w.Held t key c := by
  unfold Collector.retainFor
  refine .look rfl ?_
  rw [found]
  simp only []
  split
  · rename_i held
    exact .pure plain ⟨d, found, by simpa using held⟩
  · refine (Leads.markRetained plain found).mono fun _ t _ marked => ?_
    obtain ⟨e, found', retained⟩ := DeclGraph.marked_iff.mp marked
    exact ⟨e, found', .inl retained⟩

/-! ## Programs that are run again -/

/-- Whether what a program gives, another gives in every later state. -/
def Again (w : Collector) (again : Visit) (s : State) (x y : Collect α) : Prop :=
  Leads w again [] s x fun a t => Steady t y a

namespace Again

theorem pure (plain : w.Unfolded s) (a : α) :
    Again w again s (Pure.pure a : Collect α) (Pure.pure a) :=
  Leads.pure plain (.pure s a)

theorem fail {e : ResolutionError} {y : Collect α} : Again w again s (Collect.fail e) y :=
  Leads.fail

theorem bind {x y : Collect α} {f g : α → Collect β} (hx : Again w again s x y)
    (hf : ∀ a t, Extends w again [] s t → Again w again t (f a) (g a)) :
    Again w again s (x >>= f) (y >>= g) := by
  refine Leads.bind hx fun a t extends' steady => ?_
  exact (hf a t extends').mono fun b u extends'' steady' => (steady.onward extends''.grows).bind steady'

theorem tell (plain : w.Unfolded s) (e f : Event) :
    Again w again s (Collect.tell e) (Collect.tell f) :=
  Leads.quiet plain rfl ⟨rfl, rfl, rfl⟩ fun _ _ _ => ⟨_, rfl, rfl, rfl, rfl⟩

theorem addNested (plain : w.Unfolded s) (owner owner' key : String) :
    Again w again s (Collect.addNested owner key) (Collect.addNested owner' key) :=
  Leads.quiet plain rfl ⟨rfl, rfl, rfl⟩ fun _ _ _ => ⟨_, rfl, rfl, rfl, rfl⟩

theorem foldlM {f g : β → α → Collect β} (as : List α) (b : β) (plain : w.Unfolded s)
    (hf : ∀ b a t, a ∈ as → w.Unfolded t → Again w again t (f b a) (g b a)) :
    Again w again s (as.foldlM f b) (as.foldlM g b) := by
  induction as generalizing b s with
  | nil => exact .pure plain b
  | cons a as ih =>
    rw [List.foldlM_cons, List.foldlM_cons]
    refine .bind (hf b a s List.mem_cons_self plain) fun b' t extends' => ?_
    exact ih b' extends'.unfolded fun b a t mem => hf b a t (List.mem_cons_of_mem _ mem)

end Again

end Collector

end HeaderBind
