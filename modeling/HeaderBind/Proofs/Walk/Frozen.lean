import HeaderBind.Proofs.Walk.Steady
import HeaderBind.Proofs.Walk.Tops
/-!
# Walking on over a frozen graph

A frozen graph takes no further declaration, so a walk that goes on from one ends where it would
enter something. Up to there it may still change what is declared in two ways: a record that was only
declared is completed from its definition, and a declaration that was not bound is marked. What
follows a frozen graph through a walk is kept apart from the keys of records that are being read.
-/
namespace HeaderBind

theorem DeclGraph.frozen_retainAll {nested : List (String × String)} {g : DeclGraph}
    (keys : List String) : (g.retainAll nested keys).frozen = g.frozen := by
  fun_induction retainAll nested g keys with
  | case1 g => rfl
  | case2 g key rest _ ih => exact ih
  | case3 g key rest d found new _ ih => exact ih
  | case4 g key rest d found old ih => exact ih

namespace Collector

open Collect (State exec exec_bind exec_add)

variable (w : Collector)

/-- Whether some cursor defines what has the key. -/
def Defined (key : String) : Prop :=
  ∃ x, (w.table.cursor x).defines = true ∧ w.table.keyOf x = key

/-- The cursors that a walk reads as standing at the top: those it is given, and the named tags inside
records. -/
inductive AtTop (tops : List CursorId) (c : CursorId) : Prop where
  | listed (mem : c ∈ tops)
  | inside {decl : CursorId} (below : c ∈ (w.table.cursor decl).children)
      (isTag : (w.table.cursor c).kind.isTag = true)

/-- Whether the options ask for a declaration to be bound where a cursor stands that is read as it. -/
inductive Asks (s : State) (d : Decl) (c : CursorId) : Prop where
  | tag (isTag : (w.table.cursor c).kind.isTag = true) (stands : w.StandsFor s c d.key)
      (asked : w.retains (w.table.cursor (w.table.definitionOf c)) d.builtin = true)
  | typedef (kind : (w.table.cursor c).kind = .typedef) (own : w.table.keyOf c = d.key)
      (asked : w.retains (w.table.cursor c) d.builtin = true)
  | plain (kind : (w.table.cursor c).kind = .function ∨ (w.table.cursor c).kind = .object)
      (own : w.table.keyOf c = d.key) (asked : w.retains (w.table.cursor c) false = true)

/-- Whether what is declared under a key waits for a walk to read on: for its definition, or for a
mark. -/
inductive Waits (tops : List CursorId) (s : State) (key : String) : Prop where
  | definition {d : Decl} (found : s.graph.get? key = some d) (waits : d.body.settled = false)
      (defined : w.Defined key)
  | mark {d : Decl} {c : CursorId} (found : s.graph.get? key = some d) (unbound : d.retained = false)
      (top : w.AtTop tops c) (asks : w.Asks s d c)

/-- Whether the graph is frozen, and what was noted of definitions leads back to them. -/
structure Sealed (s : State) : Prop where
  frozen : s.graph.frozen = true
  placed : ∀ {place key}, s.definedAt.lookup place = some key → s.graph.settled key = true
  folded : ∀ {key target}, s.folded.lookup key = some target →
    ∃ x, w.table.keyOf x = key ∧ s.definedAt.lookup (w.table.cursor x).place = some target

/-- What a walk from a frozen graph leaves as it was: all keys, and all that is declared under them
but for records that waited for their definition, and marks. Some keys are left out, whose records are
still being read. -/
structure Kept (tops : List CursorId) (open' : List String) (s t : State) : Prop where
  fixed : w.Sealed t
  keys : t.graph.keys = s.graph.keys
  grows : s.graph.Grows t.graph
  bodies : ∀ {key d e}, key ∉ open' → s.graph.get? key = some d → t.graph.get? key = some e →
    e.body = d.body ∨ d.body.settled = false ∧ e.body.settled = true ∧ w.Defined key
  placed : ∀ {place key}, s.definedAt.lookup place = some key → t.definedAt.lookup place = some key
  cause : open' = [] → (t.graph = s.graph ∧ t.definedAt = s.definedAt) ∨ ∃ key, w.Waits tops s key

variable {w} {tops : List CursorId} {open' : List String} {s t u : State} {key : String}

theorem Waits.back (h : w.Waits tops t key) (graph : t.graph = s.graph)
    (definedAt : t.definedAt = s.definedAt) : w.Waits tops s key := by
  cases h with
  | definition found waits defined => exact .definition (graph ▸ found) waits defined
  | mark found unbound top asks =>
    refine .mark (graph ▸ found) unbound top ?_
    cases asks with
    | tag isTag stands asked => exact .tag isTag (by rwa [StandsFor, ← definedAt]) asked
    | typedef kind own asked => exact .typedef kind own asked
    | plain kind own asked => exact .plain kind own asked

namespace Sealed

theorem quiet (h : w.Sealed s) (quiet : Quiet s t) : w.Sealed t where
  frozen := quiet.graph ▸ h.frozen
  placed there := quiet.graph ▸ h.placed (quiet.definedAt ▸ there)
  folded folds := quiet.definedAt ▸ h.folded (quiet.folded ▸ folds)

theorem standsFor (h : w.Sealed s) (c : CursorId) :
    w.StandsFor s c ((s.folded.lookup (w.table.keyOf (w.table.definitionOf c))).getD
      (w.table.keyOf (w.table.definitionOf c))) :=
  standsFor_of_folded h.folded c

/-- What is folded stands for something settled, so what is not settled stands for itself. -/
theorem stands_for_itself (h : w.Sealed s) (key : String)
    (unsettled : s.graph.settled ((s.folded.lookup key).getD key) = false) :
    (s.folded.lookup key).getD key = key := by
  have settles {key target : String} (folds : s.folded.lookup key = some target) :
      s.graph.settled target = true := by
    obtain ⟨x, _, there⟩ := h.folded folds
    exact h.placed there
  exact (unfolded_of_unsettled settles key unsettled).2

end Sealed

theorem StandsFor.kept {c : CursorId} (h : w.StandsFor s c key) (kept : w.Kept tops open' s t) :
    w.StandsFor t c key :=
  h.imp id fun ⟨x, same, there⟩ => ⟨x, same, kept.placed there⟩

namespace Kept

theorem quiet (fixed : w.Sealed s) (quiet : Quiet s t) : w.Kept tops open' s t where
  fixed := fixed.quiet quiet
  keys := by rw [quiet.graph]
  grows := quiet.graph ▸ .refl _
  bodies := by
    intro key d e _ found found'
    rw [quiet.graph, found] at found'
    exact .inl (by rw [Option.some.inj found'])
  placed there := quiet.definedAt ▸ there
  cause _ := .inl ⟨quiet.graph, quiet.definedAt⟩

theorem trans (h : w.Kept tops open' s t) (h' : w.Kept tops open' t u) :
    w.Kept tops open' s u where
  fixed := h'.fixed
  keys := h'.keys.trans h.keys
  grows := h.grows.trans h'.grows
  bodies := by
    intro key d f shut found found''
    obtain ⟨e, found', becomes⟩ := h.grows key d found
    obtain ⟨_, found₀, becomes'⟩ := h'.grows key e found'
    obtain rfl := Option.some.inj (found''.symm.trans found₀)
    rcases h.bodies shut found found' with same | ⟨waited, settled, defined⟩
    · rw [← same]
      exact h'.bodies shut found' found''
    · exact .inr ⟨waited, becomes'.settled settled, defined⟩
  placed there := h'.placed (h.placed there)
  cause closed := by
    rcases h.cause closed with ⟨graph, definedAt⟩ | waits
    · rcases h'.cause closed with ⟨graph', definedAt'⟩ | ⟨key, waits⟩
      · exact .inl ⟨graph'.trans graph, definedAt'.trans definedAt⟩
      · exact .inr ⟨key, waits.back graph definedAt⟩
    · exact .inr waits

theorem widen {open'' : List String} (h : w.Kept tops open' s t) (wider : open' ⊆ open'') :
    w.Kept tops open'' s t :=
  ⟨h.fixed, h.keys, h.grows, fun shut => h.bodies fun mem => shut (wider mem), h.placed,
    fun closed => h.cause (List.eq_nil_of_subset_nil (closed ▸ wider))⟩

/-- The record of a key that waited for its definition need not be left out once it is complete. -/
theorem close {d : Decl} (h : w.Kept tops [key] s t) (found : s.graph.get? key = some d)
    (waited : d.body.settled = false) (settled : t.graph.settled key = true)
    (defined : w.Defined key) : w.Kept tops [] s t where
  fixed := h.fixed
  keys := h.keys
  grows := h.grows
  bodies := by
    intro k d' e _ found' found''
    by_cases same : k = key
    · subst same
      obtain rfl := Option.some.inj (found.symm.trans found')
      obtain ⟨e', found₀, settled⟩ := DeclGraph.settled_iff.mp settled
      obtain rfl := Option.some.inj (found''.symm.trans found₀)
      exact .inr ⟨waited, settled, defined⟩
    · exact h.bodies (by simpa using same) found' found''
  placed := h.placed
  cause _ := .inr ⟨key, .definition found waited defined⟩

/-- Marking what waits for a mark. -/
theorem mark (fixed : w.Sealed s) (keys : List String) (waits : w.Waits tops s key) :
    w.Kept tops open' s { s with graph := s.graph.retainAll s.nested keys } where
  fixed :=
    ⟨(DeclGraph.frozen_retainAll keys).trans fixed.frozen,
      fun there => (DeclGraph.grows_retainAll keys).settled (fixed.placed there), fixed.folded⟩
  keys := DeclGraph.keys_retainAll keys
  grows := DeclGraph.grows_retainAll keys
  bodies := by
    intro k d e _ found found'
    obtain ⟨d', again, same⟩ := DeclGraph.retainAll_back found'
    obtain rfl := Option.some.inj (found.symm.trans again)
    exact .inl (by rw [same])
  placed there := there
  cause _ := .inr ⟨key, waits⟩

/-- Describing a declaration whose key is left out. -/
theorem setBody {d : Decl} {body : Decl.Body} (fixed : w.Sealed s)
    (found : s.graph.get? key = some d) (sort : d.body.SameSort body)
    (settled : d.body.settled = true → body.settled = true) :
    w.Kept tops [key] s { s with graph := s.graph.setBody key body } where
  fixed :=
    ⟨fixed.frozen, fun there => (DeclGraph.grows_setBody found sort settled).settled
      (fixed.placed there), fixed.folded⟩
  keys := DeclGraph.keys_setBody
  grows := DeclGraph.grows_setBody found sort settled
  bodies := by
    intro k d e shut found found'
    have other : k ≠ key := by simpa using shut
    rw [DeclGraph.get?_setBody, found, Option.map_some, if_neg other] at found'
    exact .inl (by rw [Option.some.inj found'])
  placed there := there
  cause closed := absurd closed (List.cons_ne_nil _ _)

/-- Noting where the record of a key that is left out is defined. -/
theorem noteDefined {place : String} (fixed : w.Sealed s) (settled : s.graph.settled key = true) :
    w.Kept tops [key] s { s with definedAt := s.definedAt ++ [(place, key)] } := by
  have stays {place' key' : String} (there : s.definedAt.lookup place' = some key') :
      (s.definedAt ++ [(place, key)]).lookup place' = some key' := by
    simp [List.lookup_append, there]
  refine ⟨⟨fixed.frozen, fun {place' key'} there => ?_, fun folds => ?_⟩, rfl, .refl _, ?_, stays,
    fun closed => absurd closed (List.cons_ne_nil _ _)⟩
  · rw [List.lookup_append, Option.or_eq_some_iff] at there
    rcases there with there | ⟨_, there⟩
    · exact fixed.placed there
    · simp only [List.lookup_cons, List.lookup_nil] at there
      split at there
      · exact Option.some.inj there ▸ settled
      · cases there
  · obtain ⟨x, same, there⟩ := fixed.folded folds
    exact ⟨x, same, stays there⟩
  · intro k d e _ found found'
    exact .inl (by rw [Option.some.inj (found.symm.trans found')])

/-- Changing only what keys are folded into. -/
theorem refold {folded : List (String × String)} (fixed : w.Sealed s)
    (traced : ∀ {key target}, folded.lookup key = some target →
      ∃ x, w.table.keyOf x = key ∧ s.definedAt.lookup (w.table.cursor x).place = some target) :
    w.Kept tops open' s { s with folded := folded } where
  fixed := ⟨fixed.frozen, fixed.placed, traced⟩
  keys := rfl
  grows := .refl _
  bodies _ found found' := .inl (by rw [Option.some.inj (found.symm.trans found')])
  placed there := there
  cause _ := .inl ⟨rfl, rfl⟩

end Kept

/-! ## Programs -/

/-- What is known of running a program from a state with a frozen graph, however it ends. -/
structure Keeps (w : Collector) (tops : List CursorId) (open' : List String) {α : Type} (s : State)
    (x : Collect α) (post : α → State → Prop) : Prop where
  kept : w.Kept tops open' s (exec x s).2
  done : ∀ {a}, (exec x s).1 = .ok a → post a (exec x s).2

variable {α β : Type}

/-- Whatever a program gives. -/
abbrev Anything : α → State → Prop := fun _ _ => True

namespace Keeps

variable {x : Collect α} {post : α → State → Prop}

theorem pure {a : α} (fixed : w.Sealed s) (h : post a s) :
    Keeps w tops open' s (Pure.pure a : Collect α) post where
  kept := .quiet fixed (.refl s)
  done ok := Except.ok.inj ok ▸ h

theorem fail_of {e : ResolutionError} (h : exec x s = (.error e, s)) (fixed : w.Sealed s) :
    Keeps w tops open' s x post where
  kept := by
    rw [h]
    exact .quiet fixed (.refl s)
  done ok := by
    rw [h] at ok
    cases ok

theorem fail {e : ResolutionError} (fixed : w.Sealed s) :
    Keeps w tops open' s (Collect.fail e : Collect α) post :=
  fail_of rfl fixed

theorem fail_bind {e : ResolutionError} {f : α → Collect β} {post : β → State → Prop}
    (fixed : w.Sealed s) : Keeps w tops open' s (Collect.fail e >>= f) post :=
  fail_of rfl fixed

/-- One program after another. -/
theorem bind {f : α → Collect β} {mid : α → State → Prop} {post : β → State → Prop}
    (hx : Keeps w tops open' s x mid)
    (hf : ∀ a t, w.Kept tops open' s t → mid a t → Keeps w tops open' t (f a) post) :
    Keeps w tops open' s (x >>= f) post := by
  have eq := exec_bind x f s
  obtain ⟨kept, done⟩ := hx
  rcases run : exec x s with ⟨e | a, t⟩ <;> rw [run] at kept done eq
  · have eq : exec (x >>= f) s = (.error e, t) := eq
    refine ⟨eq ▸ kept, fun ok => ?_⟩
    rw [eq] at ok
    cases ok
  · have eq : exec (x >>= f) s = exec (f a) t := eq
    obtain ⟨kept', done'⟩ := hf a t kept (done rfl)
    exact ⟨eq ▸ kept.trans kept', eq ▸ done'⟩

/-- Three programs that do one thing together, and what follows them. -/
theorem bind₃ {γ δ : Type} {y : Collect β} {z : Collect γ} {f : γ → Collect δ}
    {mid : γ → State → Prop} {post : δ → State → Prop}
    (h : Keeps w tops open' s (x >>= fun _ => y >>= fun _ => z) mid)
    (hf : ∀ a t, w.Kept tops open' s t → mid a t → Keeps w tops open' t (f a) post) :
    Keeps w tops open' s (x >>= fun _ => y >>= fun _ => z >>= f) post := by
  simpa only [bind_assoc] using bind h hf

theorem mono {post' : α → State → Prop} (h : Keeps w tops open' s x post)
    (weaker : ∀ a t, w.Kept tops open' s t → post a t → post' a t) :
    Keeps w tops open' s x post' :=
  ⟨h.kept, fun ok => weaker _ _ h.kept (h.done ok)⟩

theorem widen {open'' : List String} (h : Keeps w tops open' s x post) (wider : open' ⊆ open'') :
    Keeps w tops open'' s x post :=
  ⟨h.kept.widen wider, h.done⟩

/-- A program that only looks at the state. -/
theorem look {f : α → Collect β} {a : α} {post : β → State → Prop} (h : exec x s = (.ok a, s))
    (hf : Keeps w tops open' s (f a) post) : Keeps w tops open' s (x >>= f) post := by
  have eq : exec (x >>= f) s = exec (f a) s := by rw [exec_bind, h]
  exact ⟨eq ▸ hf.kept, eq ▸ hf.done⟩

/-- A program that makes one step. -/
theorem step {a : α} (h : exec x s = (.ok a, t)) (kept : w.Kept tops open' s t) (hpost : post a t) :
    Keeps w tops open' s x post where
  kept := h ▸ kept
  done ok := by
    rw [h] at ok ⊢
    exact Except.ok.inj ok ▸ hpost

theorem modifyQuiet {f : State → State} (fixed : w.Sealed s) (same : Quiet s (f s)) :
    Keeps w tops open' s (modify f : Collect Unit) fun _ t => Quiet s t :=
  step rfl (.quiet fixed same) same

theorem tell (fixed : w.Sealed s) (e : Event) :
    Keeps w tops open' s (Collect.tell e) fun _ t => Quiet s t :=
  modifyQuiet fixed ⟨rfl, rfl, rfl⟩

/-- What a program gives is made into something else. -/
theorem giving {f : α → β} (h : Keeps w tops open' s x post) :
    Keeps w tops open' s (x >>= fun a => Pure.pure (f a)) Anything :=
  h.bind fun _ _ kept _ => .pure kept.fixed trivial

theorem foldlM {f : β → α → Collect β} (as : List α) (b : β) (fixed : w.Sealed s)
    (hf : ∀ b a t, a ∈ as → w.Sealed t → Keeps w tops open' t (f b a) Anything) :
    Keeps w tops open' s (as.foldlM f b) Anything := by
  induction as generalizing b s with
  | nil => exact .pure fixed trivial
  | cons a as ih =>
    rw [List.foldlM_cons]
    refine .bind (hf b a s List.mem_cons_self fixed) fun b' t kept _ => ?_
    exact ih b' kept.fixed fun b a t mem => hf b a t (List.mem_cons_of_mem _ mem)

theorem forM {f : α → Collect Unit} (as : List α) (fixed : w.Sealed s)
    (hf : ∀ a t, a ∈ as → w.Sealed t → Keeps w tops open' t (f a) Anything) :
    Keeps w tops open' s (as.forM f) Anything := by
  induction as generalizing s with
  | nil => exact .pure fixed trivial
  | cons a as ih =>
    change Keeps w tops open' s (f a >>= fun _ => as.forM f) Anything
    refine .bind (hf a s List.mem_cons_self fixed) fun _ t kept _ => ?_
    exact ih kept.fixed fun a t mem => hf a t (List.mem_cons_of_mem _ mem)

/-- A frozen graph refuses what is added to it. -/
theorem exec_add_of_sealed (fixed : w.Sealed s) (d : Decl) :
    exec (Collect.add d) s = (.error (.frozen d.key), s) := by
  have refused : s.graph.add d = .error (.frozen d.key) := by simp [DeclGraph.add, fixed.frozen]
  rw [exec_add, refused]

theorem add {d : Decl} {post : Unit → State → Prop} (fixed : w.Sealed s) :
    Keeps w tops open' s (Collect.add d) post :=
  fail_of (exec_add_of_sealed fixed d) fixed

/-- What would follow the addition is never run. -/
theorem add_bind {d : Decl} {f : Unit → Collect β} {post : β → State → Prop} (fixed : w.Sealed s) :
    Keeps w tops open' s (Collect.add d >>= f) post :=
  fail_of (by rw [exec_bind, exec_add_of_sealed fixed]) fixed

theorem anonymousName (fixed : w.Sealed s) (decl : CursorId) (tag : Tag) (site : Site) :
    Keeps w tops open' s (w.anonymousName decl tag site) Anything := by
  unfold Collector.anonymousName
  refine look rfl ?_
  simp only []
  split
  · exact pure fixed trivial
  · split
    · exact step rfl (.quiet fixed ⟨rfl, rfl, rfl⟩) trivial
    · exact step rfl (.quiet fixed ⟨rfl, rfl, rfl⟩) trivial

theorem retainFor {decl : CursorId} (fixed : w.Sealed s)
    (asks : ∀ d, s.graph.get? key = some d → w.retains (w.table.cursor decl) d.builtin = true →
      ∃ c, w.AtTop tops c ∧ w.Asks s d c) :
    Keeps w tops open' s (w.retainFor key decl) Anything := by
  unfold Collector.retainFor
  refine look rfl ?_
  split
  · exact pure fixed trivial
  · rename_i d found
    split
    · exact pure fixed trivial
    · rename_i unbound
      obtain ⟨unbound, asked⟩ : d.retained = false ∧ _ = true := by simpa using unbound
      obtain ⟨c, top, asks⟩ := asks d found asked
      exact step rfl (.mark fixed _ (.mark found unbound top asks)) trivial

theorem noteDefined (fixed : w.Sealed s) (decl : CursorId) (settled : s.graph.settled key = true) :
    Keeps w tops [key] s (w.noteDefined decl key) Anything := by
  unfold Collector.noteDefined
  simp only []
  split
  · exact pure fixed trivial
  · refine look rfl ?_
    split
    · rename_i new
      exact step rfl (.noteDefined fixed settled) trivial
    · exact pure fixed trivial

/-- A key is folded into what was first defined at the place of a cursor of that key. -/
theorem fold {c : CursorId} {target : String} (fixed : w.Sealed s) (own : w.table.keyOf c = key)
    (there : s.definedAt.lookup (w.table.cursor c).place = some target) :
    Keeps w tops open' s (Collect.fold key target) Anything := by
  refine step rfl (.refold fixed fun {k t} folds => ?_) trivial
  rw [List.lookup_cons] at folds
  split at folds
  · rename_i same
    exact ⟨c, own.trans (eq_of_beq same).symm, there.trans folds⟩
  · exact fixed.folded folds

theorem unfold (fixed : w.Sealed s) (key : String) :
    Keeps w tops open' s (Collect.unfold key) Anything := by
  refine step rfl (.refold fixed fun folds => ?_) trivial
  rw [lookup_filter_ne] at folds
  split at folds
  · cases folds
  · exact fixed.folded folds

/-- What is found as defined before was noted at the place of the cursor. -/
theorem definedBefore (fixed : w.Sealed s) (decl : CursorId) (key : String) :
    Keeps w tops open' s (w.definedBefore decl key) fun found t =>
      t = s ∧ ∀ d, found = some d →
        s.definedAt.lookup (w.table.cursor decl).place = some d.key := by
  have nothing : Keeps w tops open' s (Pure.pure none : Collect (Option Decl)) fun found t =>
      t = s ∧ ∀ d, found = some d →
        s.definedAt.lookup (w.table.cursor decl).place = some d.key :=
    pure fixed ⟨rfl, by simp⟩
  unfold Collector.definedBefore
  simp only []
  split
  · exact nothing
  · refine look rfl ?_
    split
    · exact nothing
    · rename_i first there
      split
      · exact nothing
      · split
        · exact nothing
        · rename_i d found
          split
          · exact nothing
          · refine pure fixed ⟨rfl, fun e same => ?_⟩
            obtain rfl := Option.some.inj same
            obtain rfl := DeclGraph.get?_key found
            exact there

end Keeps

/-! ## Reading types, typedefs and enumerations -/

/-- What is known of a way of reading types and tags from a state with a frozen graph. -/
structure ReadsOn (w : Collector) (tops : List CursorId) (visit : Visit) : Prop where
  type : ∀ {s : State} (type : TypeId) (site : Site), w.Sealed s →
    Keeps w tops [] s (visit.type type site) Anything
  tag : ∀ {s : State} {c : CursorId} {top : Bool} (site : Site), w.Sealed s →
    (top = true → w.AtTop tops c ∧ (w.table.cursor c).kind.isTag = true) →
    Keeps w tops [] s (visit.tag c site top) Anything

/-- A tag that is found to be declared gets its mark where it stands at the top. -/
theorem Keeps.declared {c : CursorId} {top : Bool} (fixed : w.Sealed s)
    (atTop : top = true → w.AtTop tops c ∧ (w.table.cursor c).kind.isTag = true)
    (stands : w.StandsFor s c key) :
    Keeps w tops [] s (do
        if top then w.retainFor key (w.table.definitionOf c)
        return key) Anything := by
  split
  · rename_i top
    obtain ⟨atTop, isTag⟩ := atTop top
    refine .giving (.retainFor fixed fun d found asked => ⟨c, atTop, .tag isTag ?_ asked⟩)
    exact DeclGraph.get?_key found ▸ stands
  · exact .pure fixed trivial

theorem Keeps.enumDecl {c : CursorId} {top : Bool} (site : Site) (fixed : w.Sealed s)
    (atTop : top = true → w.AtTop tops c ∧ (w.table.cursor c).kind.isTag = true) :
    Keeps w tops [] s (w.enumDecl c site top) Anything := by
  unfold Collector.enumDecl
  simp only []
  refine .look rfl ?_
  refine .look rfl ?_
  split
  · split
    · exact .declared fixed atTop (fixed.standsFor c)
    · exact .fail fixed
  · rename_i absent
    have own := fixed.stands_for_itself (w.table.keyOf (w.table.definitionOf c))
      (by simp [DeclGraph.settled, CursorTable.keyOf, absent])
    rw [CursorTable.keyOf] at own
    rw [own]
    refine .bind (.definedBefore fixed _ _) fun found t _ => ?_
    rintro ⟨rfl, before⟩
    split
    · rename_i first repeated
      obtain ⟨d, hd, hfirst⟩ := Option.bind_eq_some_iff.mp repeated
      have there := before d hd
      obtain rfl : d.key = first := by
        split at hfirst
        · split at hfirst
          · exact Option.some.inj hfirst
          · cases hfirst
        · cases hfirst
      refine .bind (.fold fixed rfl there) fun _ u kept _ => ?_
      exact .declared kept.fixed atTop (.inr ⟨_, rfl, kept.placed there⟩)
    · split
      · refine .bind (.anonymousName fixed _ _ _) fun name u kept _ => ?_
        exact .add_bind kept.fixed
      · exact .add_bind fixed

/-- A record is refused where its name is known. -/
theorem Keeps.newRecord (visit : Visit) (decl : CursorId) (key : String) (site : Site) (top : Bool)
    (fixed : w.Sealed s) :
    Keeps w tops [] s (w.newRecord visit decl key site top) Anything := by
  unfold Collector.newRecord
  simp only []
  split
  · refine .bind (.anonymousName fixed _ _ _) fun name t kept _ => ?_
    exact .add_bind kept.fixed
  · exact .add_bind fixed

namespace ReadsOn

variable {visit : Visit} (reads : ReadsOn w tops visit)

theorem unknownType (fixed : w.Sealed s) (info : CursorType) (layout : Layout) (site : Site) :
    Keeps w tops [] s (w.unknownType info layout site) Anything := by
  unfold Collector.unknownType
  simp only []
  split
  · exact .fail_bind fixed
  · exact .giving (.tell fixed _)

include reads

theorem typedefTarget (cursor : Cursor) (site : Site) (fixed : w.Sealed s) :
    Keeps w tops [] s (Collector.typedefTarget visit cursor site) Anything := by
  unfold Collector.typedefTarget
  split
  · exact .pure fixed trivial
  · exact reads.type _ _ fixed

theorem typedefDecl {c : CursorId} {top : Bool} (fixed : w.Sealed s)
    (kind : (w.table.cursor c).kind = .typedef) (atTop : top = true → w.AtTop tops c) :
    Keeps w tops [] s (w.typedefDecl visit c top) Anything := by
  unfold Collector.typedefDecl
  simp only []
  refine .look rfl ?_
  split
  · split
    · split
      · exact .pure fixed trivial
      · rename_i top
        have mark {t : State} (fixed : w.Sealed t) : Keeps w tops [] t (do
            modify fun s => { s with seenTypedefs := s.seenTypedefs ++ [(w.table.cursor c).key] }
            w.retainFor (w.table.cursor c).key c
            return (w.table.cursor c).key) Anything := by
          refine .bind (.modifyQuiet fixed ⟨rfl, rfl, rfl⟩) fun _ u kept _ => ?_
          refine .giving (.retainFor kept.fixed fun d found asked => ?_)
          exact ⟨c, atTop (by simpa using top), .typedef kind (DeclGraph.get?_key found).symm asked⟩
        refine .look rfl ?_
        split
        · refine .bind (reads.typedefTarget _ _ fixed) fun again t kept _ => ?_
          split
          · exact .fail_bind kept.fixed
          · exact mark kept.fixed
        · exact mark fixed
    · exact .fail fixed
  · exact .add_bind fixed

theorem paramType (type : TypeId) (site : Site) (fixed : w.Sealed s) :
    Keeps w tops [] s (w.paramType visit type site) Anything := by
  unfold Collector.paramType
  refine .bind (reads.type _ _ fixed) fun a t kept _ => ?_
  split
  · exact .pure kept.fixed trivial
  · exact .pure kept.fixed trivial
  · split
    · exact .giving (reads.type _ _ kept.fixed)
    · exact .pure kept.fixed trivial
  · exact .pure kept.fixed trivial

theorem paramList (site : Site) (params : List (String × TypeId)) (i : Nat) (fixed : w.Sealed s) :
    Keeps w tops [] s (w.paramList visit site i params) Anything := by
  induction params generalizing i s with
  | nil => exact .pure fixed trivial
  | cons p params ih =>
    obtain ⟨name, type⟩ := p
    unfold Collector.paramList
    refine .bind (reads.paramType _ _ fixed) fun a t kept _ => ?_
    exact .giving (ih _ kept.fixed)

theorem signature (type : TypeId) (site : Site) (arguments : Option (List CursorId))
    (fixed : w.Sealed s) : Keeps w tops [] s (w.signature visit type site arguments) Anything := by
  unfold Collector.signature
  generalize (if (w.table.type type).kind.isFunction then type else w.table.canonicalOf type) = f
  simp only []
  refine .bind (reads.type _ _ fixed) fun a t kept _ => ?_
  split
  · exact .pure kept.fixed trivial
  · exact .giving (reads.paramList _ _ _ kept.fixed)

theorem typeRef (type : TypeId) (site : Site) (fixed : w.Sealed s) :
    Keeps w tops [] s (w.typeRef visit type site) Anything := by
  have tag (c : CursorId) :
      Keeps w tops [] s (do return CType.named (← visit.tag c site false)) Anything :=
    .giving (reads.tag site fixed nofun)
  unfold Collector.typeRef
  simp only []
  split
  · exact reads.type _ _ fixed
  · exact .pure fixed trivial
  · split
    · rename_i kind
      exact .giving (reads.typedefDecl fixed kind nofun)
    · exact reads.type _ _ fixed
  · split
    · exact tag _
    · exact unknownType fixed _ _ _
  · split
    · exact tag _
    · exact unknownType fixed _ _ _
  · refine .bind (reads.type _ _ fixed) fun target t kept _ => ?_
    split
    · split
      · exact .pure kept.fixed trivial
      · exact .pure kept.fixed trivial
    · exact .pure kept.fixed trivial
  · exact .giving (reads.type _ _ fixed)
  · exact .giving (reads.type _ _ fixed)
  · exact .giving (reads.type _ _ fixed)
  · exact .giving (reads.signature _ _ _ fixed)
  · exact .giving (reads.signature _ _ _ fixed)
  · split
    · exact .pure fixed trivial
    · exact .pure fixed trivial
    · split
      · exact reads.type _ _ fixed
      · exact unknownType fixed _ _ _

/-! ## Reading records -/

theorem unnamedTag (owner : Owner) (site : Site) (tags : List (String × String)) (m : Members)
    (c : CursorId) (fixed : w.Sealed s) :
    Keeps w tops [] s (w.unnamedTag visit owner site tags m c) Anything := by
  have note {t : State} (fixed : w.Sealed t) (key : String) (m : Members) :
      Keeps w tops [] t (do Collect.addNested owner.key key; return m) Anything :=
    .giving (.modifyQuiet fixed ⟨rfl, rfl, rfl⟩)
  unfold Collector.unnamedTag
  split
  · exact .bind (reads.tag _ fixed nofun) fun key t kept _ => note kept.fixed key _
  · exact .bind (reads.tag _ fixed nofun) fun key t kept _ => note kept.fixed key _

theorem fieldDecl (owner : Owner) (site : Site) (m : Members) (c : CursorId) (fixed : w.Sealed s) :
    Keeps w tops [] s (w.fieldDecl visit owner site m c) Anything := by
  unfold Collector.fieldDecl
  simp only []
  split
  · exact .pure fixed trivial
  · split
    · exact .giving (.tell fixed _)
    · exact .giving (reads.type _ _ fixed)

theorem members (owner : Owner) (retain builtin : Bool) (decl : CursorId) (fixed : w.Sealed s) :
    Keeps w tops [] s (w.members visit owner retain builtin decl) Anything := by
  unfold Collector.members
  refine .foldlM _ _ fixed fun m c t below fixed => ?_
  unfold Collector.member
  simp only []
  split
  · rename_i isTag
    split
    · exact reads.unnamedTag _ _ _ _ _ fixed
    · exact .giving (reads.tag _ fixed fun _ => ⟨.inside below isTag, isTag⟩)
  · split
    · exact reads.fieldDecl _ _ _ _ fixed
    · split
      · exact .pure fixed trivial
      · exact .pure fixed trivial

theorem fillRecord (owner : Owner) (retain builtin : Bool) (decl : CursorId) (fixed : w.Sealed s) :
    Keeps w tops [owner.key] s (w.fillRecord visit owner retain builtin decl) Anything := by
  unfold Collector.fillRecord
  refine .bind ((reads.members _ _ _ _ fixed).widen (List.nil_subset _)) fun m t kept _ => ?_
  refine .look rfl ?_
  split
  · rename_i r found
    exact .step rfl (.setBody kept.fixed found rfl id) trivial
  · exact .pure kept.fixed trivial

theorem repeats {first : Decl} {decl : CursorId} (fixed : w.Sealed s)
    (there : s.definedAt.lookup (w.table.cursor decl).place = some first.key) :
    Keeps w tops [] s (w.repeats visit first decl (w.table.keyOf decl)) Anything := by
  unfold Collector.repeats
  refine .bind (.fold fixed rfl there) fun _ t kept _ => ?_
  refine .bind (reads.members _ _ _ _ kept.fixed) fun read u kept _ => ?_
  refine .look rfl ?_
  split
  · split
    · exact .giving (.tell kept.fixed _)
    · exact .giving (.unfold kept.fixed _)
  · exact .giving (.unfold kept.fixed _)

/-- A record that waited for its definition is completed from it. -/
theorem complete {decl : CursorId} {d : Decl} {r r' : Record} {name : String}
    {isUnion retain builtin : Bool} (fixed : w.Sealed s)
    (defines : (w.table.cursor decl).defines = true)
    (found : s.graph.get? (w.table.keyOf decl) = some d) (body : d.body = .record r)
    (waits : r.complete = false) (sort : r.isUnion = r'.isUnion) (completes : r'.complete = true) :
    Keeps w tops [] s (do
        Collect.setBody (w.table.keyOf decl) (.record r')
        w.noteDefined decl (w.table.keyOf decl)
        w.fillRecord visit ⟨w.table.keyOf decl, name, isUnion⟩ retain builtin decl) Anything := by
  have waited : d.body.settled = false := by simp [body, Decl.Body.settled, waits]
  have settled : (s.graph.setBody (w.table.keyOf decl) (.record r')).settled
      (w.table.keyOf decl) = true := by
    simp [DeclGraph.settled, DeclGraph.get?_setBody, found, Decl.Body.settled, completes]
  have describing : w.Kept tops [w.table.keyOf decl] s
      { s with graph := s.graph.setBody (w.table.keyOf decl) (.record r') } :=
    .setBody fixed found (by simp [body, Decl.Body.SameSort, sort]) fun _ => completes
  have reading : Keeps w tops [w.table.keyOf decl]
      { s with graph := s.graph.setBody (w.table.keyOf decl) (.record r') } (do
        w.noteDefined decl (w.table.keyOf decl)
        w.fillRecord visit ⟨w.table.keyOf decl, name, isUnion⟩ retain builtin decl) Anything :=
    .bind (.noteDefined describing.fixed decl settled) fun _ t kept _ =>
      reads.fillRecord ⟨w.table.keyOf decl, name, isUnion⟩ _ _ _ kept.fixed
  refine ⟨?_, fun _ => trivial⟩
  exact (describing.trans reading.kept).close found waited (reading.kept.grows.settled settled)
    ⟨decl, defines, rfl⟩

theorem recordDecl {c : CursorId} {top : Bool} (site : Site) (fixed : w.Sealed s)
    (atTop : top = true → w.AtTop tops c ∧ (w.table.cursor c).kind.isTag = true) :
    Keeps w tops [] s (w.recordDecl visit c site top) Anything := by
  unfold Collector.recordDecl
  simp only []
  refine .look rfl ?_
  refine .look rfl ?_
  rw [show (w.table.cursor (w.table.definitionOf c)).key = w.table.keyOf (w.table.definitionOf c)
    from rfl]
  split
  · rename_i previous found
    split
    · rename_i r body
      split
      · rename_i completes
        obtain ⟨waits, defines⟩ : r.complete = false ∧ _ = true := by simpa using completes
        have own := fixed.stands_for_itself (w.table.keyOf (w.table.definitionOf c))
          (by simp [DeclGraph.settled, found, body, Decl.Body.settled, waits])
        rw [own] at found ⊢
        exact .bind₃ (reads.complete fixed defines found body waits rfl rfl) fun _ t kept _ =>
          .declared kept.fixed atTop (.inl rfl)
      · exact .declared fixed atTop (fixed.standsFor c)
    · exact .fail fixed
  · rename_i absent
    have own := fixed.stands_for_itself (w.table.keyOf (w.table.definitionOf c))
      (by simp [DeclGraph.settled, absent])
    rw [own]
    refine .bind (.definedBefore fixed _ _) fun before t _ => ?_
    rintro ⟨rfl, noted⟩
    have enter {t : State} (fixed : w.Sealed t) : Keeps w tops [] t (do
        w.newRecord visit (w.table.definitionOf c) (w.table.keyOf (w.table.definitionOf c)) site top
        return w.table.keyOf (w.table.definitionOf c)) Anything :=
      .giving (.newRecord visit _ _ _ _ fixed)
    split
    · rename_i first
      have there := noted first rfl
      split
      · refine .bind (reads.repeats fixed there) fun again u kept _ => ?_
        split
        · exact .declared kept.fixed atTop (.inr ⟨_, rfl, kept.placed there⟩)
        · exact enter kept.fixed
      · exact enter fixed
    · exact enter fixed

theorem tagDecl {c : CursorId} {top : Bool} (site : Site) (fixed : w.Sealed s)
    (atTop : top = true → w.AtTop tops c ∧ (w.table.cursor c).kind.isTag = true) :
    Keeps w tops [] s (w.tagDecl visit c site top) Anything := by
  unfold Collector.tagDecl
  split
  · exact .enumDecl site fixed atTop
  · exact reads.recordDecl site fixed atTop

end ReadsOn

/-- The walk reads types and tags so, however deep it may go. -/
theorem readsOn_visit (w : Collector) (tops : List CursorId) (bound : Nat) :
    ReadsOn w tops (w.visit bound) := by
  induction bound with
  | zero => exact ⟨fun _ _ fixed => .fail fixed, fun _ fixed _ => .fail fixed⟩
  | succ bound ih =>
    exact ⟨fun type site fixed => ih.typeRef type site fixed,
      fun site fixed atTop => ih.tagDecl site fixed atTop⟩

/-! ## Top cursors -/

theorem Keeps.declare {d : Decl} {site : Site} {c : CursorId} (fixed : w.Sealed s) (mem : c ∈ tops)
    (kind : (w.table.cursor c).kind = .function ∨ (w.table.cursor c).kind = .object)
    (own : d.key = w.table.keyOf c) (asked : d.retained = w.retains (w.table.cursor c) false) :
    Keeps w tops [] s (Collector.declare d site) Anything := by
  unfold Collector.declare
  refine .look rfl ?_
  split
  · exact .add fixed
  · rename_i previous found
    simp only []
    split
    · exact .fail_bind fixed
    · split
      · rename_i unbound
        obtain ⟨retained, unbound⟩ : d.retained = true ∧ previous.retained = false := by
          simpa using unbound
        have asks : w.Asks s previous c :=
          .plain kind (own.symm.trans (DeclGraph.get?_key found).symm) (asked ▸ retained)
        exact .step rfl (.mark fixed _ (.mark found unbound (.listed mem) asks)) trivial
      · exact .pure fixed trivial

namespace ReadsOn

variable {visit : Visit} (reads : ReadsOn w tops visit)
include reads

theorem topDecl {c : CursorId} (mem : c ∈ tops) (fixed : w.Sealed s) :
    Keeps w tops [] s (w.topDecl visit c) Anything := by
  have tag (isTag : (w.table.cursor c).kind.isTag = true) :
      Keeps w tops [] s (do let _ ← visit.tag c (w.siteOf c false) true) Anything :=
    .giving (reads.tag _ fixed fun _ => ⟨.listed mem, isTag⟩)
  have tell (e : Event) : Keeps w tops [] s (Collect.tell e) Anything :=
    (Keeps.tell fixed e).mono fun _ _ _ _ => trivial
  unfold Collector.topDecl
  simp only []
  split
  · exact tell _
  · split <;> rename_i kind
    · exact tag (by rw [kind]; rfl)
    · exact tag (by rw [kind]; rfl)
    · exact tag (by rw [kind]; rfl)
    · exact .giving (reads.typedefDecl fixed kind fun _ => .listed mem)
    · unfold Collector.functionDecl
      simp only []
      split
      · exact tell _
      · refine .bind (reads.signature _ _ _ fixed) fun sig t kept _ => ?_
        exact .declare kept.fixed mem (.inl kind) rfl rfl
    · unfold Collector.objectDecl
      simp only []
      split
      · exact tell _
      · refine .bind (reads.type _ _ fixed) fun type t kept _ => ?_
        exact .declare kept.fixed mem (.inr kind) rfl rfl
    · exact tell _

theorem walk (fixed : w.Sealed s) : Keeps w tops [] s (w.walk visit tops) Anything := by
  refine .bind (.modifyQuiet fixed ⟨rfl, rfl, rfl⟩) fun _ t kept _ => ?_
  exact .forM tops kept.fixed fun c u mem fixed => reads.topDecl mem fixed

end ReadsOn

end Collector

end HeaderBind
