import HeaderBind.Proofs.Walk.Move
/-!
# Programs that walk

What running a program of the walk does: the path it takes, the records it leaves to be read, what
it gives, and how it may fail. A program is followed along its steps, each from a sound state.
-/
namespace HeaderBind

namespace Collect

variable {α β : Type}

/-- The outcome of collecting from a state, and the state it ends in. -/
def exec (x : Collect α) (s : State) : Except ResolutionError α × State := (ExceptT.run x).run s

theorem exec_fail (e : ResolutionError) (s : State) : exec (fail e : Collect α) s = (.error e, s) := rfl

theorem exec_bind (x : Collect α) (f : α → Collect β) (s : State) :
    exec (x >>= f) s =
      match exec x s with
      | (.ok a, t) => exec (f a) t
      | (.error e, t) => (.error e, t) := by
  simp only [exec, ExceptT.run_bind, StateT.run_bind]
  rcases h : (ExceptT.run x).run s with ⟨a | a, t⟩ <;> rfl

theorem exec_add (d : Decl) (s : State) :
    exec (add d) s =
      match s.graph.add d with
      | .ok (_, g) => (.ok (), { s with graph := g })
      | .error e => (.error e, s) := by
  have eq : exec (add d) s =
      exec (match s.graph.add d with
        | .ok (_, g) => modify fun s => { s with graph := g }
        | .error e => fail e) s := rfl
  rw [eq]
  rcases s.graph.add d with e | ⟨_, g⟩ <;> rfl

end Collect

namespace Collector

open Collect (State exec exec_bind exec_add)

/-- Whether a failure is one that a walk may end in, where `safe` rules out that it goes too deep. -/
structure Harmless (safe : Prop) (e : ResolutionError) : Prop where
  bound : ∀ d key, e ≠ .dangling d key
  deep : safe → ∀ place, e ≠ .endless place

/-- What is known of running a program from a state. -/
structure Walks (w : Collector) (stop : State → Bool) (safe : Prop) (open' : List String) {α : Type}
    (s : State) (x : Collect α) (post : α → State → Prop) : Prop where
  onward : Onward w stop open' s (exec x s).2
  done : ∀ {a}, (exec x s).1 = .ok a → Finished w open' s (exec x s).2 ∧ post a (exec x s).2
  fails : ∀ {e}, (exec x s).1 = .error e → Harmless safe e

variable {w : Collector} {stop : State → Bool} {safe : Prop} {open' : List String}
variable {α β : Type} {s : State}

namespace Walks

theorem pure {a : α} {post : α → State → Prop} (h : post a s) :
    Walks w stop safe open' s (pure a : Collect α) post where
  onward := .refl s
  done ok := by
    obtain rfl := Except.ok.inj ok
    exact ⟨.of_graph rfl, h⟩
  fails error := by cases error

theorem of_error {x : Collect α} {e : ResolutionError} {post : α → State → Prop}
    (h : exec x s = (.error e, s)) (harmless : Harmless safe e) :
    Walks w stop safe open' s x post where
  onward := by
    rw [h]
    exact .refl s
  done ok := by
    rw [h] at ok
    cases ok
  fails error := by
    rw [h] at error
    obtain rfl := Except.error.inj error
    exact harmless

theorem fail {e : ResolutionError} {post : α → State → Prop} (h : Harmless safe e) :
    Walks w stop safe open' s (Collect.fail e : Collect α) post :=
  of_error (Collect.exec_fail e s) h

theorem fail_bind {e : ResolutionError} {f : α → Collect β} {post : β → State → Prop}
    (h : Harmless safe e) : Walks w stop safe open' s (Collect.fail e >>= f) post :=
  of_error rfl h

/-- One program after another. -/
theorem bind {x : Collect α} {f : α → Collect β} {mid : α → State → Prop}
    {post : β → State → Prop} (sound : Sound w s) (hx : Walks w stop safe open' s x mid)
    (hf : ∀ a t, Onward w stop open' s t → Sound w t → mid a t →
      Walks w stop safe open' t (f a) post) :
    Walks w stop safe open' s (x >>= f) post := by
  have eq := exec_bind x f s
  obtain ⟨onward, done, fails⟩ := hx
  rcases hxs : exec x s with ⟨e | a, t⟩
  · rw [hxs] at onward fails eq
    refine ⟨eq ▸ onward, ?_, ?_⟩ <;> intro _ h <;> rw [eq] at h
    · cases h
    · obtain rfl := Except.error.inj h
      exact fails rfl
  · rw [hxs] at onward done eq
    obtain ⟨finished, mid⟩ := done rfl
    obtain ⟨onward', done', fails'⟩ := hf a t onward (onward.sound sound) mid
    have eq : exec (x >>= f) s = exec (f a) t := eq
    rw [← eq] at onward' done' fails'
    refine ⟨onward.trans onward', fun h => ?_, fails'⟩
    obtain ⟨finished', post⟩ := done' h
    exact ⟨finished.trans finished' onward onward'.path, post⟩

/-- Three programs that do one thing together, and what follows them. -/
theorem bind₃ {γ δ : Type} {x : Collect α} {y : Collect β} {z : Collect γ} {f : γ → Collect δ}
    {mid : γ → State → Prop} {post : δ → State → Prop} (sound : Sound w s)
    (h : Walks w stop safe open' s (x >>= fun _ => y >>= fun _ => z) mid)
    (hf : ∀ a t, Onward w stop open' s t → Sound w t → mid a t →
      Walks w stop safe open' t (f a) post) :
    Walks w stop safe open' s (x >>= fun _ => y >>= fun _ => z >>= f) post := by
  simpa only [bind_assoc] using bind sound h hf

theorem mono {x : Collect α} {post post' : α → State → Prop}
    (h : Walks w stop safe open' s x post)
    (weaker : ∀ a t, Onward w stop open' s t → post a t → post' a t) :
    Walks w stop safe open' s x post' where
  onward := h.onward
  done ok := ⟨(h.done ok).1, weaker _ _ h.onward (h.done ok).2⟩
  fails := h.fails

theorem widen {open'' : List String} {x : Collect α} {post : α → State → Prop}
    (h : Walks w stop safe open' s x post) (wider : open' ⊆ open'') :
    Walks w stop safe open'' s x post where
  onward := h.onward.widen wider
  done ok := ⟨(h.done ok).1.widen wider, (h.done ok).2⟩
  fails := h.fails

/-- The keys a program leaves open are closed when they were not folded before and what is under them
is finished. -/
theorem close {x : Collect α} {post : α → State → Prop} (h : Walks w stop safe open' s x post)
    (new : ∀ key ∈ open', s.folded.lookup key = none)
    (finished : ∀ a t, post a t → ∀ key ∈ open',
      (t.graph.isComplete key = true → s.graph.isComplete key = true ∨ w.Read t key) ∧
      (key ∉ s.graph.keys → key ∈ t.graph.keys → t.graph.namesType key = true)) :
    Walks w stop safe [] s x post where
  onward := h.onward.close new
  done ok := by
    have post := (h.done ok).2
    refine ⟨(h.done ok).1.close (fun key mem => (finished _ _ post key mem).1) ?_, post⟩
    exact fun key mem fresh known => ⟨(finished _ _ post key mem).2 fresh known, .inr (new key mem)⟩
  fails := h.fails

/-- What a program finishes may be used by what follows it. -/
theorem finished {x : Collect α} {post : α → State → Prop} (h : Walks w stop safe open' s x post) :
    Walks w stop safe open' s x fun a t => Finished w open' s t ∧ post a t where
  onward := h.onward
  done ok := ⟨(h.done ok).1, h.done ok⟩
  fails := h.fails

/-- A program that only looks at the state. -/
theorem look {x : Collect α} {f : α → Collect β} {a : α} {post : β → State → Prop}
    (h : exec x s = (.ok a, s)) (hf : Walks w stop safe open' s (f a) post) :
    Walks w stop safe open' s (x >>= f) post := by
  have eq : exec (x >>= f) s = exec (f a) s := by rw [exec_bind, h]
  exact ⟨eq ▸ hf.onward, eq ▸ hf.done, eq ▸ hf.fails⟩

/-- A program that makes one move. -/
theorem move {x : Collect α} {a : α} {t : State} {post : α → State → Prop}
    (h : exec x s = (.ok a, t)) (move : Move w stop s t)
    (folded : ∀ {key target}, key ∉ open' → s.folded.lookup key = some target →
      t.folded.lookup key = some target)
    (finished : Finished w open' s t) (hpost : post a t) :
    Walks w stop safe open' s x post where
  onward := by
    rw [h]
    exact ⟨.single move, folded⟩
  done ok := by
    rw [h] at ok ⊢
    obtain rfl := Except.ok.inj ok
    exact ⟨finished, hpost⟩
  fails error := by
    rw [h] at error
    cases error

/-- A program that only puts things aside. -/
theorem aside {x : Collect α} {a : α} {t : State} {post : α → State → Prop}
    (h : exec x s = (.ok a, t)) (same : Aside s t) (hpost : post a t) :
    Walks w stop safe open' s x post :=
  move h (.aside same) (fun _ => same.folded ▸ id) (.of_graph same.graph) hpost

theorem modifyAside {f : State → State} (same : Aside s (f s)) :
    Walks w stop safe open' s (modify f : Collect Unit) fun _ t => Aside s t :=
  aside rfl same same

theorem tell (e : Event) : Walks w stop safe open' s (Collect.tell e) fun _ t => Aside s t :=
  modifyAside ⟨rfl, rfl, rfl, rfl⟩

/-- Entering a declaration whose key is free, or whose key was taken meanwhile. -/
theorem add {d : Decl} (known : ∀ key ∈ d.mentions, s.graph.namesType key = true)
    (finished : d.key ∈ open' ∨
      d.isRecord = false ∧ d.body.isType = true ∧ d.body.settled = true) :
    Walks w stop safe open' s (Collect.add d) fun _ t =>
      (d.key ∉ s.graph.keys ∧ t.graph.get? d.key = some d) ∨ (d.key ∈ s.graph.keys ∧ t = s) := by
  have run := exec_add d s
  by_cases frozen : s.graph.frozen = true
  · have refused : s.graph.add d = .error (.frozen d.key) := by simp [DeclGraph.add, frozen]
    rw [refused] at run
    exact of_error run ⟨by simp, by simp⟩
  · by_cases taken : d.key ∈ s.graph.keys
    · have same : s.graph.add d = .ok ((s.graph.get? d.key).getD d, s.graph) := by
        simp [DeclGraph.add, frozen, taken]
      rw [same] at run
      exact aside run ⟨rfl, rfl, rfl, rfl⟩ (.inr ⟨taken, rfl⟩)
    · have pushed : s.graph.add d = .ok (d, s.graph.push d taken) := by
        simp [DeclGraph.add, frozen, taken]
      rw [pushed] at run
      refine move run (.enter taken (by simpa using frozen) known) (fun _ => id)
        (.push taken finished) (.inl ⟨taken, ?_⟩)
      simp [DeclGraph.get?_push]

/-- Describing a declaration that was entered. -/
theorem setBody {d : Decl} {key : String} {body : Decl.Body} (found : s.graph.get? key = some d)
    (sort : d.body.SameSort body) (settled : d.body.settled = true → body.settled = true)
    (known : ∀ k ∈ ({ d with body := body } : Decl).mentions, s.graph.namesType k = true)
    (finished : key ∈ open' ∨ (body.settled = true → d.body.settled = true)) :
    Walks w stop safe open' s (Collect.setBody key body) fun _ t =>
      t = { s with graph := s.graph.setBody key body } := by
  obtain rfl := DeclGraph.get?_key found
  exact move rfl (.describe found sort settled known) (fun _ => id) (.setBody found sort finished) rfl

theorem markRetained (key : String) :
    Walks w stop safe open' s (Collect.markRetained key) fun _ _ => True :=
  move rfl (.mark [key]) (fun _ => id) .mark trivial

theorem addNested {owner key : String} (passed : stop s = false)
    (known : s.graph.namesType key = true) (part : w.PartOf s owner key) :
    Walks w stop safe open' s (Collect.addNested owner key) fun _ t => (owner, key) ∈ t.nested :=
  move rfl (.noteInside passed known part) (fun _ => id) (.of_graph rfl) (by simp)

theorem fold {c : CursorId} {target : String} (new : s.folded.lookup (w.table.keyOf c) = none)
    (known : s.graph.namesType target = true)
    (repeats : s.definedAt.lookup (w.table.cursor c).place = some target) :
    Walks w stop safe open' s (Collect.fold (w.table.keyOf c) target) fun _ t =>
      t = { s with folded := (w.table.keyOf c, target) :: s.folded } := by
  refine move rfl (.fold new known repeats) (fun {key _} _ before => ?_) (.of_graph rfl) rfl
  have other : (key == w.table.keyOf c) = false := by
    rw [beq_eq_false_iff_ne]
    rintro rfl
    rw [new] at before
    cases before
  rwa [List.lookup_cons, other]

theorem unfold {key : String} (mem : key ∈ open') :
    Walks w stop safe open' s (Collect.unfold key) fun _ t =>
      t = { s with folded := s.folded.filter (·.1 != key) } := by
  refine move rfl (.unfold key) (fun {k _} shut before => ?_) (.of_graph rfl) rfl
  have other : k ≠ key := fun same => shut (same ▸ mem)
  rwa [lookup_filter_ne, if_neg other]

theorem noteDefined {decl : CursorId} {key : String} (settled : s.graph.settled key = true) :
    Walks w stop safe open' s (w.noteDefined decl key) fun _ t => t.graph = s.graph := by
  have nothing : Walks w stop safe open' s (Pure.pure () : Collect Unit) fun _ t => t.graph = s.graph :=
    .pure rfl
  unfold Collector.noteDefined
  simp only []
  split
  · exact nothing
  · refine look rfl ?_
    split
    · rename_i new
      exact move rfl (.noteDefined (by simpa using new) settled) (fun _ => id) (.of_graph rfl) rfl
    · exact nothing

theorem anonymousName (decl : CursorId) (tag : Tag) (site : Site) :
    Walks w stop safe open' s (w.anonymousName decl tag site) fun _ t => Aside s t := by
  unfold Collector.anonymousName
  refine look rfl ?_
  simp only []
  split
  · exact pure ⟨rfl, rfl, rfl, rfl⟩
  · split
    · exact aside rfl ⟨rfl, rfl, rfl, rfl⟩ ⟨rfl, rfl, rfl, rfl⟩
    · exact aside rfl ⟨rfl, rfl, rfl, rfl⟩ ⟨rfl, rfl, rfl, rfl⟩

theorem retainFor (key : String) (decl : CursorId) :
    Walks w stop safe open' s (w.retainFor key decl) fun _ _ => True := by
  unfold Collector.retainFor
  refine look rfl ?_
  split
  · exact pure trivial
  · split
    · exact pure trivial
    · exact markRetained key

/-- What is found as defined before was noted at the place of the cursor, which is a definition. -/
theorem definedBefore (decl : CursorId) (key : String) :
    Walks w stop safe open' s (w.definedBefore decl key) fun found t =>
      t = s ∧ ∀ d, found = some d → (w.table.cursor decl).defines = true ∧
        s.graph.get? d.key = some d ∧
        s.definedAt.lookup (w.table.cursor decl).place = some d.key := by
  have nothing : Walks w stop safe open' s (Pure.pure none : Collect (Option Decl)) fun found t =>
      t = s ∧ ∀ d, found = some d → (w.table.cursor decl).defines = true ∧
        s.graph.get? d.key = some d ∧
        s.definedAt.lookup (w.table.cursor decl).place = some d.key :=
    .pure ⟨rfl, by simp⟩
  unfold Collector.definedBefore
  simp only []
  split
  · exact nothing
  · rename_i defines
    refine look rfl ?_
    split
    · exact nothing
    · rename_i first there
      split
      · exact nothing
      · split
        · exact nothing
        · rename_i d found
          split
          · exact nothing
          · refine .pure ⟨rfl, fun e same => ?_⟩
            obtain rfl := Option.some.inj same
            obtain rfl := DeclGraph.get?_key found
            rw [Bool.or_eq_true, not_or] at defines
            exact ⟨by simpa using defines.2, found, there⟩

end Walks

end Collector

end HeaderBind
