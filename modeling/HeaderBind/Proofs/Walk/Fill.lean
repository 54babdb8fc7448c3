import HeaderBind.Proofs.Walk.Turning
/-!
# Records that are filled

A record is complete once it was entered as defined, and is filled when its members are read. What is
complete stays as it is, but for the record that is being filled; and what is complete in the end was
filled from a definition on the way. What was told stays told, and more is told after it.
-/
namespace HeaderBind

theorem Decl.settled_of_not_record {d : Decl} (plain : d.isRecord = false) :
    d.body.settled = true := by
  cases body : d.body with
  | record r => simp [Decl.isRecord, body] at plain
  | typedef | enum | function | object => rfl

namespace DeclGraph

/-- The record under a key, complete or not. -/
def record? (g : DeclGraph) (key : String) : Option Record :=
  match g.get? key with
  | some ({ body := .record r, .. } : Decl) => some r
  | _ => none

/-- The record under a key, if it is complete. -/
def complete? (g : DeclGraph) (key : String) : Option Record := (g.record? key).filter (·.complete)

variable {g h : DeclGraph} {key k : String} {r : Record}

theorem record?_eq_some_iff :
    g.record? key = some r ↔ ∃ d, g.get? key = some d ∧ d.body = .record r := by
  unfold record?
  split
  · rename_i r' found
    simp [found]
  · rename_i other
    refine ⟨nofun, ?_⟩
    rintro ⟨⟨k, name, origin, retained, builtin, body⟩, found, rfl⟩
    exact absurd found (other _ _ _ _ _ _)

theorem complete?_eq_some_iff :
    g.complete? key = some r ↔ g.record? key = some r ∧ r.complete = true :=
  Option.filter_eq_some_iff

theorem record?_of_absent (absent : g.get? key = none) : g.record? key = none := by
  simp [record?, absent]

theorem record?_of_found {d : Decl} (found : g.get? key = some d) (plain : d.isRecord = false) :
    g.record? key = none := by
  rw [Option.eq_none_iff_forall_ne_some]
  intro r there
  obtain ⟨e, found', body⟩ := record?_eq_some_iff.mp there
  obtain rfl := Option.some.inj (found.symm.trans found')
  simp [Decl.isRecord, body] at plain

theorem isRecord_of_record? {d : Decl} (found : g.get? key = some d) (plain : g.record? key = none) :
    d.isRecord = false := by
  by_contra isRecord
  rw [Bool.not_eq_false] at isRecord
  unfold Decl.isRecord at isRecord
  split at isRecord
  · rename_i r body
    rw [record?_eq_some_iff.mpr ⟨d, found, body⟩] at plain
    cases plain
  · cases isRecord

/-- What is declared under a key waits for nothing if it is no record. -/
theorem settled_of_known (known : key ∈ g.keys) (plain : g.record? key = none) :
    g.settled key = true := by
  obtain ⟨d, found⟩ := mem_keys_iff.mp known
  exact settled_iff.mpr ⟨d, found, Decl.settled_of_not_record (isRecord_of_record? found plain)⟩

theorem settled_of_absent (absent : g.get? key = none) : g.settled key = false := by
  simp [settled, absent]

theorem settled_of_complete (there : g.record? key = some r) (complete : r.complete = true) :
    g.settled key = true := by
  obtain ⟨d, found, body⟩ := record?_eq_some_iff.mp there
  exact settled_iff.mpr ⟨d, found, by simpa [body, Decl.Body.settled] using complete⟩

theorem complete?_of_record? (absent : g.record? key = none) : g.complete? key = none := by
  simp [complete?, absent]

theorem complete?_congr (same : h.record? key = g.record? key) : h.complete? key = g.complete? key := by
  simp [complete?, same]

theorem complete?_of_decls (same : h.decls = g.decls) : h.complete? key = g.complete? key := by
  simp [complete?, record?, get?, same]

/-- Where the bodies of a key are the same, so are the records. -/
theorem record?_congr (same : (h.get? key).map (·.body) = (g.get? key).map (·.body)) :
    h.record? key = g.record? key := by
  refine Option.ext fun r => ?_
  have iff (g : DeclGraph) : g.record? key = some r ↔
      (g.get? key).map (·.body) = some (.record r) := by
    simp [record?_eq_some_iff, Option.map_eq_some_iff]
  rw [iff, iff, same]

theorem record?_push {d : Decl} (fresh : d.key ∉ g.keys) (plain : d.isRecord = false ∨ key ≠ d.key) :
    (g.push d fresh).record? key = g.record? key := by
  by_cases same : key = d.key
  · subst same
    rw [record?_of_absent (get?_eq_none_iff.mpr fresh),
      record?_of_found (by rw [get?_push, if_pos rfl]) (plain.resolve_right (· rfl))]
  · exact record?_congr (by rw [get?_push, if_neg same])

theorem record?_setBody_ne {body : Decl.Body} (other : k ≠ key) :
    (g.setBody key body).record? k = g.record? k :=
  record?_congr (by rw [get?_setBody]; simp [other])

theorem record?_setBody_self {body : Decl.Body} (body' : Record) (there : g.record? key = some r)
    (same : body = .record body') : (g.setBody key body).record? key = some body' := by
  obtain ⟨d, found, _⟩ := record?_eq_some_iff.mp there
  exact record?_eq_some_iff.mpr ⟨{ d with body := body }, by simp [get?_setBody, found], same⟩

theorem record?_retainAll {nested : List (String × String)} (keys : List String) :
    (g.retainAll nested keys).record? key = g.record? key := by
  refine record?_congr ?_
  cases found : (g.retainAll nested keys).get? key with
  | none =>
    have absent : g.get? key = none := by
      rw [get?_eq_none_iff] at found ⊢
      rwa [keys_retainAll] at found
    rw [absent]
  | some e =>
    obtain ⟨d, found', same⟩ := retainAll_back found
    rw [found', same]
    rfl

/-- A declaration that is there and no record never becomes one. -/
theorem Grows.record?_eq_none (grows : g.Grows h) (known : key ∈ g.keys)
    (plain : g.record? key = none) : h.record? key = none := by
  obtain ⟨d, found⟩ := mem_keys_iff.mp known
  obtain ⟨e, found', becomes⟩ := grows key d found
  exact record?_of_found found' (becomes.sort.isRecord.trans (isRecord_of_record? found plain))

end DeclGraph

namespace Collector

open Collect (State exec exec_bind exec_add)

variable (w : Collector)

/-- Whether a run fills a record from a cursor: the record was entered with the layout that the parser
reports there, and its members were read. -/
structure Fills (bound : Nat) (decl : CursorId) (owner : Owner) (s t : State) : Prop where
  entered : ∃ r, s.graph.complete? owner.key = some r ∧
    r.layout = w.table.layoutOf (w.table.cursor decl).typeId ∧ r.isUnion = owner.isUnion
  run : ∃ retain builtin,
    exec (w.fillRecord (w.visit bound) owner retain builtin decl) s = (.ok (), t)

/-- Whether a record is what some run left that filled it from a definition with its key. -/
def Filled (key : String) (r : Record) : Prop :=
  ∃ bound decl owner s t, (w.table.cursor decl).defines = true ∧ w.table.keyOf decl = key ∧
    owner.key = key ∧ w.Fills bound decl owner s t ∧ t.graph.complete? key = some r

/-- Whether keys that stand for others stand for declarations that wait for nothing, and have no record
of their own, and what is noted at a place waits for nothing either. -/
structure Anchored (s : State) : Prop where
  target : ∀ {key target}, s.folded.lookup key = some target → s.graph.settled target = true
  bare : ∀ {key target}, s.folded.lookup key = some target → s.graph.record? key = none
  placed : ∀ {place key}, s.definedAt.lookup place = some key → s.graph.settled key = true

theorem anchored_start : Anchored .start where
  target folds := by cases folds
  bare folds := by cases folds
  placed there := by cases there

/-- Whether keys that stand for others go on doing so and all records that have become complete are
filled, but for some keys. -/
structure Tidy (open' : List String) (s t : State) : Prop where
  anchored : Anchored t
  folded : ∀ {key target}, key ∉ open' → s.folded.lookup key = some target →
    t.folded.lookup key = some target
  filled : ∀ {key r}, key ∉ open' → t.graph.complete? key = some r →
    s.graph.complete? key = some r ∨ w.Filled key r

/-- Whether a state may come after another: complete records stayed, but for some keys, and nothing
that was told is gone. Where that is `safe`, the states are tidy as well. -/
structure Advance (safe : Prop) (open' : List String) (s t : State) : Prop where
  grows : s.graph.Grows t.graph
  events : s.events <+: t.events
  stays : ∀ {key r}, key ∉ open' → s.graph.complete? key = some r →
    t.graph.complete? key = some r
  tidy : safe → Anchored s → Tidy w open' s t

variable {w} {safe : Prop} {s t u : State} {open' : List String} {key : String}

namespace Anchored

/-- A key that stands for a declaration that waits for something, or for none, stands for itself. -/
theorem stands_for_itself (anchored : Anchored s) (key : String)
    (waits : s.graph.settled ((s.folded.lookup key).getD key) = false) :
    key = (s.folded.lookup key).getD key ∧
      s.folded.lookup ((s.folded.lookup key).getD key) = none := by
  cases folds : s.folded.lookup key with
  | none => exact ⟨rfl, folds⟩
  | some target =>
    rw [folds, Option.getD_some, anchored.target folds] at waits
    cases waits

theorem not_folded_of_record {r : Record} (anchored : Anchored s)
    (there : s.graph.record? key = some r) : s.folded.lookup key = none := by
  rw [Option.eq_none_iff_forall_ne_some]
  intro target folds
  rw [anchored.bare folds] at there
  cases there

end Anchored

namespace Advance

theorem refl (s : State) : Advance w safe open' s s :=
  ⟨.refl _, List.prefix_rfl, fun _ => id, fun _ anchored => ⟨anchored, fun _ => id, fun _ => .inl⟩⟩

theorem trans (h : Advance w safe open' s t) (h' : Advance w safe open' t u) :
    Advance w safe open' s u where
  grows := h.grows.trans h'.grows
  events := h.events.trans h'.events
  stays shut there := h'.stays shut (h.stays shut there)
  tidy safe anchored := by
    have before := h.tidy safe anchored
    have after := h'.tidy safe before.anchored
    refine ⟨after.anchored, fun shut folds => after.folded shut (before.folded shut folds), ?_⟩
    intro key r shut there
    rcases after.filled shut there with there | filled
    · exact before.filled shut there
    · exact .inr filled

theorem widen {open'' : List String} (h : Advance w safe open' s t) (wider : open' ⊆ open'') :
    Advance w safe open'' s t where
  grows := h.grows
  events := h.events
  stays shut := h.stays fun mem => shut (wider mem)
  tidy safe anchored :=
    have tidy := h.tidy safe anchored
    ⟨tidy.anchored, fun shut => tidy.folded fun mem => shut (wider mem),
      fun shut => tidy.filled fun mem => shut (wider mem)⟩

/-- A key under which nothing was complete need not be left out once what is complete there is
filled. -/
theorem close (h : Advance w safe [key] s t) (new : s.graph.complete? key = none)
    (itself : safe → Anchored s → s.folded.lookup key = none)
    (filled : safe → Anchored s → ∀ r, t.graph.complete? key = some r → w.Filled key r) :
    Advance w safe open' s t where
  grows := h.grows
  events := h.events
  stays {k r} _ there := by
    by_cases same : k = key
    · rw [same, new] at there
      cases there
    · exact h.stays (by simpa using same) there
  tidy safe anchored := by
    have tidy := h.tidy safe anchored
    refine ⟨tidy.anchored, fun {k target} _ folds => ?_, fun {k r} _ there => ?_⟩
    · by_cases same : k = key
      · rw [same, itself safe anchored] at folds
        cases folds
      · exact tidy.folded (by simpa using same) folds
    · by_cases same : k = key
      · exact .inr (same ▸ filled safe anchored r (same ▸ there))
      · exact tidy.filled (by simpa using same) there

/-- What is complete under a key stays filled, if it is, where the key is not left out. -/
theorem still_filled (h : Advance w safe [] s t) (holds : safe) (anchored : Anchored s)
    (filled : ∀ r, s.graph.complete? key = some r → w.Filled key r) :
    ∀ r, t.graph.complete? key = some r → w.Filled key r :=
  fun r there => ((h.tidy holds anchored).filled List.not_mem_nil there).elim (filled r) id

/-- Where nothing is folded, unfolded or noted as defined, the records have to stay, but for keys that
are left out; and no key that stands for another may get one. -/
theorem of_records (grows : s.graph.Grows t.graph) (events : s.events <+: t.events)
    (folded : t.folded = s.folded) (definedAt : t.definedAt = s.definedAt)
    (same : ∀ {key}, key ∉ open' → t.graph.record? key = s.graph.record? key)
    (bare : safe → Anchored s → ∀ key ∈ open', s.folded.lookup key = none) :
    Advance w safe open' s t where
  grows := grows
  events := events
  stays shut there := by rwa [DeclGraph.complete?_congr (same shut)]
  tidy safe anchored := by
    refine ⟨⟨fun {key target} folds => ?_, fun {key target} folds => ?_, fun {place key} there => ?_⟩,
      fun _ => folded ▸ id, ?_⟩
    · exact grows.settled (anchored.target (folded ▸ folds))
    · rw [folded] at folds
      have shut : key ∉ open' := fun mem => by
        rw [bare safe anchored key mem] at folds
        cases folds
      exact (same shut).trans (anchored.bare folds)
    · exact grows.settled (anchored.placed (definedAt ▸ there))
    · intro key r shut there
      exact .inl (by rwa [DeclGraph.complete?_congr (same shut)] at there)

theorem of_graph (graph : t.graph = s.graph) (folded : t.folded = s.folded)
    (definedAt : t.definedAt = s.definedAt) (events : s.events <+: t.events) :
    Advance w safe [] s t :=
  of_records (graph ▸ .refl _) events folded definedAt (fun _ => by rw [graph]) nofun

theorem mark (keys : List String) :
    Advance w safe [] s { s with graph := s.graph.retainAll s.nested keys } :=
  of_records (DeclGraph.grows_retainAll keys) List.prefix_rfl rfl rfl
    (fun _ => DeclGraph.record?_retainAll keys) nofun

theorem push {d : Decl} (fresh : d.key ∉ s.graph.keys)
    (itself : safe → Anchored s → s.folded.lookup d.key = none) :
    Advance w safe [d.key] s { s with graph := s.graph.push d fresh } :=
  of_records (DeclGraph.grows_push fresh) List.prefix_rfl rfl rfl
    (fun shut => DeclGraph.record?_push fresh (.inr (by simpa using shut)))
    (by simpa using itself)

theorem pushPlain {d : Decl} (fresh : d.key ∉ s.graph.keys) (plain : d.isRecord = false) :
    Advance w safe [] s { s with graph := s.graph.push d fresh } :=
  of_records (DeclGraph.grows_push fresh) List.prefix_rfl rfl rfl
    (fun _ => DeclGraph.record?_push fresh (.inl plain)) nofun

/-- A record is described anew. -/
theorem setRecord {r r' : Record} (there : s.graph.record? key = some r)
    (union : r.isUnion = r'.isUnion) (complete : r.complete = true → r'.complete = true) :
    Advance w safe [key] s { s with graph := s.graph.setBody key (.record r') } := by
  obtain ⟨d, found, body⟩ := DeclGraph.record?_eq_some_iff.mp there
  refine of_records (DeclGraph.grows_setBody found ?_ ?_) List.prefix_rfl rfl rfl
    (fun shut => DeclGraph.record?_setBody_ne (by simpa using shut)) fun _ anchored => ?_
  · simpa [body, Decl.Body.SameSort] using union
  · simpa [body, Decl.Body.settled] using complete
  · simpa using anchored.not_folded_of_record there

/-- A typedef is described anew. -/
theorem setTypedef {d : Decl} {target target' : CType} (found : s.graph.get? key = some d)
    (body : d.body = .typedef target) :
    Advance w safe [] s { s with graph := s.graph.setBody key (.typedef target') } := by
  refine of_records (DeclGraph.grows_setBody found ?_ fun _ => rfl) List.prefix_rfl rfl rfl
    (fun {k} _ => ?_) nofun
  · simp [body, Decl.Body.SameSort]
  · by_cases same : k = key
    · subst same
      rw [DeclGraph.record?_of_found found (by simp [Decl.isRecord, body])]
      refine DeclGraph.record?_of_found (d := { d with body := .typedef target' }) ?_ rfl
      simp [DeclGraph.get?_setBody, found]
    · exact DeclGraph.record?_setBody_ne same

theorem fold {target : String} (known : safe → Anchored s → s.graph.settled target = true)
    (absent : s.graph.get? key = none)
    (itself : safe → Anchored s → s.folded.lookup key = none) :
    Advance w safe [] s { s with folded := (key, target) :: s.folded } where
  grows := .refl _
  events := List.prefix_rfl
  stays _ := id
  tidy safe anchored := by
    have split {k : String} {target' : String}
        (folds : ((key, target) :: s.folded).lookup k = some target') :
        k = key ∧ target' = target ∨ s.folded.lookup k = some target' := by
      rw [List.lookup_cons] at folds
      split at folds
      · rename_i same
        exact .inl ⟨eq_of_beq same, (Option.some.inj folds).symm⟩
      · exact .inr folds
    refine ⟨⟨fun folds => ?_, fun folds => ?_, anchored.placed⟩, fun {k target'} _ folds => ?_,
      fun _ => .inl⟩
    · rcases split folds with ⟨_, rfl⟩ | folds
      · exact known safe anchored
      · exact anchored.target folds
    · rcases split folds with ⟨rfl, _⟩ | folds
      · exact DeclGraph.record?_of_absent absent
      · exact anchored.bare folds
    · have other : (k == key) = false := by
        rw [beq_eq_false_iff_ne]
        rintro rfl
        rw [itself safe anchored] at folds
        cases folds
      rwa [List.lookup_cons, other]

theorem unfold : Advance w safe [key] s { s with folded := s.folded.filter (·.1 != key) } where
  grows := .refl _
  events := List.prefix_rfl
  stays _ := id
  tidy _ anchored := by
    have still {k target : String}
        (folds : (s.folded.filter (·.1 != key)).lookup k = some target) :
        s.folded.lookup k = some target := by
      rw [lookup_filter_ne] at folds
      split at folds
      · cases folds
      · exact folds
    refine ⟨⟨fun folds => anchored.target (still folds), fun folds => anchored.bare (still folds),
      anchored.placed⟩, fun {k target} shut folds => ?_, fun _ => .inl⟩
    rwa [lookup_filter_ne, if_neg (by simpa using shut)]

/-- What waits for nothing may be noted as defined. -/
theorem noteDefined {place : String} (settled : safe → Anchored s → s.graph.settled key = true) :
    Advance w safe [] s { s with definedAt := s.definedAt ++ [(place, key)] } where
  grows := .refl _
  events := List.prefix_rfl
  stays _ := id
  tidy safe anchored := by
    refine ⟨⟨anchored.target, anchored.bare, fun {place' key'} there => ?_⟩, fun _ => id,
      fun _ => .inl⟩
    rw [List.lookup_append, Option.or_eq_some_iff] at there
    rcases there with there | ⟨_, there⟩
    · exact anchored.placed there
    · simp only [List.lookup_cons, List.lookup_nil] at there
      split at there
      · exact Option.some.inj there ▸ settled safe anchored
      · cases there

end Advance

/-! ## Programs that advance -/

/-- What is known of running a program from a state when it gives something. -/
def Advances (w : Collector) (safe : Prop) (open' : List String) {α : Type} (s : State)
    (x : Collect α) (post : α → State → Prop) : Prop :=
  ∀ a t, exec x s = (.ok a, t) → Advance w safe open' s t ∧ post a t

namespace Advances

variable {α β : Type} {x : Collect α} {post : α → State → Prop}

theorem pure {a : α} (h : post a s) : Advances w safe open' s (Pure.pure a : Collect α) post := by
  intro b t run
  obtain ⟨same, rfl⟩ := Prod.mk.inj run
  obtain rfl := Except.ok.inj same
  exact ⟨.refl s, h⟩

theorem fail {e : ResolutionError} :
    Advances w safe open' s (Collect.fail e : Collect α) post := by
  intro a t run
  cases (Prod.mk.inj run).1

theorem fail_bind {e : ResolutionError} {f : α → Collect β} {post : β → State → Prop} :
    Advances w safe open' s (Collect.fail e >>= f) post := by
  intro b t run
  cases (Prod.mk.inj run).1

theorem bind {f : α → Collect β} {mid : α → State → Prop} {post : β → State → Prop}
    (hx : Advances w safe open' s x mid)
    (hf : ∀ a t, Advance w safe open' s t → mid a t → Advances w safe open' t (f a) post) :
    Advances w safe open' s (x >>= f) post := by
  intro b u run
  rw [exec_bind] at run
  rcases first : exec x s with ⟨e | a, t⟩ <;> rw [first] at run
  · cases (Prod.mk.inj run).1
  · obtain ⟨advance, mid⟩ := hx a t first
    obtain ⟨advance', post⟩ := hf a t advance mid b u run
    exact ⟨advance.trans advance', post⟩

/-- Three programs that do one thing together, and what follows them. -/
theorem bind₃ {γ δ : Type} {y : Collect β} {z : Collect γ} {f : γ → Collect δ}
    {mid : γ → State → Prop} {post : δ → State → Prop}
    (h : Advances w safe open' s (x >>= fun _ => y >>= fun _ => z) mid)
    (hf : ∀ a t, Advance w safe open' s t → mid a t → Advances w safe open' t (f a) post) :
    Advances w safe open' s (x >>= fun _ => y >>= fun _ => z >>= f) post := by
  simpa only [bind_assoc] using bind h hf

theorem mono {post' : α → State → Prop} (h : Advances w safe open' s x post)
    (weaker : ∀ a t, Advance w safe open' s t → post a t → post' a t) :
    Advances w safe open' s x post' := by
  intro a t run
  obtain ⟨advance, post⟩ := h a t run
  exact ⟨advance, weaker a t advance post⟩

/-- A program that leaves nothing out may be said to leave something out. -/
theorem anywhere (h : Advances w safe [] s x post) : Advances w safe open' s x post := by
  intro a t run
  obtain ⟨advance, post⟩ := h a t run
  exact ⟨advance.widen (List.nil_subset _), post⟩

/-- That nothing is left out may be kept while something is said to be. -/
theorem along (h : Advances w safe [] s x post) :
    Advances w safe open' s x fun a t => Advance w safe [] s t ∧ post a t :=
  .anywhere fun a t run => ⟨(h a t run).1, h a t run⟩

/-- What is known of a program may be said along with how it ran. -/
theorem ran (h : Advances w safe open' s x post) :
    Advances w safe open' s x fun a t => exec x s = (.ok a, t) ∧ post a t := by
  intro a t run
  obtain ⟨advance, post⟩ := h a t run
  exact ⟨advance, run, post⟩

/-- It is enough to be tidy from a state that is anchored. -/
theorem assume (h : Advances w (safe ∧ Anchored s) open' s x post) :
    Advances w safe open' s x post := by
  intro a t run
  obtain ⟨advance, post⟩ := h a t run
  exact ⟨⟨advance.grows, advance.events, advance.stays,
    fun safe anchored => advance.tidy ⟨safe, anchored⟩ anchored⟩, post⟩

/-- A key that was free need not be left out once what is complete there is filled. -/
theorem close (h : Advances w safe [key] s x fun _ t =>
      safe → ∀ r, t.graph.complete? key = some r → w.Filled key r)
    (new : s.graph.complete? key = none)
    (itself : safe → s.folded.lookup key = none) :
    Advances w safe open' s x fun _ _ => True := by
  intro a t run
  obtain ⟨advance, filled⟩ := h a t run
  exact ⟨advance.close new (fun safe _ => itself safe) fun safe _ => filled safe, trivial⟩

theorem look {f : α → Collect β} {a : α} {post : β → State → Prop} (h : exec x s = (.ok a, s))
    (hf : Advances w safe open' s (f a) post) : Advances w safe open' s (x >>= f) post := by
  intro b t run
  rw [exec_bind, h] at run
  exact hf b t run

/-- A program that makes one step. -/
theorem step {a : α} (h : exec x s = (.ok a, t)) (advance : Advance w safe open' s t)
    (hpost : post a t) : Advances w safe open' s x post := by
  intro b u run
  obtain ⟨same, rfl⟩ := Prod.mk.inj (h.symm.trans run)
  obtain rfl := Except.ok.inj same
  exact ⟨advance, hpost⟩

theorem tell (e : Event) :
    Advances w safe open' s (Collect.tell e) fun _ t => t = { s with events := s.events ++ [e] } :=
  .anywhere (step rfl (.of_graph rfl rfl rfl (List.prefix_append _ _)) rfl)

theorem see (key : String) : Advances w safe open' s
    (modify fun s => { s with seenTypedefs := s.seenTypedefs ++ [key] } : Collect Unit)
    fun _ _ => True :=
  .anywhere (step rfl (.of_graph rfl rfl rfl List.prefix_rfl) trivial)

/-- A declaration is entered, unless its key was taken. -/
theorem add {d : Decl} (ready : d.isRecord = false ∨
      d.key ∈ open' ∧ (safe → Anchored s → s.folded.lookup d.key = none)) :
    Advances w safe open' s (Collect.add d) fun _ t =>
      (d.key ∉ s.graph.keys ∧ t.graph.get? d.key = some d) ∨ (d.key ∈ s.graph.keys ∧ t = s) := by
  cases frozen : s.graph.frozen with
  | true =>
    intro a t run
    rw [Turns.exec_add_frozen frozen] at run
    cases (Prod.mk.inj run).1
  | false =>
    by_cases known : d.key ∈ s.graph.keys
    · exact step (Turns.exec_add_taken frozen known) (.refl s) (.inr ⟨known, rfl⟩)
    · refine step (Turns.exec_add_fresh frozen known) ?_ (.inl ⟨known, by simp [DeclGraph.get?_push]⟩)
      rcases ready with plain | ⟨mem, itself⟩
      · exact (Advance.pushPlain known plain).widen (List.nil_subset _)
      · exact (Advance.push known itself).widen (by simpa using mem)

/-- A record that was entered is described anew. -/
theorem setRecord {r r' : Record} (there : s.graph.record? key = some r)
    (union : r.isUnion = r'.isUnion) (complete : r.complete = true → r'.complete = true) :
    Advances w safe [key] s (Collect.setBody key (.record r')) fun _ t =>
      t.graph.record? key = some r' :=
  step rfl (.setRecord there union complete) (DeclGraph.record?_setBody_self r' there rfl)

/-- A typedef that was entered is described. -/
theorem setTypedef {d : Decl} {target target' : CType} (found : s.graph.get? key = some d)
    (body : d.body = .typedef target) :
    Advances w safe open' s (Collect.setBody key (.typedef target')) fun _ _ => True :=
  .anywhere (step rfl (.setTypedef found body) trivial)

theorem fold {target : String} (known : safe → Anchored s → s.graph.settled target = true)
    (absent : s.graph.get? key = none)
    (itself : safe → Anchored s → s.folded.lookup key = none) :
    Advances w safe open' s (Collect.fold key target) fun _ t =>
      t = { s with folded := (key, target) :: s.folded } :=
  .anywhere (step rfl (.fold known absent itself) rfl)

theorem unfold : Advances w safe [key] s (Collect.unfold key) fun _ t =>
    t = { s with folded := s.folded.filter (·.1 != key) } :=
  step rfl .unfold rfl

theorem noteDefined {decl : CursorId}
    (settled : safe → Anchored s → s.graph.settled key = true) :
    Advances w safe open' s (w.noteDefined decl key) fun _ t => t.graph = s.graph := by
  unfold Collector.noteDefined
  simp only []
  split
  · exact pure rfl
  · refine look rfl ?_
    split
    · exact .anywhere (step rfl (.noteDefined settled) rfl)
    · exact pure rfl

theorem anonymousName (decl : CursorId) (tag : Tag) (site : Site) :
    Advances w safe open' s (w.anonymousName decl tag site) fun _ t =>
      t.graph = s.graph ∧ t.folded = s.folded := by
  obtain ⟨name, drawn, numbered, run, _⟩ :=
    Turns.exec_anonymousName (w := w) decl tag site s
  exact .anywhere (step run (.of_graph rfl rfl rfl List.prefix_rfl) ⟨rfl, rfl⟩)

theorem retainFor (key : String) (decl : CursorId) :
    Advances w safe open' s (w.retainFor key decl) fun _ _ => True := by
  unfold Collector.retainFor
  refine look rfl ?_
  split
  · exact pure trivial
  · split
    · exact pure trivial
    · exact .anywhere (step rfl (.mark [key]) trivial)

/-- Marking what stands at the top. -/
theorem retain {key : String} {decl : CursorId} {top : Bool} :
    Advances w safe open' s (do
      if top then w.retainFor key decl
      return key) fun _ _ => True := by
  split
  · exact .bind (.retainFor key decl) fun _ _ _ _ => .pure trivial
  · exact .pure trivial

theorem definedBefore (decl : CursorId) (key : String) :
    Advances w safe open' s (w.definedBefore decl key) fun found t =>
      t = s ∧ ∀ d, found = some d → s.graph.get? d.key = some d ∧
        ∃ place, s.definedAt.lookup place = some d.key := by
  intro found t run
  have walks : Walks w (fun _ => false) False [] s (w.definedBefore decl key) _ :=
    .definedBefore decl key
  obtain ⟨same, known⟩ := (walks.done (by rw [run])).2
  rw [run] at same
  obtain rfl : t = s := same
  exact ⟨.refl _, rfl, fun d eq => ⟨(known d eq).2.1, _, (known d eq).2.2⟩⟩

end Advances

end Collector

end HeaderBind
