import HeaderBind.Proofs.Walk.Records
/-!
# Walking a unit

The walk that collects a unit, and the same walk broken off at the first state of some kind: where
it breaks off are the points of the walk. Every point is sound.
-/
namespace HeaderBind

namespace Collector

open Collect (State exec exec_bind)

variable (w : Collector)

/-- Goes no further in a state to stop in. -/
def halt (stop : State → Bool) (place : String) : Collect Unit := do
  if stop (← get) then Collect.fail (.endless place)

/-- Reading of types and tags that goes no deeper than the bound, and is broken off before or after
one of them once the state is one to stop in. -/
def visitUntil (stop : State → Bool) : Nat → Visit
  | 0 => w.visit 0
  | bound + 1 => {
      type := fun type site => do
        halt stop site.place
        let a ← w.typeRef (visitUntil stop bound) type site
        halt stop site.place
        return a
      tag := fun c site top => do
        halt stop site.place
        let key ← w.tagDecl (visitUntil stop bound) c site top
        halt stop site.place
        return key }

/-- The walk over the top cursors, with types and tags read by `visit`. -/
def walk (visit : Visit) (tops : List CursorId) : Collect Unit := do
  w.noteNames tops
  tops.forM (w.topDecl visit)

/-- Whether a state is a point of the walk over a unit: the last of that walk when it is broken off,
if at all, at states of some kind. -/
def Point (tops : List CursorId) (s : State) : Prop :=
  ∃ stop, (exec (w.walk (w.visitUntil stop w.depthBound) tops) .start).2 = s

variable {w} {stop : State → Bool} {safe : Prop} {rank : TypeId → Nat}
variable {s t : State} {bound : Nat}

theorem visitUntil_false (bound : Nat) : w.visitUntil (fun _ => false) bound = w.visit bound := by
  have nothing (place : String) : halt (fun _ => false) place = pure () := rfl
  induction bound with
  | zero => rfl
  | succ bound ih => simp only [visitUntil, visit, ih, nothing, pure_bind, bind_pure]

theorem Walks.halt {open' : List String} (place : String) (free : safe → ∀ s, stop s = false) :
    Walks w stop safe open' s (halt stop place) fun _ t => t = s ∧ stop s = false := by
  unfold Collector.halt
  refine .look rfl ?_
  split
  · rename_i stopped
    exact .fail ⟨by simp, fun safe => by simp [free safe s] at stopped⟩
  · rename_i passed
    exact .pure ⟨rfl, by simpa using passed⟩

/-- Reading types and tags by the walk is as it should be. -/
theorem reads_visitUntil (ranked : safe → w.table.Ranked rank) (free : safe → ∀ s, stop s = false)
    (bound : Nat) : Reads w stop safe rank bound (w.visitUntil stop bound) := by
  induction bound with
  | zero =>
    have none {n : Nat} (room : safe → n < 0) {place : String} :
        Harmless safe (.endless place) :=
      ⟨by simp, fun safe => absurd (room safe) (Nat.not_lt_zero n)⟩
    exact ⟨fun _ room => .fail (none room), fun _ room => .fail (none room)⟩
  | succ bound ih =>
    constructor
    · intro type site s sound room
      refine .bind sound (.halt _ free) fun _ s' _ sound => ?_
      rintro ⟨rfl, _⟩
      refine .bind sound (ih.typeRef ranked sound room) fun a t _ sound known => ?_
      refine .bind sound (.halt _ free) fun _ t' _ sound => ?_
      rintro ⟨rfl, _⟩
      exact .pure known
    · intro c site top s sound room
      refine .bind sound (.halt _ free) fun _ s' _ sound => ?_
      rintro ⟨rfl, _⟩
      refine .bind sound (ih.tagDecl ranked sound room) fun key t _ sound => ?_
      rintro ⟨isType, stands⟩
      refine .bind sound (.halt _ free) fun _ t' _ sound => ?_
      rintro ⟨rfl, passed⟩
      exact .pure ⟨isType, stands, passed⟩

/-! ## Top cursors -/

/-- What is known of running a part of the walk at the top. -/
structure Proceeds (w : Collector) (stop : State → Bool) (safe : Prop) (s : State)
    (x : Collect Unit) : Prop where
  path : Path w stop s (exec x s).2
  read : (exec x s).1 = .ok () → ∀ key, (exec x s).2.graph.isComplete key = true →
    s.graph.isComplete key = true ∨ w.Read (exec x s).2 key
  fails : ∀ {e}, (exec x s).1 = .error e → Harmless safe e

namespace Proceeds

theorem of_walks {open' : List String} {x : Collect Unit} {post : Unit → State → Prop}
    (h : Walks w stop safe open' s x post)
    (read : ∀ t, post () t → ∀ key ∈ open', t.graph.isComplete key = true →
      s.graph.isComplete key = true ∨ w.Read t key) : Proceeds w stop safe s x where
  path := h.onward.path
  read ok key complete := by
    obtain ⟨finished, post⟩ := h.done ok
    by_cases mem : key ∈ open'
    · exact read _ post key mem complete
    · exact finished.read mem complete
  fails := h.fails

theorem of_closed {x : Collect Unit} {post : Unit → State → Prop}
    (h : Walks w stop safe [] s x post) : Proceeds w stop safe s x :=
  of_walks h fun _ _ _ mem => absurd mem List.not_mem_nil

theorem nothing : Proceeds w stop safe s (Pure.pure ()) :=
  have h : Walks w stop safe [] s (Pure.pure () : Collect Unit) fun _ _ => True := .pure trivial
  of_closed h

/-- A program is run for what it does only. -/
theorem ignoring {α : Type} {x : Collect α} {post : α → State → Prop} (sound : Sound w s)
    (h : Walks w stop safe [] s x post) : Proceeds w stop safe s (do let _ ← x) := by
  have h' : Walks w stop safe [] s (do let _ ← x) fun _ _ => True :=
    .bind sound h fun _ _ _ _ _ => .pure trivial
  exact of_closed h'

theorem bind {x y : Collect Unit} (hx : Proceeds w stop safe s x)
    (hy : ∀ t, Path w stop s t → Proceeds w stop safe t y) :
    Proceeds w stop safe s (x >>= fun _ => y) := by
  have eq := exec_bind x (fun _ => y) s
  obtain ⟨path, read, fails⟩ := hx
  rcases hxs : exec x s with ⟨e | a, t⟩
  · rw [hxs] at path fails eq
    have eq : exec (x >>= fun _ => y) s = (.error e, t) := eq
    constructor <;> rw [eq]
    · exact path
    · intro ok
      cases ok
    · exact fails
  · rw [hxs] at path read eq
    have eq : exec (x >>= fun _ => y) s = exec y t := eq
    obtain ⟨path', read', fails'⟩ := hy t path
    constructor <;> rw [eq]
    · exact path.trans path'
    · intro ok key complete
      rcases read' ok key complete with before | after
      · exact (read rfl key before).imp id (·.onward path')
      · exact .inr after
    · exact fails'

theorem forM {f : CursorId → Collect Unit} (tops : List CursorId) (sound : Sound w s)
    (h : ∀ c s, Sound w s → Proceeds w stop safe s (f c)) : Proceeds w stop safe s (tops.forM f) := by
  induction tops generalizing s with
  | nil => exact nothing
  | cons c tops ih =>
    change Proceeds w stop safe s (f c >>= fun _ => tops.forM f)
    exact bind (h c s sound) fun t path => ih (path.sound sound)

end Proceeds

/-- A function or object is entered under its key, which is none of a record that is complete. -/
theorem Walks.declare {d : Decl} {site : Site} (known : Known s d.mentions)
    (other : d.isRecord = false) :
    Walks w stop safe [d.key] s (declare d site) fun _ t =>
      t.graph.isComplete d.key = true → s.graph.isComplete d.key = true ∨ w.Read t d.key := by
  have mark : Walks w stop safe [d.key] s (Collect.markRetained d.key) fun _ t =>
      t.graph.isComplete d.key = true → s.graph.isComplete d.key = true ∨ w.Read t d.key :=
    ((Walks.markRetained d.key).finished.widen (List.nil_subset _)).mono fun _ t _ h =>
      h.1.read List.not_mem_nil
  unfold Collector.declare
  refine .look rfl ?_
  split
  · rename_i absent
    refine (Walks.add known (.inl (List.mem_singleton_self _))).mono fun _ t _ entered complete => ?_
    obtain ⟨_, found⟩ := entered.resolve_right fun h =>
      absurd h.1 (DeclGraph.get?_eq_none_iff.mp absent)
    simp [DeclGraph.isComplete, found, other] at complete
  · simp only []
    split
    · exact .fail_bind ⟨by simp, by simp⟩
    · split
      · exact mark
      · exact .pure .inl

/-- Types are read, then what they belong to is declared. -/
theorem Proceeds.declare {α : Type} {read : Collect α} {keys : α → List String} {f : α → Decl}
    {key : String} {site : Site} (sound : Sound w s)
    (hread : Walks w stop safe [] s read fun a t => Known t (keys a))
    (hf : ∀ a, (f a).key = key ∧ (f a).isRecord = false ∧ (f a).mentions ⊆ keys a) :
    Proceeds w stop safe s (read >>= fun a => Collector.declare (f a) site) := by
  have walks : Walks w stop safe [key] s (read >>= fun a => Collector.declare (f a) site)
      fun _ t => t.graph.isComplete key = true → s.graph.isComplete key = true ∨ w.Read t key := by
    refine .bind sound (hread.finished.widen (List.nil_subset _)) fun a t _ sound => ?_
    rintro ⟨finished, known⟩
    obtain ⟨rfl, other, within⟩ := hf a
    refine (Walks.declare (fun key mem => known key (within mem)) other).mono
      fun _ u onward declared complete => ?_
    rcases declared complete with before | read
    · exact (finished.read List.not_mem_nil before).imp id (·.onward onward.path)
    · exact .inr read
  refine .of_walks walks fun t read k mem => ?_
  obtain rfl := List.mem_singleton.mp mem
  exact read

section

variable {visit : Visit} (reads : Reads w stop safe rank w.depthBound visit)
  (ranked : safe → w.table.Ranked rank)
include reads ranked

theorem Proceeds.functionDecl (c : CursorId) (sound : Sound w s) :
    Proceeds w stop safe s (w.functionDecl visit c) := by
  have room (safe : safe) (a : TypeId) : w.TypeRoom rank w.depthBound s a :=
    bodyRoom_depthBound.type (ranked safe) a
  unfold Collector.functionDecl
  simp only []
  split
  · exact .of_closed (.tell _)
  · refine .declare sound (reads.signature ranked sound rfl (fun safe => room safe _)
      (fun safe p _ => room safe p) fun safe c _ => room safe _) fun sig => ⟨rfl, rfl, ?_⟩
    intro key mem
    obtain ⟨type, ht, hk⟩ := List.mem_flatMap.mp mem
    exact Signature.keys_of_mem_types ht hk

theorem Proceeds.objectDecl (c : CursorId) (sound : Sound w s) :
    Proceeds w stop safe s (w.objectDecl visit c) := by
  unfold Collector.objectDecl
  simp only []
  split
  · exact .of_closed (.tell _)
  · refine .declare sound (reads.type sound fun safe => bodyRoom_depthBound.type (ranked safe) _)
      fun type => ⟨rfl, rfl, ?_⟩
    simp [Decl.mentions, Decl.types]

theorem Proceeds.topDecl (c : CursorId) (sound : Sound w s) :
    Proceeds w stop safe s (w.topDecl visit c) := by
  have tag : Proceeds w stop safe s (do let _ ← visit.tag c (w.siteOf c false) true) :=
    .ignoring sound (reads.tag sound fun _ => bodyRoom_depthBound.tag)
  unfold Collector.topDecl
  simp only []
  split
  · exact .of_closed (.tell _)
  · split
    · exact tag
    · exact tag
    · exact tag
    · rename_i kind
      refine .ignoring sound (reads.typedefDecl ranked sound kind (fun _ => ?_)
        fun _ _ => bodyRoom_depthBound)
      exact Nat.lt_succ_of_lt bodyRoom_depthBound.tag
    · exact .functionDecl reads ranked c sound
    · exact .objectDecl reads ranked c sound
    · exact .of_closed (.tell _)

end

/-- The walk over a unit. -/
theorem proceeds_walk (tops : List CursorId) (sound : Sound w s)
    (ranked : safe → w.table.Ranked rank) (free : safe → ∀ s, stop s = false) :
    Proceeds w stop safe s (w.walk (w.visitUntil stop w.depthBound) tops) := by
  have reads := reads_visitUntil ranked free w.depthBound
  refine .bind (.of_closed (.modifyAside ⟨rfl, rfl, rfl, rfl⟩)) fun t path => ?_
  exact .forM tops (path.sound sound) fun c s sound => .topDecl reads ranked c sound

/-- What is known of the walk over a unit that may go too deep. -/
theorem proceeds_anyway (tops : List CursorId) (sound : Sound w s) :
    Proceeds w stop False s (w.walk (w.visitUntil stop w.depthBound) tops) :=
  have ranked : False → w.table.Ranked fun _ => 0 := nofun
  proceeds_walk tops sound ranked nofun

theorem proceeds_visit (tops : List CursorId) (sound : Sound w s) :
    Proceeds w (fun _ => false) False s (w.walk (w.visit w.depthBound) tops) :=
  w.visitUntil_false _ ▸ proceeds_anyway tops sound

theorem sound_of_point {tops : List CursorId} (point : w.Point tops s) : Sound w s := by
  obtain ⟨stop, rfl⟩ := point
  exact (proceeds_anyway tops sound_start).path.sound sound_start

theorem exec_tryCatch {α : Type} (x : Collect α) (h : ResolutionError → Collect α) (s : State) :
    exec (tryCatch x h) s =
      match exec x s with
      | (.ok a, t) => (.ok a, t)
      | (.error e, t) => exec (h e) t := by
  have eq : exec (tryCatch x h) s = exec (ExceptT.tryCatch x h) s := rfl
  rw [eq, ExceptT.tryCatch]
  simp only [exec, ExceptT.run_mk, StateT.run_bind]
  rcases hx : (ExceptT.run x).run s with ⟨a | a, t⟩ <;> change StateT.run x s = _ at hx <;> rw [hx] <;>
    rfl

/-- How collecting ends, by how the walk over the unit does: a failure is told, and a graph is
closed. -/
theorem exec_collectWithin (bound : Nat) (tops : List CursorId) (s : State) :
    exec (w.collectWithin bound tops) s =
      match exec (w.walk (w.visit bound) tops) s with
      | (.ok _, t) =>
        match t.graph.freeze with
        | .ok g => (.ok g, { t with
            graph := g
            events := t.events ++ [.trace .info Reporter.collector
              ("Resolved " ++ toString g.size ++ " declarations")] })
        | .error e => (.error e, { t with events := t.events ++ [.error e.message] })
      | (.error e, t) => (.error e, { t with events := t.events ++ [.error e.message] }) := by
  have noted : exec (w.walk (w.visit bound) tops) s =
      exec (tops.forM (w.topDecl (w.visit bound))) (exec (w.noteNames tops) s).2 := rfl
  have frozen (t : State) : exec freeze t = match t.graph.freeze with
      | .ok g => (.ok (), { t with graph := g })
      | .error e => (.error e, t) := by
    have eq : exec freeze t = exec (match t.graph.freeze with
      | .ok g => modify fun s => { s with graph := g }
      | .error e => Collect.fail e) t := rfl
    rw [eq]
    cases t.graph.freeze <;> rfl
  have collected : exec (w.collectWithin bound tops) s =
      exec (tryCatch (do tops.forM (w.topDecl (w.visit bound)); freeze)
        (fun e => do Collect.tell (.error e.message); throw e) >>= fun _ => do
          let g := (← get).graph
          Collect.trace .info ("Resolved " ++ toString g.size ++ " declarations")
          return g) (exec (w.noteNames tops) s).2 := rfl
  rw [collected, noted, exec_bind, exec_tryCatch, exec_bind]
  rcases exec (tops.forM (w.topDecl (w.visit bound))) (exec (w.noteNames tops) s).2 with ⟨e | a, t⟩
  · rfl
  · simp only [frozen]
    cases t.graph.freeze <;> rfl

/-- A graph that is collected is that of the whole walk, closed; nothing else changes after the walk
but what is told. -/
theorem state_of_collected {bound : Nat} {tops : List CursorId} {s t : State} {g : DeclGraph}
    (collected : exec (w.collectWithin bound tops) s = (.ok g, t)) :
    ∃ last, exec (w.walk (w.visit bound) tops) s = (.ok (), last) ∧ last.graph.freeze = .ok g ∧
      t = { last with graph := g, events := t.events } := by
  rw [exec_collectWithin] at collected
  rcases run : exec (w.walk (w.visit bound) tops) s with ⟨e | _, last⟩ <;> rw [run] at collected
  · cases (Prod.mk.inj collected).1
  · refine ⟨last, rfl, ?_⟩
    rcases frozen : last.graph.freeze with e | g' <;> simp only [frozen] at collected
    · cases (Prod.mk.inj collected).1
    · obtain ⟨same, rfl⟩ := Prod.mk.inj collected
      obtain rfl := Except.ok.inj same
      exact ⟨rfl, rfl⟩

/-- A graph that is collected is that of the whole walk, closed. -/
theorem walk_of_collected {bound : Nat} {tops : List CursorId} {s t : State} {g : DeclGraph}
    (collected : exec (w.collectWithin bound tops) s = (.ok g, t)) :
    ∃ last, exec (w.walk (w.visit bound) tops) s = (.ok (), last) ∧ last.graph.freeze = .ok g ∧
      t.definedAt = last.definedAt := by
  obtain ⟨last, run, frozen, same⟩ := state_of_collected collected
  exact ⟨last, run, frozen, by rw [same]⟩

/-- Where collecting fails, the walk failed or its graph could not be closed. -/
theorem walk_of_failed {bound : Nat} {tops : List CursorId} {s : State} {e : ResolutionError}
    (failed : (exec (w.collectWithin bound tops) s).1 = .error e) :
    (exec (w.walk (w.visit bound) tops) s).1 = .error e ∨
      (exec (w.walk (w.visit bound) tops) s).2.graph.freeze = .error e := by
  rw [exec_collectWithin] at failed
  rcases run : exec (w.walk (w.visit bound) tops) s with ⟨e' | _, last⟩ <;> rw [run] at failed
  · obtain rfl : e' = e := Except.error.inj failed
    exact .inl rfl
  · rcases frozen : last.graph.freeze with e' | g <;> simp only [frozen] at failed
    · exact .inr (frozen ▸ failed)
    · cases failed

end Collector

end HeaderBind
