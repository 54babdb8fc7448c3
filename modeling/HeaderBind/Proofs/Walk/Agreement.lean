import HeaderBind.Proofs.Walk.Tops
/-!
# Cutting a walk short

A walk that is cut short, be it by a smaller bound or at a state to stop in, does what the whole walk
does until then: its run either is cut off, and fails at that, or is a run of the whole walk.
-/
namespace HeaderBind

namespace Collect

variable {α β : Type} {cut : State → Prop}

/-- Whether the first of two programs does what the second does, unless it is cut off in a state of
some kind. -/
def Agrees (cut : State → Prop) (x y : Collect α) : Prop :=
  ∀ s, exec x s = exec y s ∨ (∃ place, (exec x s).1 = .error (.endless place)) ∧ cut (exec x s).2

namespace Agrees

theorem refl (x : Collect α) : Agrees cut x x := fun _ => .inl rfl

theorem bind {x x' : Collect α} {f f' : α → Collect β} (hx : Agrees cut x x')
    (hf : ∀ a, Agrees cut (f a) (f' a)) : Agrees cut (x >>= f) (x' >>= f') := by
  intro s
  rw [exec_bind, exec_bind]
  rcases hx s with same | ⟨⟨place, failed⟩, off⟩
  · rw [same]
    rcases exec x' s with ⟨e | a, t⟩
    · exact .inl rfl
    · exact hf a t
  · rcases run : exec x s with ⟨e | a, t⟩
    · rw [run] at failed off
      obtain rfl : e = .endless place := Except.error.inj failed
      exact .inr ⟨⟨place, rfl⟩, off⟩
    · rw [run] at failed
      cases failed

theorem foldlM {f f' : β → α → Collect β} (hf : ∀ b a, Agrees cut (f b a) (f' b a)) (as : List α)
    (b : β) : Agrees cut (as.foldlM f b) (as.foldlM f' b) := by
  induction as generalizing b with
  | nil => exact .refl _
  | cons a as ih =>
    rw [List.foldlM_cons, List.foldlM_cons]
    exact .bind (hf b a) ih

theorem forM {f f' : α → Collect Unit} (hf : ∀ a, Agrees cut (f a) (f' a)) (as : List α) :
    Agrees cut (as.forM f) (as.forM f') := by
  induction as with
  | nil => exact .refl _
  | cons a as ih => exact .bind (hf a) fun _ => ih

end Agrees

end Collect

namespace Collector

open Collect (State Agrees exec exec_bind)

variable {w : Collector} {cut : State → Prop}

/-- Whether the first of two ways of reading does what the second does, unless it is cut off. -/
structure VisitAgrees (cut : State → Prop) (visit visit' : Visit) : Prop where
  type : ∀ type site, Agrees cut (visit.type type site) (visit'.type type site)
  tag : ∀ c site top, Agrees cut (visit.tag c site top) (visit'.tag c site top)

namespace VisitAgrees

variable {visit visit' : Visit} (h : VisitAgrees cut visit visit')
include h

theorem typedefTarget (cursor : Cursor) (site : Site) :
    Agrees cut (Collector.typedefTarget visit cursor site)
      (Collector.typedefTarget visit' cursor site) := by
  unfold Collector.typedefTarget
  split
  · exact .refl _
  · exact h.type _ _

theorem typedefDecl (c : CursorId) (top : Bool) :
    Agrees cut (w.typedefDecl visit c top) (w.typedefDecl visit' c top) := by
  unfold Collector.typedefDecl
  simp only []
  refine .bind (.refl _) fun found => ?_
  split
  · split
    · split
      · exact .refl _
      · refine .bind (.refl _) fun s => ?_
        split
        · exact .bind (h.typedefTarget _ _) fun _ => .refl _
        · exact .refl _
    · exact .refl _
  · refine .bind (.refl _) fun _ => ?_
    split
    · exact .bind (.refl _) fun _ => .bind (h.typedefTarget _ _) fun _ => .refl _
    · exact .bind (h.typedefTarget _ _) fun _ => .refl _

theorem paramType (type : TypeId) (site : Site) :
    Agrees cut (w.paramType visit type site) (w.paramType visit' type site) := by
  unfold Collector.paramType
  refine .bind (h.type _ _) fun a => ?_
  split
  · exact .refl _
  · exact .refl _
  · split
    · exact .bind (h.type _ _) fun _ => .refl _
    · exact .refl _
  · exact .refl _

theorem paramList (site : Site) (params : List (String × TypeId)) (i : Nat) :
    Agrees cut (w.paramList visit site i params) (w.paramList visit' site i params) := by
  induction params generalizing i with
  | nil => exact .refl _
  | cons p params ih =>
    exact .bind (h.paramType _ _) fun _ => .bind (ih _) fun _ => .refl _

theorem signature (type : TypeId) (site : Site) (arguments : Option (List CursorId)) :
    Agrees cut (w.signature visit type site arguments) (w.signature visit' type site arguments) := by
  unfold Collector.signature
  simp only []
  generalize (if (w.table.type type).kind.isFunction = true then type
    else w.table.canonicalOf type) = type
  refine .bind (h.type _ _) fun _ => ?_
  split
  · exact .refl _
  · exact .bind (h.paramList _ _ _) fun _ => .refl _

theorem typeRef (type : TypeId) (site : Site) :
    Agrees cut (w.typeRef visit type site) (w.typeRef visit' type site) := by
  unfold Collector.typeRef
  simp only []
  split
  · exact h.type _ _
  · exact .refl _
  · split
    · exact .bind (h.typedefDecl _ _) fun _ => .refl _
    · exact h.type _ _
  · split
    · exact .bind (h.tag _ _ _) fun _ => .refl _
    · exact .refl _
  · split
    · exact .bind (h.tag _ _ _) fun _ => .refl _
    · exact .refl _
  · exact .bind (h.type _ _) fun _ => .refl _
  · exact .bind (h.type _ _) fun _ => .refl _
  · exact .bind (h.type _ _) fun _ => .refl _
  · exact .bind (h.type _ _) fun _ => .refl _
  · exact .bind (h.signature _ _ _) fun _ => .refl _
  · exact .bind (h.signature _ _ _) fun _ => .refl _
  · split
    · exact .refl _
    · exact .refl _
    · split
      · exact h.type _ _
      · exact .refl _

theorem unnamedTag (owner : Owner) (site : Site) (tags : List (String × String)) (m : Members)
    (c : CursorId) :
    Agrees cut (w.unnamedTag visit owner site tags m c) (w.unnamedTag visit' owner site tags m c) := by
  unfold Collector.unnamedTag
  split
  · exact .bind (h.tag _ _ _) fun _ => .refl _
  · exact .bind (h.tag _ _ _) fun _ => .refl _

theorem fieldDecl (owner : Owner) (site : Site) (m : Members) (c : CursorId) :
    Agrees cut (w.fieldDecl visit owner site m c) (w.fieldDecl visit' owner site m c) := by
  unfold Collector.fieldDecl
  simp only []
  split
  · exact .refl _
  · split
    · exact .refl _
    · exact .bind (h.type _ _) fun _ => .refl _

theorem member (owner : Owner) (site : Site) (tags : List (String × String)) (m : Members)
    (c : CursorId) :
    Agrees cut (w.member visit owner site tags m c) (w.member visit' owner site tags m c) := by
  unfold Collector.member
  simp only []
  split
  · split
    · exact h.unnamedTag _ _ _ _ _
    · exact .bind (h.tag _ _ _) fun _ => .refl _
  · split
    · exact h.fieldDecl _ _ _ _
    · exact .refl _

theorem members (owner : Owner) (retain builtin : Bool) (decl : CursorId) :
    Agrees cut (w.members visit owner retain builtin decl)
      (w.members visit' owner retain builtin decl) :=
  .foldlM (fun _ _ => h.member _ _ _ _ _) _ _

theorem fillRecord (owner : Owner) (retain builtin : Bool) (decl : CursorId) :
    Agrees cut (w.fillRecord visit owner retain builtin decl)
      (w.fillRecord visit' owner retain builtin decl) :=
  .bind (h.members _ _ _ _) fun _ => .refl _

theorem repeats (first : Decl) (decl : CursorId) (key : String) :
    Agrees cut (w.repeats visit first decl key) (w.repeats visit' first decl key) :=
  .bind (.refl _) fun _ => .bind (h.members _ _ _ _) fun _ => .refl _

theorem newRecord (decl : CursorId) (key : String) (site : Site) (top : Bool) :
    Agrees cut (w.newRecord visit decl key site top) (w.newRecord visit' decl key site top) := by
  have enter (d : Decl) (owner : Owner) (retain builtin : Bool) : Agrees cut
      (do
        Collect.add d
        if (w.table.cursor decl).defines then
          w.noteDefined decl key
          w.fillRecord visit owner retain builtin decl)
      (do
        Collect.add d
        if (w.table.cursor decl).defines then
          w.noteDefined decl key
          w.fillRecord visit' owner retain builtin decl) := by
    refine .bind (.refl _) fun _ => ?_
    split
    · exact .bind (.refl _) fun _ => h.fillRecord _ _ _ _
    · exact .refl _
  unfold Collector.newRecord
  simp only []
  split
  · exact .bind (.refl _) fun _ => enter _ _ _ _
  · exact enter _ _ _ _

theorem recordDecl (c : CursorId) (site : Site) (top : Bool) :
    Agrees cut (w.recordDecl visit c site top) (w.recordDecl visit' c site top) := by
  unfold Collector.recordDecl
  simp only []
  refine .bind (.refl _) fun key => .bind (.refl _) fun found => ?_
  split
  · split
    · split
      · exact .bind (.refl _) fun _ => .bind (.refl _) fun _ =>
          .bind (h.fillRecord _ _ _ _) fun _ => .refl _
      · exact .refl _
    · exact .refl _
  · have enter : Agrees cut
        (do
          w.newRecord visit (w.table.definitionOf c) key site top
          return key)
        (do
          w.newRecord visit' (w.table.definitionOf c) key site top
          return key) :=
      .bind (h.newRecord _ _ _ _) fun _ => .refl _
    refine .bind (.refl _) fun before => ?_
    split
    · split
      · refine .bind (h.repeats _ _ _) fun again => ?_
        split
        · exact .refl _
        · exact enter
      · exact enter
    · exact enter

theorem tagDecl (c : CursorId) (site : Site) (top : Bool) :
    Agrees cut (w.tagDecl visit c site top) (w.tagDecl visit' c site top) := by
  unfold Collector.tagDecl
  split
  · exact .refl _
  · exact h.recordDecl _ _ _

theorem functionDecl (c : CursorId) :
    Agrees cut (w.functionDecl visit c) (w.functionDecl visit' c) := by
  unfold Collector.functionDecl
  simp only []
  split
  · exact .refl _
  · exact .bind (h.signature _ _ _) fun _ => .refl _

theorem objectDecl (c : CursorId) :
    Agrees cut (w.objectDecl visit c) (w.objectDecl visit' c) := by
  unfold Collector.objectDecl
  simp only []
  split
  · exact .refl _
  · exact .bind (h.type _ _) fun _ => .refl _

theorem topDecl (c : CursorId) : Agrees cut (w.topDecl visit c) (w.topDecl visit' c) := by
  have tag (site : Site) : Agrees cut (do let _ ← visit.tag c site true)
      (do let _ ← visit'.tag c site true) :=
    .bind (h.tag _ _ _) fun _ => .refl _
  unfold Collector.topDecl
  simp only []
  split
  · exact .refl _
  · split
    · exact tag _
    · exact tag _
    · exact tag _
    · exact .bind (h.typedefDecl _ _) fun _ => .refl _
    · exact h.functionDecl c
    · exact h.objectDecl c
    · exact .refl _

theorem walk (tops : List CursorId) : Agrees cut (w.walk visit tops) (w.walk visit' tops) :=
  .bind (.refl _) fun _ => .forM h.topDecl tops

end VisitAgrees

variable {stop : State → Bool}

/-- What is broken off before it or after it, if at all, is otherwise the same. -/
theorem agrees_halted {α : Type} {x y : Collect α} (place : String)
    (stops : ∀ s, stop s = true → cut s) (h : Agrees cut x y) :
    Agrees cut (do
      halt stop place
      let a ← x
      halt stop place
      return a) y := by
  have halting : Agrees cut (halt stop place) (pure ()) := by
    intro s
    by_cases stopped : stop s = true
    · refine .inr ?_
      have run : exec (halt stop place) s = (.error (.endless place), s) := by
        rw [halt, exec_bind]
        simp only [show exec get s = (.ok s, s) from rfl, if_pos stopped]
        rfl
      rw [run]
      exact ⟨⟨place, rfl⟩, stops s stopped⟩
    · refine .inl ?_
      rw [halt, exec_bind]
      simp only [show exec get s = (.ok s, s) from rfl, if_neg stopped]
  simpa using halting.bind fun _ => h.bind fun a => halting.bind fun _ => .refl (pure a)

/-- A walk that goes less deep, or is broken off, does what the whole walk does until then. -/
theorem visitAgrees {n m : Nat} (short : n ≤ m) (deep : n = m ∨ ∀ s, cut s)
    (stops : ∀ s, stop s = true → cut s) : VisitAgrees cut (w.visitUntil stop n) (w.visit m) := by
  induction n generalizing m with
  | zero =>
    rcases deep with rfl | deep
    · exact ⟨fun _ _ => .refl _, fun _ _ _ => .refl _⟩
    · exact ⟨fun _ _ s => .inr ⟨⟨_, rfl⟩, deep s⟩, fun _ _ _ s => .inr ⟨⟨_, rfl⟩, deep s⟩⟩
  | succ n ih =>
    obtain ⟨m, rfl⟩ : ∃ m', m = m' + 1 := ⟨m - 1, by omega⟩
    have below := ih (Nat.le_of_succ_le_succ short) (deep.imp Nat.succ.inj id)
    exact ⟨fun type site => agrees_halted _ stops (below.typeRef type site),
      fun c site top => agrees_halted _ stops (below.tagDecl c site top)⟩

end Collector

end HeaderBind
