import HeaderBind.Proofs.Walk.RecordsAgain
import HeaderBind.Proofs.Walk.Tops
/-!
# A unit walked once more

What a visit of a top cursor leaves behind, in a unit whose tag definitions stand apart: the
declaration of its key, of the shape that the cursor is read with from then on, and bound if that is
asked for. Whatever is in the last graph was read from cursors of its key.
-/
namespace HeaderBind

/-- Whether two typedefs are read alike: what they are written with, and what their names decide. -/
structure CursorTable.ReadAlike (t : CursorTable) (c d : CursorId) : Prop where
  underlying : (t.cursor c).underlying = (t.cursor d).underlying
  wide : (t.cursor c).name = "wchar_t" ↔ (t.cursor d).name = "wchar_t"
  builtin : builtinNames.contains (t.cursor c).name = builtinNames.contains (t.cursor d).name

theorem Decl.sameShape_body {a b : Decl} (same : a.body = b.body) (d : Decl) :
    a.sameShape d = b.sameShape d := by
  unfold Decl.sameShape
  rw [same]

/-- A function or an object has its own shape. -/
theorem Decl.sameShape_self {d : Decl} (other : d.body.isType = false) : d.sameShape d = true := by
  unfold Decl.sameShape
  cases body : d.body <;> simp_all [Body.isType, Signature.sameTypes]

/-- What has the shape of a function or an object is one. -/
theorem Decl.settled_of_sameShape {d e : Decl} (other : d.body.isType = false)
    (shape : e.sameShape d = true) : e.body.settled = true := by
  unfold Decl.sameShape at shape
  cases before : e.body <;> cases body : d.body <;>
    simp_all [Body.isType, Body.settled]

namespace Collector

open Collect (State exec exec_bind)

variable {w : Collector} {limit : Nat} {again : Visit} {s t u : State} {c : CursorId}
variable {α : Type}

theorem TargetIs.alike {target : CType} {d : CursorId} (h : TargetIs w again s c target)
    (alike : w.table.ReadAlike c d) : TargetIs w again s d target := by
  intro site inside
  have same : typedefTarget again (w.table.cursor d) site =
      typedefTarget again (w.table.cursor c) site := by
    unfold typedefTarget
    simp only [alike.underlying, alike.wide]
  rw [same]
  exact h site (alike.builtin ▸ inside)

/-! ## Functions and objects -/

theorem told_of_not_isType {key : String} {body : Decl.Body} (other : body.isType = false) :
    Told w again s key body := by
  cases body <;> simp_all [Decl.Body.isType, Told]

/-- Whether what is read is declared as it is read, and bound if it should be. -/
def Declared (s : State) (read : Collect α) (f : α → Decl) : Prop :=
  ∃ a e, Steady s read a ∧ s.graph.get? (f a).key = some e ∧ e.body.settled = true ∧
    e.sameShape (f a) = true ∧ ((f a).retained = true → e.retained = true)

theorem Declared.onward {read : Collect α} {f : α → Decl} (h : Declared s read f)
    (extends' : Extends w again [] s t) : Declared t read f := by
  obtain ⟨a, e, steady, found, settled, shape, bound⟩ := h
  obtain ⟨e', found', same⟩ := extends'.bodies List.not_mem_nil found settled
  obtain ⟨e'', found'', becomes⟩ := extends'.grows _ _ found
  obtain rfl := Option.some.inj (found'.symm.trans found'')
  exact ⟨a, e', steady.onward extends'.grows, found', same ▸ settled,
    (Decl.sameShape_body same _).trans shape, fun asked => becomes.retained (bound asked)⟩

/-- A function or object is entered, or has the shape of what is there. -/
theorem Leads.declare {d : Decl} {site : Site} (plain : w.Unfolded s)
    (other : d.body.isType = false) :
    Leads w again [] s (declare d site) fun _ t => ∃ e, t.graph.get? d.key = some e ∧
      e.body.settled = true ∧ e.sameShape d = true ∧ (d.retained = true → e.retained = true) := by
  unfold Collector.declare
  refine .look rfl ?_
  split
  · rename_i absent
    have entering : Leads w again [] s (Collect.add d) fun _ t => t.graph.get? d.key = some d := by
      refine .close (.add plain absent) (by simp [DeclGraph.settled, absent]) ?_
      intro _ t found _ e found'
      obtain rfl := Option.some.inj (found.symm.trans found')
      exact told_of_not_isType other
    have shape : d.sameShape d = true := Decl.sameShape_self other
    exact entering.mono fun _ t _ found =>
      ⟨d, found, Decl.settled_of_sameShape other shape, shape, id⟩
  · rename_i previous found
    simp only []
    split
    · exact .fail_bind
    · rename_i agrees
      have shape : previous.sameShape d = true := by simpa using agrees
      have settled := Decl.settled_of_sameShape other shape
      split
      · refine (Leads.markRetained plain found).mono fun _ t extends' marked => ?_
        obtain ⟨e, found', same⟩ := extends'.bodies List.not_mem_nil found settled
        obtain ⟨e', found'', retained⟩ := DeclGraph.marked_iff.mp marked
        obtain rfl := Option.some.inj (found'.symm.trans found'')
        exact ⟨e, found', same ▸ settled, (Decl.sameShape_body same d).trans shape, fun _ => retained⟩
      · rename_i unmarked
        refine .pure plain ⟨previous, found, settled, shape, fun asked => ?_⟩
        simpa [asked] using unmarked

/-- What is read and then declared is read so from then on. -/
theorem Leads.declareRead {read read' : Collect α} {f : α → Decl} {site : Site}
    (h : Again w again s read read') (other : ∀ a, (f a).body.isType = false) :
    Leads w again [] s (read >>= fun a => Collector.declare (f a) site) fun _ t =>
      Declared t read' f := by
  refine .bind h fun a t extends' steady => ?_
  refine (Leads.declare extends'.unfolded (other a)).mono fun _ u declaring found => ?_
  obtain ⟨e, found⟩ := found
  exact ⟨a, e, steady.onward declaring.grows, found⟩

/-- What is read again may be declared again. -/
theorem Declared.idle {read : Collect α} {f : α → Decl} {site : Site} (h : Declared s read f)
    (same : u.graph = s.graph) (plain : u.folded = []) :
    Idle u (read >>= fun a => Collector.declare (f a) site) () := by
  obtain ⟨a, e, steady, found, _, shape, bound⟩ := h
  refine .bind (steady u (same ▸ .refl _) plain) fun v quiet => ?_
  have marked : ((f a).retained && !e.retained) = false := by
    cases asked : (f a).retained with
    | true => simp [bound asked]
    | false => rfl
  unfold Collector.declare
  refine .look rfl ?_
  rw [quiet.graph, same, found]
  simp only [shape, marked]
  exact .pure v ()

/-! ## Top cursors -/

variable (w) in
/-- The type of a function, as its cursor is read at the top. -/
def readFunction (visit : Visit) (c : CursorId) : Collect Signature :=
  signature w visit (w.table.cursor c).typeId
    { w.siteOf c false with owner := (w.table.cursor c).name } (some (w.table.cursor c).arguments)

variable (w) in
/-- The type of an object, as its cursor is read at the top. -/
def readObject (visit : Visit) (c : CursorId) : Collect CType :=
  visit.type (w.table.cursor c).typeId (w.siteOf c false)

variable (w) in
/-- The declaration of a function, as its cursor is read at the top. -/
def functionOf (c : CursorId) (sig : Signature) : Decl :=
  ⟨(w.table.cursor c).key, (w.table.cursor c).name, (w.table.cursor c).origin,
    w.retains (w.table.cursor c) false, false, .function sig⟩

variable (w) in
/-- The declaration of an object, as its cursor is read at the top. -/
def objectOf (c : CursorId) (type : CType) : Decl :=
  ⟨(w.table.cursor c).key, (w.table.cursor c).name, (w.table.cursor c).origin,
    w.retains (w.table.cursor c) false, false,
    .object type (!w.table.isConstStorage (w.table.cursor c).typeId)⟩

variable (w) in
/-- Whether a top cursor is passed over as one that compilers bring along. -/
def passesOver (c : CursorId) : Bool :=
  builtinNames.contains (bareName (w.table.cursor c).name) && !w.options.builtins

variable (w) in
/-- What a visit of a top cursor that is not passed over leaves behind. -/
structure TopRead (again : Visit) (before after : State) (c : CursorId) : Prop where
  tag : (w.table.cursor c).kind.isTag = true → w.Entered after c true
  typedef : (w.table.cursor c).kind = .typedef → w.TypedefRead again before after c true
  function : (w.table.cursor c).kind = .function → (w.table.cursor c).isStatic = false →
    Declared after (w.readFunction again c) (w.functionOf c)
  object : (w.table.cursor c).kind = .object → (w.table.cursor c).isStatic = false →
    Declared after (w.readObject again c) (w.objectOf c)

theorem TypedefRead.onward {top : Bool} (h : w.TypedefRead again s t c top)
    (extends' : Extends w again [] t u) : w.TypedefRead again s u c top where
  isTypedef := h.isTypedef.onward extends'.grows
  held atTop := (h.held atTop).onward extends'.grows
  targeted read := by
    obtain ⟨d, target, found, body, targetIs⟩ := h.targeted read
    obtain ⟨e, found', same⟩ := extends'.bodies List.not_mem_nil found (by rw [body]; rfl)
    exact ⟨e, target, found', same.trans body, fun site inside =>
      (targetIs site inside).onward extends'.grows⟩

theorem TopRead.onward (h : w.TopRead again s t c) (extends' : Extends w again [] t u) :
    w.TopRead again s u c where
  tag kind := (h.tag kind).onward extends'.grows
  typedef kind := (h.typedef kind).onward extends'
  function kind shared := (h.function kind shared).onward extends'
  object kind shared := (h.object kind shared).onward extends'

theorem Rereads.topDecl (reads : Rereads w limit limit) (plain : w.Unfolded s) (c : CursorId) :
    Leads w (w.visit limit) [] s (w.topDecl (w.visit limit) c) fun _ t =>
      w.passesOver c = false → w.TopRead (w.visit limit) s t c := by
  have nothing (e : Event) {P : State → Prop} (h : ∀ t, P t) :
      Leads w (w.visit limit) [] s (Collect.tell e) fun _ t => P t :=
    .quiet plain rfl ⟨rfl, rfl, rfl⟩ (h _)
  have tag (isTag : (w.table.cursor c).kind.isTag = true) :
      Leads w (w.visit limit) [] s (do let _ ← (w.visit limit).tag c (w.siteOf c false) true)
        fun _ t => w.passesOver c = false → w.TopRead (w.visit limit) s t c := by
    refine .bind (reads.tag plain isTag) fun _ t extends' post => ?_
    refine .pure extends'.unfolded fun _ => ⟨fun _ => post.2.2, ?_, ?_, ?_⟩ <;> intro kind <;>
      simp [kind, CursorKind.isTag] at isTag
  unfold Collector.topDecl
  simp only []
  split
  · rename_i passed
    have passed : w.passesOver c = true := passed
    refine nothing _ fun t seen => ?_
    rw [passed] at seen
    cases seen
  · split <;> rename_i kind
    · exact tag (by rw [kind]; rfl)
    · exact tag (by rw [kind]; rfl)
    · exact tag (by rw [kind]; rfl)
    · refine .bind (reads.typedefDecl (Nat.le_refl _) plain kind) fun _ t extends' post => ?_
      refine .pure extends'.unfolded fun _ => ⟨?_, fun _ => post.2, ?_, ?_⟩ <;> intro kind' <;>
        simp [kind, CursorKind.isTag] at kind'
    · unfold Collector.functionDecl
      simp only []
      split
      · rename_i static
        refine nothing _ fun t _ => ⟨?_, ?_, fun _ shared => ?_, ?_⟩ <;>
          simp_all [CursorKind.isTag]
      · refine (Leads.declareRead (reads.signature id (Nat.le_refl _) plain) fun _ => rfl).mono
          fun _ t _ declared _ => ⟨?_, ?_, fun _ _ => declared, ?_⟩ <;> intro kind' <;>
            simp [kind, CursorKind.isTag] at kind'
    · unfold Collector.objectDecl
      simp only []
      split
      · rename_i static
        refine nothing _ fun t _ => ⟨?_, ?_, ?_, fun _ shared => ?_⟩ <;>
          simp_all [CursorKind.isTag]
      · refine (Leads.declareRead (reads.type plain id (Nat.le_refl _)) fun _ => rfl).mono
          fun _ t _ declared _ => ⟨?_, ?_, ?_, fun _ _ => declared⟩ <;> intro kind' <;>
            simp [kind, CursorKind.isTag] at kind'
    · refine nothing _ fun t _ => ⟨?_, ?_, ?_, ?_⟩ <;> intro kind' <;>
        simp_all [CursorKind.isTag]

/-! ## The whole walk -/

theorem depthBound_pos (w : Collector) : 0 < w.depthBound :=
  Nat.mul_pos (Nat.succ_pos _) (Nat.succ_pos _)

variable (w) in
/-- The state in which the walk over a unit has visited the first of its top cursors. -/
def stateAfter (tops first : List CursorId) : State :=
  (exec (do
    w.noteNames tops
    first.forM (w.topDecl (w.visit w.depthBound))) .start).2

variable (w) in
/-- What is known of the last state of a walk: all declarations say what they were read from, and
every visit left its mark. -/
structure WalkRead (tops : List CursorId) (last : State) : Prop where
  unfolded : w.Unfolded last
  told : ∀ key, ToldOf w (w.visit w.depthBound) last key
  visited : ∀ {first c rest}, tops = first ++ c :: rest → w.passesOver c = false →
    w.TopRead (w.visit w.depthBound) (w.stateAfter tops first) last c

/-- One visit after another; what each leaves behind stays. -/
theorem Leads.forM {f : CursorId → Collect Unit} {P : State → State → CursorId → Prop}
    (tops : List CursorId) (plain : w.Unfolded s)
    (visit : ∀ c s, w.Unfolded s → Leads w again [] s (f c) fun _ t => P s t c)
    (onward : ∀ {s t u c}, P s t c → Extends w again [] t u → P s u c) :
    Leads w again [] s (tops.forM f) fun _ t => ∀ first c rest, tops = first ++ c :: rest →
      P (exec (first.forM f) s).2 t c := by
  induction tops generalizing s with
  | nil => exact .pure plain fun first c rest split => by simp at split
  | cons c tops ih =>
    intro a u run
    have run' : exec (f c >>= fun _ => tops.forM f) s = (.ok a, u) := run
    rw [exec_bind] at run'
    rcases here : exec (f c) s with ⟨e | _, t⟩ <;> rw [here] at run'
    · cases (Prod.mk.inj run').1
    · obtain ⟨extends', left⟩ := visit c s plain _ t here
      obtain ⟨extends'', others⟩ := ih extends'.unfolded a u run'
      refine ⟨extends'.trans extends'', fun first d rest split => ?_⟩
      cases first with
      | nil =>
        obtain ⟨rfl, rfl⟩ := List.cons.inj split
        exact onward left extends''
      | cons c' first =>
        obtain ⟨rfl, tail⟩ := List.cons.inj split
        have eq : exec ((c :: first).forM f) s = exec (first.forM f) t := by
          change exec (f c >>= fun _ => first.forM f) s = _
          rw [exec_bind, here]
        rw [eq]
        exact others first d rest tail

/-- What each visit leaves behind, and what follows keeps, is there when the walk ends. -/
theorem visited_of_walk {tops : List CursorId} {last : State} {P : State → State → CursorId → Prop}
    (run : exec (w.walk (w.visit w.depthBound) tops) .start = (.ok (), last))
    (visit : ∀ c s, w.Unfolded s →
      Leads w again [] s (w.topDecl (w.visit w.depthBound) c) fun _ t => P s t c)
    (onward : ∀ {s t u c}, P s t c → Extends w again [] t u → P s u c) :
    Extends w again [] (exec (w.noteNames tops) .start).2 last ∧
      ∀ first c rest, tops = first ++ c :: rest → P (w.stateAfter tops first) last c := by
  have noted : exec (w.walk (w.visit w.depthBound) tops) .start =
      exec (tops.forM (w.topDecl (w.visit w.depthBound))) (exec (w.noteNames tops) .start).2 := rfl
  have plain : w.Unfolded (exec (w.noteNames tops) .start).2 := unfolded_start.quiet ⟨rfl, rfl, rfl⟩
  exact Leads.forM tops plain visit onward _ _ (noted.symm.trans run)

theorem walkRead_of_walk {tops : List CursorId} {last : State} (apart : w.table.TagsApart)
    (run : exec (w.walk (w.visit w.depthBound) tops) .start = (.ok (), last)) :
    w.WalkRead tops last := by
  have reads : Rereads w w.depthBound w.depthBound := rereads_visit apart (Nat.le_refl _)
  obtain ⟨extends', visited⟩ := visited_of_walk run (fun c s plain => reads.topDecl plain c)
    fun left extends' seen => (left seen).onward extends'
  refine ⟨extends'.unfolded, fun key => extends'.told List.not_mem_nil (.of_absent rfl), ?_⟩
  exact fun split seen => visited _ _ _ split seen

end Collector

end HeaderBind
