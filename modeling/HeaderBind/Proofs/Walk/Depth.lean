import HeaderBind.Proofs.Walk.Move
/-!
# How deep a walk goes

A type leads to others without passing a declaration; where types can be ranked so that each leads
to lower ones only, the depth of a walk is bounded by what is left to read and by the rank.
-/
namespace HeaderBind

/-- A type that another is described by, without passing a declaration. -/
inductive CursorTable.TypeStep (t : CursorTable) : TypeId → TypeId → Prop where
  | named {a : TypeId} (kind : (t.type a).kind = .elaborated) : t.TypeStep a (t.type a).named
  | pointee {a : TypeId} (kind : (t.type a).kind = .pointer) : t.TypeStep a (t.type a).pointee
  | element {a : TypeId} (kind : (t.type a).kind.isArray = true) : t.TypeStep a (t.type a).element
  | result {a : TypeId} (kind : (t.type a).kind.isFunction = true) : t.TypeStep a (t.type a).result
  | parameter {a p : TypeId} (kind : (t.type a).kind.isFunction = true)
      (mem : p ∈ (t.type a).parameters) : t.TypeStep a p
  | canonical {a : TypeId} (other : t.canonicalOf a ≠ a) : t.TypeStep a (t.canonicalOf a)

theorem CursorTable.cursor_eq_absent {t : CursorTable} {c : CursorId} (outside : t.cursors.size ≤ c) :
    t.cursor c = .absent := by
  simp [cursor, Array.getD, Nat.not_lt.mpr outside]

theorem CursorTable.kind_canonicalOf (t : CursorTable) (a : TypeId) :
    (t.type (t.canonicalOf a)).kind = t.canonicalKind a := by
  unfold canonicalOf canonicalKind
  cases (t.type a).canonical <;> rfl

/-- Whether a rank falls with every step from type to type. -/
structure CursorTable.Ranked (t : CursorTable) (rank : TypeId → Nat) : Prop where
  falls : ∀ {a b}, t.TypeStep a b → rank b < rank a
  short : ∀ a, rank a ≤ t.types.size + 2
  /-- A type of a typedef that no cursor declares is not its own canonical type. -/
  sugar : ∀ {a}, (t.type a).kind = .typedef →
    (t.cursor (t.declarationOf (t.type a))).kind ≠ .typedef → t.canonicalOf a ≠ a

namespace Collector

open Collect (State)

variable (w : Collector) (rank : TypeId → Nat) (bound : Nat) (s : State)

/-- How much deeper a walk may go below each declaration that it enters. -/
def span : Nat := w.table.types.size + 4

/-- Whether a walk that goes no deeper than the bound can read a type. -/
def TypeRoom (type : TypeId) : Prop := w.unread s * w.span + rank type + 1 < bound

/-- Whether it can read a tag. -/
def TagRoom : Prop := w.unread s * w.span < bound

/-- Whether it can read whatever a declaration is written with. -/
def BodyRoom : Prop := (w.unread s + 1) * w.span ≤ bound

variable {w rank bound s} {stop : State → Bool} {t : State} {a b : TypeId}

theorem BodyRoom.tag (h : w.BodyRoom bound s) : w.TagRoom bound s := by
  have : 0 < w.span := by simp [span]
  unfold BodyRoom at h
  rw [Nat.add_mul, Nat.one_mul] at h
  unfold TagRoom
  omega

theorem BodyRoom.type (ranked : w.table.Ranked rank) (h : w.BodyRoom bound s) (a : TypeId) :
    w.TypeRoom rank bound s a := by
  have := ranked.short a
  unfold BodyRoom at h
  rw [Nat.add_mul, Nat.one_mul] at h
  unfold TypeRoom
  unfold span at h ⊢
  omega

theorem TypeRoom.step (ranked : w.table.Ranked rank) (h : w.TypeRoom rank (bound + 1) s a)
    (step : w.table.TypeStep a b) : w.TypeRoom rank bound s b := by
  have := ranked.falls step
  unfold TypeRoom at h ⊢
  omega

/-- What the canonical type leads to is as good as a step further. -/
theorem TypeRoom.canonical_step (ranked : w.table.Ranked rank) (h : w.TypeRoom rank bound s a)
    (step : w.table.TypeStep (w.table.canonicalOf a) b) : w.TypeRoom rank bound s b := by
  have := ranked.falls step
  unfold TypeRoom at h ⊢
  by_cases same : w.table.canonicalOf a = a
  · rw [same] at this
    omega
  · have := ranked.falls (.canonical same)
    omega

theorem TypeRoom.tag (h : w.TypeRoom rank (bound + 1) s a) : w.TagRoom bound s := by
  unfold TypeRoom at h
  unfold TagRoom
  omega

theorem TypeRoom.onward (h : w.TypeRoom rank bound s a) (onward : Onward w stop [] s t) :
    w.TypeRoom rank bound t a := by
  have := Nat.mul_le_mul_right w.span onward.unread_le
  unfold TypeRoom at h ⊢
  omega

theorem BodyRoom.onward (h : w.BodyRoom bound s) (onward : Onward w stop [] s t) :
    w.BodyRoom bound t :=
  Nat.le_trans (Nat.mul_le_mul_right w.span (Nat.succ_le_succ onward.unread_le)) h

/-- Where less is left to read, whatever a declaration is written with can be read. -/
theorem TagRoom.body (h : w.TagRoom (bound + 1) s) (less : w.unread t < w.unread s) :
    w.BodyRoom bound t :=
  Nat.le_trans (Nat.mul_le_mul_right w.span less) (Nat.lt_succ_iff.mp h)

theorem bodyRoom_depthBound : w.BodyRoom w.depthBound s :=
  Nat.mul_le_mul_right _ (Nat.succ_le_succ (unread_le s))

end Collector

end HeaderBind
