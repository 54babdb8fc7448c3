import HeaderBind.Proofs.RecordMembers
import Mathlib.Order.Bounds.Basic
/-!
# The layout of a record

ctypes lays the members of a record out by their own alignment, up to the pack and at least by the
least alignment of the record, and rounds its size up. What a record keeps besides its members is there
to bring the layout about that the parser reports.

The size comes about whenever it is known where the members end. So does the alignment, unless a
packed attribute stands among the members: then the pack is one, no least alignment is kept beside it,
and a record that is packed and aligned beyond that comes out too loose.
-/
namespace HeaderBind

namespace Record

/-- The alignment that members of alignments up to the widest come to under the pack. -/
def naturalAlign (r : Record) (widest : Int) : Int :=
  match r.pack with
  | some pack => min pack widest
  | none => widest

theorem naturalAlign_le (r : Record) {widest : Int} : r.naturalAlign widest ≤ widest := by
  unfold naturalAlign
  split
  · exact min_le_right _ _
  · exact le_rfl

/-- The alignment that follows from the members and from what the record keeps besides. -/
def impliedAlign (r : Record) (widest : Int) : Int := max (r.minAlign.getD 1) (r.naturalAlign widest)

end Record

namespace Members

variable {m : Members} {layout : Layout} {r : Record} {widest finish n : Int}

theorem impliedAlign_intoRecord : (m.intoRecord r widest).impliedAlign widest =
    max ((m.minAlign r.layout widest).getD 1) (m.natural r.layout widest) := rfl

theorem pack_of_packed (packed : m.packed = true) : m.pack layout widest = some 1 := by
  simp [pack, packed]

theorem pack_of_narrow (unpacked : m.packed = false) (known : layout.known = true)
    (narrow : layout.align < widest) : m.pack layout widest = some layout.align := by
  simp [pack, unpacked, known, narrow]

theorem pack_of_wide (unpacked : m.packed = false) (wide : widest ≤ layout.align) :
    m.pack layout widest = none := by
  simp [pack, unpacked, not_lt.mpr wide]

theorem minAlign_of_pack {p : Int} (packs : m.pack layout widest = some p) :
    m.minAlign layout widest = none := by
  simp [minAlign, packs]

theorem natural_of_pack {p : Int} (packs : m.pack layout widest = some p) :
    m.natural layout widest = min p widest := by
  simp [natural, packs]

theorem natural_of_no_pack (packs : m.pack layout widest = none) :
    m.natural layout widest = widest := by
  simp [natural, packs]

/-- Under a packed attribute members come to no alignment. -/
theorem impliedAlign_of_packed (packed : m.packed = true) (positive : 0 < widest) :
    (m.intoRecord r widest).impliedAlign widest = 1 := by
  have packs : m.pack r.layout widest = some 1 := pack_of_packed packed
  rw [impliedAlign_intoRecord, minAlign_of_pack packs, natural_of_pack packs, Option.getD_none]
  omega

/-- Without one the least alignment and the pack make up for what the members come to. -/
theorem impliedAlign_of_unpacked (known : r.layout.known = true) (unpacked : m.packed = false)
    (positive : 0 < widest) : (m.intoRecord r widest).impliedAlign widest = r.layout.align := by
  have aligned : 0 < r.layout.align := by
    simp only [Layout.known, Bool.and_eq_true, decide_eq_true_eq] at known
    exact known.2
  rw [impliedAlign_intoRecord]
  rcases lt_or_ge r.layout.align widest with narrow | wide
  · have packs := pack_of_narrow unpacked known narrow
    rw [minAlign_of_pack packs, natural_of_pack packs, Option.getD_none]
    omega
  · have packs := pack_of_wide unpacked wide
    rw [natural_of_no_pack packs]
    rcases wide.lt_or_eq with wider | rfl
    · rw [show m.minAlign r.layout widest = some r.layout.align by
        simp [minAlign, packs, known, wider], Option.getD_some]
      omega
    · -- bit fields keep an alignment that the members come to as well
      cases bits : m.minAlign r.layout r.layout.align with
      | none => rw [Option.getD_none]; omega
      | some a =>
        obtain ⟨_, rfl⟩ : _ ∧ r.layout.align = a := by simpa [minAlign] using bits
        exact max_self _

theorem isLeast_roundUp (positive : 0 < n) :
    IsLeast {k | n ∣ k ∧ finish ≤ k} (roundUp finish n) := by
  have split := Int.mul_fdiv_add_fmod (-finish) n
  have := Int.fmod_nonneg_of_pos (-finish) positive
  have short := Int.fmod_lt_of_pos (-finish) positive
  have rounded : roundUp finish n = -(n * (-finish).fdiv n) := by
    rw [roundUp, Int.neg_mul, Int.mul_comm]
  refine ⟨⟨⟨-(-finish).fdiv n, by rw [rounded, Int.mul_neg]⟩, by omega⟩, ?_⟩
  rintro k ⟨⟨q, rfl⟩, above⟩
  -- a smaller multiple is smaller by a whole `n`, and the rounding adds less than that
  have : -(-finish).fdiv n < q + 1 := by
    refine Int.lt_of_mul_lt_mul_left (a := n) ?_ positive.le
    rw [Int.mul_neg, Int.mul_add]
    omega
  rw [rounded, ← Int.mul_neg]
  exact Int.mul_le_mul_of_nonneg_left (by omega) positive.le

/-- The bytes kept behind the members are what rounding up does not account for. -/
theorem isLeast_size (known : r.layout.known = true) (ends : m.finish = some finish)
    (fits : finish ≤ r.layout.size) (positive : 0 < m.natural r.layout widest)
    (divides : m.natural r.layout widest ∣ r.layout.size) :
    0 ≤ m.tailPadding r.layout widest ∧
      IsLeast {k | m.natural r.layout widest ∣ k ∧ finish + m.tailPadding r.layout widest ≤ k}
        r.layout.size := by
  have least : IsLeast _ (roundUp finish _) := isLeast_roundUp positive
  simp only [tailPadding, ends, known, positive, decide_true, Bool.true_and, decide_eq_true_eq]
  split
  · rw [add_sub_cancel]
    exact ⟨by omega, ⟨divides, le_rfl⟩, fun _ above => above.2⟩
  · rw [Int.add_zero]
    exact ⟨le_rfl, ⟨divides, fits⟩, fun _ above => by have := least.2 above; omega⟩

end Members

namespace Collector

open Collect (State exec)

variable (w : Collector)

/-- The layout that the parser reports for a record. -/
def reported (decl : CursorId) : Layout := w.table.layoutOf (w.table.cursor decl).typeId

/-- The alignments of the types of the fields below a record. -/
def fieldAligns (decl : CursorId) : List Int :=
  (w.table.fieldsOf (w.table.cursor decl).children).filterMap fun c =>
    (w.table.type (w.table.cursor c).typeId).align

/-- Whether a record has a packed attribute. -/
def IsPacked (decl : CursorId) : Prop :=
  ∃ c ∈ (w.table.cursor decl).children, (w.table.cursor c).kind = .packedAttr

instance (decl : CursorId) : Decidable (w.IsPacked decl) := by
  unfold IsPacked
  infer_instance

/-- Where the members of a record end, if the parser can tell: a structure's with the last, a union's
with the longest, and none at its start. -/
def finalEnd? (isUnion : Bool) (decl : CursorId) : Option Int :=
  let members := (w.table.cursor decl).children.filter fun c => w.IsMember decl c
  if isUnion then (members.mapM w.ordinaryEnd?).map fun ends => ends.foldl max 0
  else match members.getLast? with
    | some c => w.ordinaryEnd? c
    | none => some 0

/-- Whether a record is what the members read from a cursor make of one that was entered for it, with
the layout that is reported. -/
def Makes (bound : Nat) (owner : Owner) (decl : CursorId) (r : Record) : Prop :=
  ∃ retain builtin s m t before,
    exec (w.members (w.visit bound) owner retain builtin decl) s = (.ok m, t) ∧
      before.layout = w.reported decl ∧ before.isUnion = owner.isUnion ∧
      r = m.intoRecord before (w.table.widestAlign (w.table.cursor decl).children)

variable {w} {visit : Visit} {owner : Owner} {site : Site} {bound : Nat} {decl c : CursorId}
variable {m m' : Members} {r : Record} {s t : State} {children : List CursorId}
variable {tags : List (String × String)} {widest finish : Int}

/-- The widest alignment is that of the widest field. -/
theorem widestAlign_eq (greatest : (w.fieldAligns decl).max? = some widest) (natural : 0 ≤ widest) :
    w.table.widestAlign (w.table.cursor decl).children = widest := by
  have fold (cs : List CursorId) (init : Int) (below : init ≤ widest)
      (fields : ∀ c ∈ cs, (w.table.type (w.table.cursor c).typeId).align.getD (-1) ≤ widest)
      (reached : init = widest ∨
        ∃ c ∈ cs, (w.table.type (w.table.cursor c).typeId).align.getD (-1) = widest) :
      cs.foldl (fun widest c => max widest
        ((w.table.type (w.table.cursor c).typeId).align.getD (-1))) init = widest := by
    induction cs generalizing init with
    | nil => simpa using reached
    | cons c cs ih =>
      have here := fields c List.mem_cons_self
      rw [List.foldl_cons]
      refine ih _ (by omega) (fun d mem => fields d (List.mem_cons_of_mem _ mem)) ?_
      rcases reached with rfl | ⟨d, mem, same⟩
      · exact .inl (by omega)
      · rcases List.mem_cons.mp mem with rfl | mem
        · exact .inl (by omega)
        · exact .inr ⟨d, mem, same⟩
  obtain ⟨reached, above⟩ := List.max?_eq_some_iff.mp greatest
  obtain ⟨c, mem, align⟩ := List.mem_filterMap.mp reached
  refine fold _ 0 natural (fun d mem => ?_) (.inr ⟨c, mem, by rw [align]; rfl⟩)
  cases align : (w.table.type (w.table.cursor d).typeId).align with
  | none => simp only [Option.getD_none]; omega
  | some a => exact above a (List.mem_filterMap.mpr ⟨d, mem, align⟩)

/-! ## What a step leaves, and what a run of steps does -/

theorem MemberStep.packed_iff (step : w.MemberStep visit owner site tags c m s m' t) :
    m'.packed = true ↔ m.packed = true ∨ (w.table.cursor c).kind = .packedAttr := by
  cases step with
  | namedTag isTag _ _ | fieldTag isTag _ _ _ =>
    refine (or_iff_left ?_).symm
    rintro isPacked
    simp [isPacked, CursorKind.isTag] at isTag
  | looseEnum kind _ _ _ | implicit kind _ _ | zeroWidth kind _ | bits kind _ _ _ _ | field kind _ _ _ =>
    refine (or_iff_left ?_).symm
    simp [kind]
  | anonymous isRecord _ _ _ =>
    refine (or_iff_left ?_).symm
    rintro isPacked
    simp [isPacked, CursorKind.isRecord] at isRecord
  | packed isPacked => simp [isPacked]
  | other _ _ noPacked => exact (or_iff_left noPacked).symm

theorem MemberSteps.packed_iff (steps : w.MemberSteps visit owner site tags children m s m' t) :
    m'.packed = true ↔ m.packed = true ∨ ∃ c ∈ children, (w.table.cursor c).kind = .packedAttr := by
  induction steps with
  | nil => simp
  | cons first _ ih => rw [ih, first.packed_iff, List.exists_mem_cons_iff, or_assoc]

theorem MemberSteps.finish_eq
    (steps : w.MemberSteps visit owner site (w.table.fieldTags (w.table.cursor decl).children)
      children m s m' t) :
    m'.finish = (children.filter fun c => w.IsMember decl c).foldl (w.endAfter owner.isUnion)
      m.finish := by
  induction steps with
  | nil => rfl
  | cons first _ ih =>
    rcases first.lists with ⟨isMember, _, moved⟩ | ⟨noMember, _, same⟩
    · rw [ih, moved, List.filter_cons_of_pos (by simpa using isMember), List.foldl_cons]
    · rw [ih, same, List.filter_cons_of_neg (by simpa using noMember)]

/-- Going through the members of a structure comes to where the last one ends. -/
theorem foldl_endAfter_struct (members : List CursorId) :
    members.foldl (w.endAfter false) (some 0) =
      match members.getLast? with
      | some c => w.ordinaryEnd? c
      | none => some 0 := by
  rcases List.eq_nil_or_concat members with rfl | ⟨members, c, rfl⟩
  · rfl
  · simp [endAfter]

/-- Going through those of a union comes to the longest one's end, and nowhere when one's end is not
known. -/
theorem foldl_endAfter_union (members : List CursorId) (before : Int) :
    members.foldl (w.endAfter true) (some before) =
      (members.mapM w.ordinaryEnd?).map fun ends => ends.foldl max before := by
  have lost (members : List CursorId) : members.foldl (w.endAfter true) none = none := by
    induction members with
    | nil => rfl
    | cons c members ih => exact ih
  induction members generalizing before with
  | nil => rfl
  | cons c members ih =>
    rw [List.foldl_cons, List.mapM_cons]
    cases here : w.ordinaryEnd? c with
    | none => simpa [endAfter, here] using lost members
    | some here' =>
      rw [show w.endAfter true (some before) c = some (max before here') by simp [endAfter, here], ih]
      cases members.mapM w.ordinaryEnd? <;> rfl

/-- The members that are read from a cursor are packed by an attribute below it, and end where its
members do. -/
theorem packed_and_finish_of_members {retain builtin : Bool}
    (run : exec (w.members visit owner retain builtin decl) s = (.ok m, t)) :
    (m.packed = true ↔ w.IsPacked decl) ∧ m.finish = w.finalEnd? owner.isUnion decl := by
  have steps := memberSteps_of_run run
  refine ⟨steps.packed_iff.trans (or_iff_right Bool.false_ne_true), ?_⟩
  rw [steps.finish_eq, finalEnd?]
  cases owner.isUnion with
  | false => exact foldl_endAfter_struct _
  | true => exact foldl_endAfter_union _ 0

/-- Filling a record leaves what the members below its cursor make of it. -/
theorem Fills.makes (fills : w.Fills bound decl owner s t) :
    ∃ r, t.graph.complete? owner.key = some r ∧ w.Makes bound owner decl r := by
  obtain ⟨m, before, left⟩ := fills.left
  obtain ⟨retain, builtin, u, run, _⟩ := left.read
  exact ⟨_, left.record, retain, builtin, s, m, u, before, run, left.layout, left.union, rfl⟩

namespace Makes

theorem layout_eq (made : w.Makes bound owner decl r) : r.layout = w.reported decl := by
  obtain ⟨_, _, _, _, _, _, _, same, _, rfl⟩ := made
  exact same

theorem isUnion_eq (made : w.Makes bound owner decl r) : r.isUnion = owner.isUnion := by
  obtain ⟨_, _, _, _, _, _, _, _, same, rfl⟩ := made
  exact same

/-- The alignment that is reported follows, unless a packed attribute narrows the members of a record
that is aligned all the same. -/
theorem impliedAlign_iff (made : w.Makes bound owner decl r) (known : (w.reported decl).known = true)
    (greatest : (w.fieldAligns decl).max? = some widest) (positive : 0 < widest) :
    r.impliedAlign widest = (w.reported decl).align ↔
      (w.IsPacked decl → (w.reported decl).align = 1) := by
  obtain ⟨retain, builtin, s, m, t, before, run, same, _, rfl⟩ := made
  obtain ⟨packed, _⟩ := packed_and_finish_of_members run
  rw [widestAlign_eq greatest positive.le, ← packed, ← same]
  cases narrow : m.packed with
  | false =>
    have known : before.layout.known = true := same ▸ known
    exact iff_of_true (Members.impliedAlign_of_unpacked known narrow positive) nofun
  | true =>
    rw [Members.impliedAlign_of_packed narrow positive]
    exact ⟨fun align _ => align.symm, fun align => (align rfl).symm⟩

/-- The size that is reported follows where the members end at a known byte. -/
theorem isLeast_size (made : w.Makes bound owner decl r) (known : (w.reported decl).known = true)
    (greatest : (w.fieldAligns decl).max? = some widest)
    (ends : w.finalEnd? owner.isUnion decl = some finish) (fits : finish ≤ (w.reported decl).size)
    (positive : 0 < r.naturalAlign widest) (divides : r.naturalAlign widest ∣ (w.reported decl).size) :
    0 ≤ r.tailPadding ∧
      IsLeast {k | r.naturalAlign widest ∣ k ∧ finish + r.tailPadding ≤ k} (w.reported decl).size := by
  have wide : 0 ≤ widest := (positive.trans_le r.naturalAlign_le).le
  obtain ⟨retain, builtin, s, m, t, before, run, same, _, rfl⟩ := made
  obtain ⟨_, finish⟩ := packed_and_finish_of_members run
  rw [widestAlign_eq greatest wide] at positive divides ⊢
  rw [← same] at known fits divides ⊢
  exact Members.isLeast_size known (finish.trans ends) fits positive divides

end Makes

/-! ## The layout of the records that are read -/

/-- `struct __attribute__((aligned(16))) wide { char c; };`, `struct narrow { char c; int i; };` under a
pack of two, and `struct __attribute__((packed, aligned(4))) loose { char c; int i; };`. -/
def layouts : Collector where
  options := .default
  table := {
    cursors := #[
      { cursorAt .struct "wide" "c:@S@wide" 1 36 (some 2) with
        isDefinition := some true, definition := some 0, children := [1] },
      { cursorAt .field "c" "c:@S@wide@FI@c" 1 48 (some 0) with offset := some 0 },
      { cursorAt .struct "narrow" "c:@S@narrow" 3 8 (some 3) with
        isDefinition := some true, definition := some 2, children := [3, 4] },
      { cursorAt .field "c" "c:@S@narrow@FI@c" 3 22 (some 0) with offset := some 0 },
      { cursorAt .field "i" "c:@S@narrow@FI@i" 3 29 (some 1) with offset := some 16 },
      { cursorAt .struct "loose" "c:@S@loose" 5 44 (some 4) with
        isDefinition := some true, definition := some 5, children := [6, 7, 8] },
      cursorAt .packedAttr "packed" "" 5 23 none,
      { cursorAt .field "c" "c:@S@loose@FI@c" 5 57 (some 0) with offset := some 0 },
      { cursorAt .field "i" "c:@S@loose@FI@i" 5 64 (some 1) with offset := some 8 }]
    types := #[
      typeOf .charSigned 1 1 (some 0),
      typeOf .int 4 4 (some 1),
      { typeOf .record 16 16 (some 2) with declaration := some 0 },
      { typeOf .record 6 2 (some 3) with declaration := some 2 },
      { typeOf .record 8 4 (some 4) with declaration := some 5 }]
    tops := [0, 2, 5] }

/-- What the records keep besides their members. -/
theorem layouts_walk :
    (exec (layouts.walk (layouts.visit layouts.depthBound) [0, 2, 5]) .start).1.isOk = true ∧
    (∀ d ∈ (layouts.lastState [0, 2, 5]).graph.decls, ∀ key ∈ d.valueKeys,
      (layouts.lastState [0, 2, 5]).graph.valueKeys key = []) ∧
    ["c:@S@wide", "c:@S@narrow", "c:@S@loose"].map (fun key =>
      ((layouts.lastState [0, 2, 5]).graph.complete? key).map fun r =>
        (r.pack, r.minAlign, r.tailPadding, r.layout)) =
      [some (none, some 16, 15, ⟨16, 16⟩), some (some 2, none, 0, ⟨6, 2⟩),
        some (some 1, none, 3, ⟨8, 4⟩)] := by
  decide +kernel

/-- The alignment that the parser reports for a record with fields follows from what reading its
members keeps, on trial or to fill it, unless the record has a packed attribute and an alignment other
than one. -/
theorem alignment_follows_iff (w : Collector) (bound : Nat) (owner : Owner) (decl : CursorId)
    (widest : Int) (known : (w.reported decl).known = true)
    (greatest : (w.fieldAligns decl).max? = some widest) (positive : 0 < widest) :
    (∀ r, w.Makes bound owner decl r → (r.impliedAlign widest = (w.reported decl).align ↔
      (w.IsPacked decl → (w.reported decl).align = 1))) ∧
    ∀ s t, w.Fills bound decl owner s t → ∃ r, t.graph.complete? owner.key = some r ∧
      r.layout = w.reported decl ∧ (r.impliedAlign widest = r.layout.align ↔
        (w.IsPacked decl → r.layout.align = 1)) := by
  have follows {r : Record} (made : w.Makes bound owner decl r) :=
    made.impliedAlign_iff known greatest positive
  refine ⟨fun _ => follows, fun s t fills => ?_⟩
  obtain ⟨r, left, made⟩ := fills.makes
  refine ⟨r, left, made.layout_eq, ?_⟩
  rw [made.layout_eq]
  exact follows made

theorem alignment_follows_narrow : ∃ bound owner s t r, layouts.Fills bound 2 owner s t ∧
    t.graph.complete? owner.key = some r ∧ r.pack = some 2 ∧ r.impliedAlign 4 = 2 := by
  obtain ⟨run, flat, kept⟩ := layouts_walk
  simp only [List.map_cons, List.map_nil, List.cons.injEq] at kept
  obtain ⟨r, complete, kept⟩ := Option.map_eq_some_iff.mp kept.2.1
  obtain ⟨bound, owner, s, t, fills, left⟩ := fills_of_walk 2 run flat (by decide +kernel) complete
  obtain ⟨r', left', layout, follows⟩ :=
    (alignment_follows_iff layouts bound owner 2 4 (by decide) (by decide) (by decide)).2 s t fills
  obtain rfl := Option.some.inj (left.symm.trans left')
  refine ⟨bound, owner, s, t, r, fills, left, congrArg Prod.fst kept, ?_⟩
  rw [follows.mpr (fun packed => absurd packed (by decide)), layout]
  decide

/-- A record that is packed and aligned to four bytes comes out aligned to one. -/
theorem packed_aligned_is_loose : ¬ ∀ (w : Collector) (bound : Nat) (owner : Owner)
    (decl : CursorId) (widest : Int) (s t : State), (w.reported decl).known = true →
      (w.fieldAligns decl).max? = some widest → 0 < widest → w.Fills bound decl owner s t →
        ∃ r, t.graph.complete? owner.key = some r ∧ r.impliedAlign widest = r.layout.align := by
  intro always
  obtain ⟨run, flat, kept⟩ := layouts_walk
  simp only [List.map_cons, List.map_nil, List.cons.injEq] at kept
  obtain ⟨r, complete, kept⟩ := Option.map_eq_some_iff.mp kept.2.2.1
  obtain ⟨bound, owner, s, t, fills, left⟩ := fills_of_walk 5 run flat (by decide +kernel) complete
  obtain ⟨r', left', follows⟩ :=
    always layouts bound owner 5 4 s t (by decide) (by decide) (by decide) fills
  obtain rfl := Option.some.inj (left.symm.trans left')
  simp only [Prod.mk.injEq] at kept
  obtain ⟨pack, minAlign, _, layout⟩ := kept
  simp [Record.impliedAlign, Record.naturalAlign, pack, minAlign, layout] at follows

/-- Where the members of a record end at a known byte, the bytes kept behind them are what rounding up
to their alignment does not account for, so that the size comes out that the parser reports. -/
theorem size_follows (w : Collector) (bound : Nat) (owner : Owner) (decl : CursorId)
    (widest finish : Int) (known : (w.reported decl).known = true)
    (greatest : (w.fieldAligns decl).max? = some widest)
    (ends : w.finalEnd? owner.isUnion decl = some finish) (fits : finish ≤ (w.reported decl).size) :
    (∀ r, w.Makes bound owner decl r → 0 < r.naturalAlign widest →
      r.naturalAlign widest ∣ (w.reported decl).size →
        0 ≤ r.tailPadding ∧ IsLeast {k | r.naturalAlign widest ∣ k ∧ finish + r.tailPadding ≤ k}
          (w.reported decl).size) ∧
    ∀ s t, w.Fills bound decl owner s t → ∃ r, t.graph.complete? owner.key = some r ∧
      r.layout = w.reported decl ∧ r.isUnion = owner.isUnion ∧
      (0 < r.naturalAlign widest → r.naturalAlign widest ∣ r.layout.size →
        0 ≤ r.tailPadding ∧ IsLeast {k | r.naturalAlign widest ∣ k ∧ finish + r.tailPadding ≤ k}
          r.layout.size) := by
  have follows {r : Record} (made : w.Makes bound owner decl r) :=
    made.isLeast_size known greatest ends fits
  refine ⟨fun _ => follows, fun s t fills => ?_⟩
  obtain ⟨r, left, made⟩ := fills.makes
  refine ⟨r, left, made.layout_eq, made.isUnion_eq, ?_⟩
  rw [made.layout_eq]
  exact follows made

theorem size_follows_wide : ∃ bound owner s t r, layouts.Fills bound 0 owner s t ∧
    t.graph.complete? owner.key = some r ∧ layouts.finalEnd? owner.isUnion 0 = some 1 ∧
    r.tailPadding = 15 ∧ IsLeast {k : Int | 1 ∣ k ∧ 1 + 15 ≤ k} r.layout.size := by
  obtain ⟨run, flat, kept⟩ := layouts_walk
  simp only [List.map_cons, List.map_nil, List.cons.injEq] at kept
  obtain ⟨r, complete, kept⟩ := Option.map_eq_some_iff.mp kept.1
  obtain ⟨bound, owner, s, t, fills, left⟩ := fills_of_walk 0 run flat (by decide +kernel) complete
  simp only [Prod.mk.injEq] at kept
  obtain ⟨pack, minAlign, padding, layout⟩ := kept
  have ends : layouts.finalEnd? owner.isUnion 0 = some 1 := by
    cases owner.isUnion <;> decide +kernel
  obtain ⟨r', left', _, _, follows⟩ := (size_follows layouts bound owner 0 1 1 (by decide) (by decide)
    ends (by decide)).2 s t fills
  obtain rfl := Option.some.inj (left.symm.trans left')
  have natural : r.naturalAlign 1 = 1 := by simp [Record.naturalAlign, pack]
  rw [natural, padding] at follows
  exact ⟨bound, owner, s, t, r, fills, left, ends, padding, (follows (by decide) (one_dvd _)).2⟩

end Collector

end HeaderBind
