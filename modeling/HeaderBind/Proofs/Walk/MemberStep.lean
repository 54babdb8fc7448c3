import HeaderBind.Proofs.Walk.Program
/-!
# How the members of a record are read

The cursors below a record are read in order. What one of them does to the members read so far depends
on its kind and name alone, but for the type that a field is read with and the key that a tag is kept
under. Whatever is to be known of the members of a record follows from these steps.
-/
namespace HeaderBind

namespace Collect

/-- A program that gives something gives it by what its parts gave. -/
theorem exec_bind_eq_ok {α β : Type} {x : Collect α} {f : α → Collect β} {b : β} {s u : State} :
    exec (x >>= f) s = (.ok b, u) ↔ ∃ a t, exec x s = (.ok a, t) ∧ exec (f a) t = (.ok b, u) := by
  rw [exec_bind]
  rcases exec x s with ⟨e | a, t⟩
  · refine ⟨fun run => ?_, ?_⟩
    · cases (Prod.mk.inj run).1
    · rintro ⟨a, t', run, _⟩
      cases (Prod.mk.inj run).1
  · refine ⟨fun run => ⟨a, t, rfl, run⟩, ?_⟩
    rintro ⟨a', t', same, run⟩
    obtain ⟨eq, rfl⟩ := Prod.mk.inj same
    obtain rfl := Except.ok.inj eq
    exact run

theorem exec_pure_eq_ok {α : Type} {a b : α} {s t : State} :
    exec (Pure.pure a : Collect α) s = (.ok b, t) ↔ b = a ∧ t = s := by
  constructor
  · intro run
    obtain ⟨same, rfl⟩ := Prod.mk.inj run
    exact ⟨(Except.ok.inj same).symm, rfl⟩
  · rintro ⟨rfl, rfl⟩
    rfl

end Collect

namespace Collector

open Collect (State exec exec_bind exec_bind_eq_ok exec_pure_eq_ok)

variable (w : Collector)

/-- What is told of a bit field that has no width. -/
def zeroWidth (owner : Owner) (c : CursorId) : Event :=
  .warning ((w.table.cursor c).place ++ ": zero-width bitfield in `" ++ owner.name ++ "` skipped")

/-- Where the members of a record are looked at from. -/
def memberSite (owner : Owner) (retain builtin : Bool) (decl : CursorId) : Site :=
  ⟨(w.table.cursor decl).place ++ ": `" ++ owner.name ++ "`", "", "", retain, builtin⟩

/-- What reading one cursor below a record does to the members read so far, and to the state. -/
inductive MemberStep (visit : Visit) (owner : Owner) (site : Site) (tags : List (String × String))
    (c : CursorId) : Members → State → Members → State → Prop where
  | namedTag {m : Members} {s t : State} {key : String}
      (isTag : (w.table.cursor c).kind.isTag = true)
      (named : (bareName (w.table.cursor c).name).isEmpty = false)
      (run : exec (visit.tag c (w.siteOf c false) true) s = (.ok key, t)) :
      MemberStep visit owner site tags c m s m t
  | fieldTag {m : Members} {s t : State} {key field : String}
      (isTag : (w.table.cursor c).kind.isTag = true)
      (unnamed : (bareName (w.table.cursor c).name).isEmpty = true)
      (used : tags.lookup (w.table.keyOf (w.table.definitionOf c)) = some field)
      (run : exec (visit.tag c (site.at owner.name field) false) s = (.ok key, t)) :
      MemberStep visit owner site tags c m s m { t with nested := t.nested ++ [(owner.key, key)] }
  | looseEnum {m : Members} {s t : State} {key : String}
      (isEnum : (w.table.cursor c).kind = .enum)
      (unnamed : (bareName (w.table.cursor c).name).isEmpty = true)
      (unused : tags.lookup (w.table.keyOf (w.table.definitionOf c)) = none)
      (run : exec (visit.tag c (site.at owner.name m.label) false) s = (.ok key, t)) :
      MemberStep visit owner site tags c m s m.skipLabel
        { t with nested := t.nested ++ [(owner.key, key)] }
  | anonymous {m : Members} {s t : State} {key : String}
      (isRecord : (w.table.cursor c).kind.isRecord = true)
      (unnamed : (bareName (w.table.cursor c).name).isEmpty = true)
      (unused : tags.lookup (w.table.keyOf (w.table.definitionOf c)) = none)
      (run : exec (visit.tag c (site.at owner.name m.label) false) s = (.ok key, t)) :
      MemberStep visit owner site tags c m s (m.addAnonymous key)
        { t with nested := t.nested ++ [(owner.key, key)] }
  | implicit {m : Members} {s : State} (isField : (w.table.cursor c).kind = .field)
      (unnamed : (w.table.cursor c).name.isEmpty = true)
      (plain : (w.table.cursor c).width = none) : MemberStep visit owner site tags c m s m s
  | zeroWidth {m : Members} {s : State} (isField : (w.table.cursor c).kind = .field)
      (zero : (w.table.cursor c).width = some 0) :
      MemberStep visit owner site tags c m s m { s with events := s.events ++ [w.zeroWidth owner c] }
  | bits {m : Members} {s t : State} {width : Int} {type : CType}
      (isField : (w.table.cursor c).kind = .field)
      (unnamed : (w.table.cursor c).name.isEmpty = true)
      (wide : (w.table.cursor c).width = some width) (nonzero : width ≠ 0)
      (run : exec (visit.type (w.table.cursor c).typeId (site.at owner.name m.bitLabel)) s =
        (.ok type, t)) :
      MemberStep visit owner site tags c m s
        (({ m with bitLabels := m.bitLabels + 1 } : Members).addField owner.isUnion m.bitLabel type
          (some width) (w.table.fieldEnd? c)) t
  | field {m : Members} {s t : State} {type : CType} (isField : (w.table.cursor c).kind = .field)
      (named : (w.table.cursor c).name.isEmpty = false)
      (nonzero : (w.table.cursor c).width ≠ some 0)
      (run : exec (visit.type (w.table.cursor c).typeId
        (site.at owner.name (w.table.cursor c).name)) s = (.ok type, t)) :
      MemberStep visit owner site tags c m s
        (m.addField owner.isUnion (w.table.cursor c).name type (w.table.cursor c).width
          (w.table.fieldEnd? c)) t
  | packed {m : Members} {s : State} (isPacked : (w.table.cursor c).kind = .packedAttr) :
      MemberStep visit owner site tags c m s { m with packed := true } s
  | other {m : Members} {s : State} (noTag : (w.table.cursor c).kind.isTag = false)
      (noField : (w.table.cursor c).kind ≠ .field)
      (noPacked : (w.table.cursor c).kind ≠ .packedAttr) : MemberStep visit owner site tags c m s m s

/-- What reading cursors below a record one after another does. -/
inductive MemberSteps (visit : Visit) (owner : Owner) (site : Site) (tags : List (String × String)) :
    List CursorId → Members → State → Members → State → Prop where
  | nil {m : Members} {s : State} : MemberSteps visit owner site tags [] m s m s
  | cons {c : CursorId} {rest : List CursorId} {m m' m'' : Members} {s t u : State}
      (first : w.MemberStep visit owner site tags c m s m' t)
      (others : MemberSteps visit owner site tags rest m' t m'' u) :
      MemberSteps visit owner site tags (c :: rest) m s m'' u

variable {w} {visit : Visit} {owner : Owner} {site : Site} {tags : List (String × String)}
variable {m m' : Members} {c : CursorId} {s t : State}

theorem memberStep_of_unnamedTag (isTag : (w.table.cursor c).kind.isTag = true)
    (unnamed : (bareName (w.table.cursor c).name).isEmpty = true)
    (run : exec (w.unnamedTag visit owner site tags m c) s = (.ok m', t)) :
    w.MemberStep visit owner site tags c m s m' t := by
  unfold Collector.unnamedTag at run
  -- noting the tag inside the record is one step
  have noted {key : String} {u v : State} {k : Unit → Collect Members} {n : Members}
      (run : exec (Collect.addNested owner.key key >>= k) u = (.ok n, v)) :
      exec (k ()) { u with nested := u.nested ++ [(owner.key, key)] } = (.ok n, v) := run
  split at run
  · rename_i field used
    obtain ⟨key, u, read, run⟩ := exec_bind_eq_ok.mp run
    obtain ⟨rfl, rfl⟩ := exec_pure_eq_ok.mp (noted run)
    exact .fieldTag isTag unnamed used read
  · rename_i unused
    obtain ⟨key, u, read, run⟩ := exec_bind_eq_ok.mp run
    obtain ⟨rfl, rfl⟩ := exec_pure_eq_ok.mp (noted run)
    split
    · rename_i isEnum
      exact .looseEnum isEnum unnamed unused read
    · rename_i noEnum
      refine .anonymous ?_ unnamed unused read
      revert isTag noEnum
      cases (w.table.cursor c).kind <;> simp [CursorKind.isTag, CursorKind.isRecord]

theorem memberStep_of_fieldDecl (isField : (w.table.cursor c).kind = .field)
    (run : exec (w.fieldDecl visit owner site m c) s = (.ok m', t)) :
    w.MemberStep visit owner site tags c m s m' t := by
  unfold Collector.fieldDecl at run
  simp only [] at run
  split at run
  · rename_i implicit
    obtain ⟨unnamed, plain⟩ := Bool.and_eq_true_iff.mp implicit
    obtain ⟨rfl, rfl⟩ := exec_pure_eq_ok.mp run
    exact .implicit isField unnamed (by simpa using plain)
  · rename_i counts
    split at run
    · rename_i zero
      obtain ⟨_, u, told, run⟩ := exec_bind_eq_ok.mp run
      obtain ⟨rfl, rfl⟩ := exec_pure_eq_ok.mp run
      obtain ⟨_, rfl⟩ := Prod.mk.inj told
      exact .zeroWidth isField zero
    · rename_i nonzero
      obtain ⟨type, u, read, run⟩ := exec_bind_eq_ok.mp run
      obtain ⟨rfl, rfl⟩ := exec_pure_eq_ok.mp run
      cases named : (w.table.cursor c).name.isEmpty with
      | false =>
        simp only [named, Bool.false_eq_true, if_false] at read ⊢
        exact .field isField named nonzero read
      | true =>
        cases wide : (w.table.cursor c).width with
        | none => simp [named, wide] at counts
        | some width =>
          simp only [named, if_true] at read ⊢
          exact .bits isField named wide (by simpa [wide] using nonzero) read

/-- Reading one cursor below a record is one of the steps. -/
theorem memberStep_of_run (run : exec (w.member visit owner site tags m c) s = (.ok m', t)) :
    w.MemberStep visit owner site tags c m s m' t := by
  unfold Collector.member at run
  simp only [] at run
  split at run
  · rename_i isTag
    split at run
    · rename_i unnamed
      exact memberStep_of_unnamedTag isTag unnamed run
    · rename_i named
      obtain ⟨key, u, read, run⟩ := exec_bind_eq_ok.mp run
      obtain ⟨rfl, rfl⟩ := exec_pure_eq_ok.mp run
      exact .namedTag isTag (by simpa using named) read
  · rename_i noTag
    split at run
    · rename_i isField
      exact memberStep_of_fieldDecl isField run
    · rename_i noField
      split at run
      · rename_i isPacked
        obtain ⟨rfl, rfl⟩ := exec_pure_eq_ok.mp run
        exact .packed isPacked
      · rename_i noPacked
        obtain ⟨rfl, rfl⟩ := exec_pure_eq_ok.mp run
        exact .other (by simpa using noTag) noField noPacked

theorem memberSteps_of_foldlM {children : List CursorId}
    (run : exec (children.foldlM (w.member visit owner site tags) m) s = (.ok m', t)) :
    w.MemberSteps visit owner site tags children m s m' t := by
  induction children generalizing m s with
  | nil =>
    obtain ⟨rfl, rfl⟩ := exec_pure_eq_ok.mp run
    exact .nil
  | cons c children ih =>
    rw [List.foldlM_cons] at run
    obtain ⟨m₁, u, first, run⟩ := exec_bind_eq_ok.mp run
    exact .cons (memberStep_of_run first) (ih run)

/-- Reading the members of a record goes by these steps. -/
theorem memberSteps_of_run {retain builtin : Bool} {decl : CursorId}
    (run : exec (w.members visit owner retain builtin decl) s = (.ok m, t)) :
    w.MemberSteps visit owner (w.memberSite owner retain builtin decl)
      (w.table.fieldTags (w.table.cursor decl).children) (w.table.cursor decl).children
      Members.start s m t :=
  memberSteps_of_foldlM run

end Collector

end HeaderBind
