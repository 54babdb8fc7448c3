import HeaderBind.Proofs.Walk.TypesAgain
/-!
# Records read once more

Records in a unit whose tag definitions stand apart: the members of each are read once, and are what
they are read as afterwards. So types and tags are read the same again, however deep they lie.
-/
namespace HeaderBind.Collector

open Collect (State exec exec_bind)

variable {w : Collector} {limit bound deeper : Nat} {s t : State} {c decl : CursorId}

namespace Rereads

variable (reads : Rereads w limit bound)

section

variable {owner owner' : Owner} {site site' : Site}
  (inside : site.builtin = true → site'.builtin = true) (deep : bound ≤ deeper)
include reads inside deep

omit inside in
theorem unnamedTag {tags : List (String × String)} {m : Members} (plain : w.Unfolded s)
    (isTag : (w.table.cursor c).kind.isTag = true) :
    Again w (w.visit limit) s (w.unnamedTag (w.visit bound) owner site tags m c)
      (w.unnamedTag (w.visit deeper) owner' site' tags m c) := by
  unfold Collector.unnamedTag
  split
  · refine .bind (reads.tagAgain plain isTag nofun deep) fun key t extends' => ?_
    exact .bind (.addNested extends'.unfolded _ _ _) fun _ _ extends'' => .pure extends''.unfolded _
  · refine .bind (reads.tagAgain plain isTag nofun deep) fun key t extends' => ?_
    exact .bind (.addNested extends'.unfolded _ _ _) fun _ _ extends'' => .pure extends''.unfolded _

theorem fieldDecl {m : Members} (plain : w.Unfolded s) (union : owner'.isUnion = owner.isUnion) :
    Again w (w.visit limit) s (w.fieldDecl (w.visit bound) owner site m c)
      (w.fieldDecl (w.visit deeper) owner' site' m c) := by
  unfold Collector.fieldDecl
  simp only [union]
  split
  · exact .pure plain _
  · split
    · exact .bind (.tell plain _ _) fun _ _ extends' => .pure extends'.unfolded _
    · refine .bind (reads.type plain (inside_at inside _ _ _ _) deep) fun _ _ extends' => ?_
      exact .pure extends'.unfolded _

theorem member {tags : List (String × String)} {m : Members} (plain : w.Unfolded s)
    (union : owner'.isUnion = owner.isUnion) :
    Again w (w.visit limit) s (w.member (w.visit bound) owner site tags m c)
      (w.member (w.visit deeper) owner' site' tags m c) := by
  unfold Collector.member
  simp only []
  split
  · rename_i isTag
    split
    · exact reads.unnamedTag deep plain isTag
    · exact .bind (reads.tagAgain plain isTag id deep) fun _ _ extends' => .pure extends'.unfolded _
  · split
    · exact reads.fieldDecl inside deep plain union
    · split
      · exact .pure plain _
      · exact .pure plain _

end

section

variable (within : bound ≤ limit)
include reads within

/-- The members of a record are what they are read as for whatever record they are read. -/
theorem fieldsAre {owner : Owner} {retain builtin : Bool} (plain : w.Unfolded s) (decl : CursorId) :
    Leads w (w.visit limit) [] s (w.members (w.visit bound) owner retain builtin decl) fun m t =>
      ∀ other : { other : Owner × Bool // other.1.isUnion = owner.isUnion },
        Steady t (w.members (w.visit limit) other.1.1 other.1.2 true decl) m := by
  have here : Nonempty { other : Owner × Bool // other.1.isUnion = owner.isUnion } :=
    ⟨⟨(owner, retain), rfl⟩⟩
  refine .all fun other => ?_
  exact Again.foldlM _ _ plain fun m c t _ plain =>
    reads.member (fun _ => rfl) within plain other.2

/-- Filling a record that was entered leaves the members that are read there. -/
theorem fillRecord {d : Decl} {r : Record} {owner : Owner} {retain builtin : Bool}
    (plain : w.Unfolded s) (found : s.graph.get? owner.key = some d) (body : d.body = .record r)
    (union : owner.isUnion = r.isUnion) :
    Leads w (w.visit limit) [owner.key] s
      (w.fillRecord (w.visit bound) owner retain builtin decl) fun _ t =>
      ∃ e r', t.graph.get? owner.key = some e ∧ e.body = .record r' ∧ r'.isUnion = r.isUnion ∧
        FieldsAre w (w.visit limit) t decl r' := by
  unfold Collector.fillRecord
  refine .bind ((reads.fieldsAre within plain decl).widen (List.nil_subset _))
    fun m t extends' steady => ?_
  refine .look rfl ?_
  obtain ⟨e, found', becomes⟩ := extends'.grows _ _ found
  obtain ⟨r', body', union'⟩ : ∃ r', e.body = .record r' ∧ r.isUnion = r'.isUnion := by
    have sort := becomes.sort
    rw [body] at sort
    cases after : e.body <;> simp [after, Decl.Body.SameSort] at sort
    exact ⟨_, rfl, sort⟩
  rw [found']
  obtain ⟨key, name, origin, retained, builtin', body⟩ := e
  obtain rfl : body = .record r' := body'
  simp only []
  refine (Leads.setBody extends'.unfolded found' ?_ ?_).mono fun _ u describing found'' => ?_
  · exact rfl
  · exact id
  · refine ⟨_, _, found'', rfl, union'.symm, m, rfl, fun other retain same => ?_⟩
    have same' : other.isUnion = owner.isUnion := same.trans (union'.symm.trans union.symm)
    exact (steady ⟨(other, retain), same'⟩).onward describing.grows

/-- Noting where a record is defined and filling it leaves it as its definition is read. -/
theorem define {d : Decl} {r : Record} {owner : Owner} {retain builtin : Bool}
    (plain : w.Unfolded s) (isTag : (w.table.cursor c).kind.isTag = true)
    (defines : (w.table.cursor (w.table.definitionOf c)).defines = true)
    (found : s.graph.get? (w.table.tagKey c) = some d) (body : d.body = .record r)
    (own : owner.key = w.table.tagKey c) (union : owner.isUnion = r.isUnion) :
    Leads w (w.visit limit) [w.table.tagKey c] s (do
        w.noteDefined (w.table.definitionOf c) (w.table.tagKey c)
        w.fillRecord (w.visit bound) owner retain builtin (w.table.definitionOf c)) fun _ t =>
      w.Shaped (w.table.tagKey c) r → ToldOf w (w.visit limit) t (w.table.tagKey c) := by
  refine .bind (.noteDefined plain isTag defines) fun _ t extends' same => ?_
  rw [← own, ← same] at found
  rw [← own]
  refine (reads.fillRecord within extends'.unfolded found body union).mono fun _ u _ filled => ?_
  obtain ⟨e, r', found', body', union', fields⟩ := filled
  intro shaped f found''
  obtain rfl := Option.some.inj (found'.symm.trans found'')
  obtain ⟨c', sort, own', union''⟩ := shaped
  rw [body']
  exact ⟨⟨c', sort, own', union'.trans union''⟩, fun _ => ⟨c, isTag, defines, own.symm, fields⟩⟩

/-- A record is entered, and its members are read if it is defined. -/
theorem enterRecord {d : Decl} {r : Record} {owner : Owner} {retain builtin top : Bool}
    (plain : w.Unfolded s) (isTag : (w.table.cursor c).kind.isTag = true)
    (other : (w.table.cursor c).kind ≠ .enum) (absent : s.graph.get? (w.table.tagKey c) = none)
    (key : d.key = w.table.tagKey c) (body : d.body = .record r)
    (shape : r.isUnion = decide ((w.table.cursor (w.table.definitionOf c)).kind = .union))
    (complete : r.complete = (w.table.cursor (w.table.definitionOf c)).defines)
    (held : top = true → d.retained = true ∨
      w.retains (w.table.cursor (w.table.definitionOf c)) d.builtin = false)
    (own : owner.key = w.table.tagKey c) (union : owner.isUnion = r.isUnion) :
    Leads w (w.visit limit) [] s (do
        Collect.add d
        if (w.table.cursor (w.table.definitionOf c)).defines then
          w.noteDefined (w.table.definitionOf c) (w.table.tagKey c)
          w.fillRecord (w.visit bound) owner retain builtin (w.table.definitionOf c))
      fun _ t => w.Entered t c top := by
  have shaped : w.Shaped (w.table.tagKey c) r := ⟨c, ⟨isTag, other⟩, rfl, shape⟩
  have entered {t : State} (found : t.graph.get? (w.table.tagKey c) = some d) :
      w.Entered t c top := by
    refine ⟨⟨d, found, ?_⟩, fun atTop => ⟨d, found, held atTop⟩⟩
    rw [body]
    exact ⟨other, complete.trans⟩
  have close {x : Collect Unit} (h : Leads w (w.visit limit) [w.table.tagKey c] s x fun _ t =>
      ToldOf w (w.visit limit) t (w.table.tagKey c) ∧ w.Entered t c top) :
      Leads w (w.visit limit) [] s x fun _ t => w.Entered t c top :=
    (h.close (by simp [DeclGraph.settled, absent]) fun _ t post _ => post.1).mono
      fun _ t _ post => post.2
  have adding : Leads w (w.visit limit) [w.table.tagKey c] s (Collect.add d) fun _ t =>
      t.graph.get? (w.table.tagKey c) = some d := by
    rw [← key] at absent ⊢
    exact .add plain absent
  refine close (.bind adding fun _ t extends' found => ?_)
  split
  · rename_i defines
    refine (reads.define within extends'.unfolded isTag defines found body own union).mono
      fun _ u defining told => ?_
    exact ⟨told shaped, (entered found).onward defining.grows⟩
  · rename_i declares
    refine .pure extends'.unfolded ⟨fun e found' => ?_, entered found⟩
    obtain rfl := Option.some.inj (found.symm.trans found')
    rw [body]
    exact ⟨shaped, fun complete' => absurd (complete.symm.trans complete') declares⟩

theorem newRecord {site : Site} {top : Bool} (plain : w.Unfolded s)
    (isTag : (w.table.cursor c).kind.isTag = true) (other : (w.table.cursor c).kind ≠ .enum)
    (absent : s.graph.get? (w.table.tagKey c) = none) :
    Leads w (w.visit limit) [] s
      (w.newRecord (w.visit bound) (w.table.definitionOf c) (w.table.tagKey c) site top)
      fun _ t => w.Entered t c top := by
  unfold Collector.newRecord
  simp only []
  -- which names are builtin does not matter, and is not to be computed
  generalize builtinNames.contains _ = builtin
  split
  · refine .bind (.anonymousName plain _ _ _) fun name t extends' quiet => ?_
    exact reads.enterRecord within extends'.unfolded isTag other (quiet.graph ▸ absent) rfl rfl rfl
      rfl held_of_top rfl rfl
  · exact reads.enterRecord within plain isTag other absent rfl rfl rfl rfl held_of_top rfl rfl

/-- A record that was only declared is completed from its definition. -/
theorem complete {d : Decl} {r : Record} {layout : Layout} {name : String} {retain builtin : Bool}
    (plain : w.Unfolded s) (isTag : (w.table.cursor c).kind.isTag = true)
    (other : (w.table.cursor c).kind ≠ .enum)
    (defines : (w.table.cursor (w.table.definitionOf c)).defines = true)
    (found : s.graph.get? (w.table.tagKey c) = some d) (body : d.body = .record r)
    (waits : r.complete = false) :
    Leads w (w.visit limit) [] s (do
        Collect.setBody (w.table.tagKey c) (.record { r with complete := true, layout := layout })
        w.noteDefined (w.table.definitionOf c) (w.table.tagKey c)
        w.fillRecord (w.visit bound) ⟨w.table.tagKey c, name, r.isUnion⟩ retain builtin
          (w.table.definitionOf c))
      fun _ t => w.Entered t c false := by
  have new : s.graph.settled (w.table.tagKey c) = false := by
    simp [DeclGraph.settled, found, body, Decl.Body.settled, waits]
  have close {x : Collect Unit} (h : Leads w (w.visit limit) [w.table.tagKey c] s x fun _ t =>
      (w.Shaped (w.table.tagKey c) r → ToldOf w (w.visit limit) t (w.table.tagKey c)) ∧
        w.Entered t c false) :
      Leads w (w.visit limit) [] s x fun _ t => w.Entered t c false := by
    refine (h.close new fun _ t post told => post.1 ?_).mono fun _ t _ post => post.2
    have told := told d found
    rw [body] at told
    exact told.1
  have sort : d.body.SameSort (.record { r with complete := true, layout := layout }) := by
    rw [body]
    exact rfl
  refine close (.bind (.setBody plain found sort fun _ => rfl) fun _ t describing found' => ?_)
  have entered : w.Entered t c false := ⟨⟨_, found', other, fun _ => rfl⟩, by simp⟩
  refine (reads.define within describing.unfolded isTag defines found' rfl rfl rfl).mono
    fun _ u defining told => ?_
  exact ⟨told, entered.onward defining.grows⟩

theorem recordDecl {site : Site} {top : Bool} (plain : w.Unfolded s) (apart : w.table.TagsApart)
    (isTag : (w.table.cursor c).kind.isTag = true) (other : (w.table.cursor c).kind ≠ .enum) :
    Leads w (w.visit limit) [] s (w.recordDecl (w.visit bound) c site top) fun key t =>
      key = w.table.tagKey c ∧ w.Entered t c top := by
  have own : (w.table.cursor (w.table.definitionOf c)).key = w.table.tagKey c := rfl
  have mark {t : State} (plain : w.Unfolded t) (entered : w.Entered t c false) :
      Leads w (w.visit limit) [] t (do
          if top then w.retainFor (w.table.tagKey c) (w.table.definitionOf c)
          return w.table.tagKey c)
        fun key u => key = w.table.tagKey c ∧ w.Entered u c top := by
    obtain ⟨d, found, fits⟩ := entered.fits
    refine (Leads.retainIf plain found _).mono fun key u extends' post => ?_
    obtain ⟨rfl, held⟩ := post
    exact ⟨rfl, (entered.onward extends'.grows).fits, held⟩
  unfold Collector.recordDecl
  simp only [own]
  refine .look (plain.redirect _) ?_
  refine .look rfl ?_
  split
  · rename_i previous found
    split
    · rename_i r body
      split
      · rename_i completes
        obtain ⟨waits, defines⟩ : r.complete = false ∧
          (w.table.cursor (w.table.definitionOf c)).defines = true := by simpa using completes
        exact .bind₃ (reads.complete within plain isTag other defines found body waits)
          fun _ t extends' entered => mark extends'.unfolded entered
      · rename_i waits
        refine mark plain ⟨⟨previous, found, ?_⟩, by simp⟩
        rw [body]
        refine ⟨other, fun defines => ?_⟩
        simpa [defines] using waits
    · exact .fail
  · rename_i absent
    refine .look (plain.definedBefore apart isTag) ?_
    refine .bind (reads.newRecord within plain isTag other absent) fun _ t extends' entered => ?_
    exact .pure extends'.unfolded ⟨rfl, entered⟩

theorem tagDecl {site : Site} {top : Bool} (plain : w.Unfolded s) (apart : w.table.TagsApart)
    (isTag : (w.table.cursor c).kind.isTag = true) :
    Leads w (w.visit limit) [] s (w.tagDecl (w.visit bound) c site top) fun key t =>
      key = w.table.tagKey c ∧ w.Entered t c top := by
  unfold Collector.tagDecl
  split
  · rename_i kind
    exact (Leads.enumDecl plain apart kind).mono fun _ _ _ post => post.1
  · rename_i other
    exact reads.recordDecl within plain apart isTag other

end

end Rereads

/-- Whatever is read is read the same again, however deep the walk goes. -/
theorem rereads_visit (apart : w.table.TagsApart) (within : bound ≤ limit) :
    Rereads w limit bound := by
  induction bound with
  | zero => exact ⟨fun _ _ _ => .fail, fun _ _ => .fail⟩
  | succ bound ih =>
    have reads := ih (Nat.le_of_succ_le within)
    constructor
    · intro type site site' s deeper plain inside deep
      obtain ⟨m, rfl⟩ := Nat.exists_eq_add_of_lt deep
      exact reads.typeRef (Nat.le_of_succ_le within) inside (Nat.le_add_right _ _) plain
    · intro c site top s plain isTag
      refine (reads.tagDecl (Nat.le_of_succ_le within) plain apart isTag).mono fun key t _ post => ?_
      exact ⟨Nat.succ_pos bound, post⟩

end HeaderBind.Collector
