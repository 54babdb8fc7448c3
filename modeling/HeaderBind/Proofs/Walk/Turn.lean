import HeaderBind.Proofs.Walk.TopsAgain
/-!
# Why a walk changes its state

A move says how a state changes; a turn also says what brings the change about. A declaration is
named by its spelling, by a typedef or by a name that nothing has so far. It is marked for a top cursor
that asks for it, and a tag also on its way to somewhere else. Nothing is told as an error.
-/
namespace HeaderBind

namespace Decl

/-- Whether a declaration is a record or an enumeration. -/
def Body.isTag : Body → Bool
  | .record _ | .enum _ => true
  | _ => false

/-- Whether a declaration is a record or an enumeration that has no name of its own. -/
def Body.unnamed : Body → Bool
  | .record r => r.anonymous
  | .enum e => e.anonymous
  | _ => false

theorem Body.SameSort.isTag {b c : Body} (h : b.SameSort c) : c.isTag = b.isTag := by
  cases b <;> cases c <;> simp_all [SameSort, Body.isTag]

theorem Body.isType_of_isTag {b : Body} (h : b.isTag = true) : b.isType = true := by
  cases b <;> simp_all [Body.isTag, Body.isType]

end Decl

/-- What marking marks was marked before, is to be marked, or is noted inside something that has its
mark then. -/
theorem DeclGraph.marked_of_retainAll {nested : List (String × String)} {g : DeclGraph}
    {keys : List String} {k : String} (now : (g.retainAll nested keys).marked k = true) :
    g.marked k = true ∨ k ∈ keys ∨
      ∃ owner, (owner, k) ∈ nested ∧ (g.retainAll nested keys).marked owner = true := by
  fun_induction retainAll nested g keys with
  | case1 g => exact .inl now
  | case2 g key rest _ ih => exact (ih now).imp id (.imp (List.mem_cons_of_mem _) id)
  | case3 g key rest d found new _ ih =>
    rcases ih now with before | asked | inside
    · rcases marked_retain.mp before with before | ⟨rfl, _⟩
      · exact .inl before
      · exact .inr (.inl List.mem_cons_self)
    · rcases List.mem_append.mp asked with noted | asked
      · have marked : (g.retain key).marked key = true :=
          marked_retain.mpr (.inr ⟨rfl, mem_keys_iff.mpr ⟨d, found⟩⟩)
        exact .inr (.inr ⟨key, mem_inside_iff.mp noted, (grows_retainAll _).marked marked⟩)
      · exact .inr (.inl (List.mem_cons_of_mem _ asked))
    · exact .inr (.inr inside)
  | case4 g key rest d found old ih => exact (ih now).imp id (.imp (List.mem_cons_of_mem _) id)

/-- Where no key is new, what is declared was declared before. -/
theorem DeclGraph.Grows.back {g h : DeclGraph} {key : String} {e : Decl} (grows : g.Grows h)
    (same : h.keys = g.keys) (found : h.get? key = some e) :
    ∃ d, g.get? key = some d ∧ d.Becomes e := by
  obtain ⟨d, found'⟩ := mem_keys_iff.mp (same ▸ mem_keys_iff.mpr ⟨e, found⟩)
  obtain ⟨e', found'', becomes⟩ := grows key d found'
  exact ⟨d, found', Option.some.inj (found.symm.trans found'') ▸ becomes⟩

namespace Collector

open Collect (State)

variable (w : Collector)

/-- Whether a key is that of a tag's definition. -/
def IsTagKey (key : String) : Prop :=
  ∃ c, (w.table.cursor c).kind.isTag = true ∧ w.table.tagKey c = key

/-- Whether a key is that of a tag's definition, and a type is declared under it. -/
def TagType (s : State) (key : String) : Prop := w.IsTagKey key ∧ s.graph.namesType key = true

/-- Whether a cursor declares something of the sort, and is not passed over for its storage. -/
def Declares (c : CursorId) : Decl.Body → Prop
  | .typedef _ => (w.table.cursor c).kind = .typedef
  | .function _ => (w.table.cursor c).kind = .function ∧ (w.table.cursor c).isStatic = false
  | .object _ _ => (w.table.cursor c).kind = .object ∧ (w.table.cursor c).isStatic = false
  | _ => False

/-- Whether a top cursor asks for a declaration to be bound: it is not passed over, it declares what
has the key, and the options ask for it where the cursor stands. -/
structure Binds (c : CursorId) (d : Decl) : Prop where
  seen : w.passesOver c = false
  own : w.table.keyOf c = d.key
  declares : w.Declares c d.body
  asked : w.retains (w.table.cursor c) d.builtin = true

/-- Whether a declaration may be marked by itself: compilers do not bring it along, or what they bring
along is asked for. -/
def Admits (d : Decl) : Prop := d.builtin = true → w.options.builtins = true

/-- How a declaration comes by its name, and what is made up for it: names that are spelled and those
that a typedef gives are there already. -/
inductive Naming (s : State) (d : Decl) : List String → Prop where
  | spelled (named : d.body.unnamed = false) : Naming s d []
  | adopted (given : s.adopted.lookup d.key = some d.name) (nonempty : d.name ≠ "") : Naming s d []
  | made {base : String} (nonempty : base ≠ "")
      (fresh : d.name = Text.freshName (s.spelled ++ s.synthesized) base) : Naming s d [d.name]

/-- One change of the state, and why it comes about, where the cursors at the top are known. -/
inductive Turn (tops : List CursorId) : State → State → Prop where
  | tell {s : State} {e : Event} (mild : ∀ message, e ≠ .error message) :
      Turn tops s { s with events := s.events ++ [e] }
  | see {s : State} (key : String) : Turn tops s { s with seenTypedefs := s.seenTypedefs ++ [key] }
  | draw {s : State} (drawn : List String) (numbered : List Tag) :
      Turn tops s { s with synthesized := s.synthesized ++ drawn, numbered := numbered }
  | enter {s : State} {d : Decl} {drawn : List String} (numbered : List Tag)
      (fresh : d.key ∉ s.graph.keys) (naming : Naming s d drawn)
      (bound : d.retained = true → d.body.isTag = true ∨ ∃ c ∈ tops, w.Binds c d)
      (admitted : d.retained = true → w.Admits d)
      (plain : d.body.isType = false → d.builtin = false ∧ tops ≠ []) :
      Turn tops s { s with
        graph := s.graph.push d fresh
        synthesized := s.synthesized ++ drawn
        numbered := numbered }
  | describe {s : State} {d : Decl} {body : Decl.Body} (found : s.graph.get? d.key = some d)
      (sort : d.body.SameSort body) (settled : d.body.settled = true → body.settled = true)
      (unnamed : body.unnamed = d.body.unnamed) :
      Turn tops s { s with graph := s.graph.setBody d.key body }
  | mark {s : State} {key : String} {d : Decl} (found : s.graph.get? key = some d)
      (asked : w.TagType s key ∨ ∃ c ∈ tops, w.Binds c d) (admitted : w.Admits d) :
      Turn tops s { s with graph := s.graph.retainAll s.nested [key] }
  | noteInside {s : State} (owner : String) {key : String} (isTag : w.TagType s key) :
      Turn tops s { s with nested := s.nested ++ [(owner, key)] }
  | noteDefined {s : State} {place key : String} (isTag : w.IsTagKey key) :
      Turn tops s { s with definedAt := s.definedAt ++ [(place, key)] }
  | fold {s : State} (key : String) {target : String} (isTag : w.TagType s target) :
      Turn tops s { s with folded := (key, target) :: s.folded }
  | unfold {s : State} (key : String) :
      Turn tops s { s with folded := s.folded.filter (·.1 != key) }

/-- Any number of turns. -/
abbrev Course (tops : List CursorId) : State → State → Prop := Relation.ReflTransGen (Turn w tops)

variable {w} {tops : List CursorId} {s t u : State} {key : String} {d e : Decl}

/-- What the options ask for where a cursor stands may be marked. -/
theorem admits_of_retains {c : Cursor} (asked : w.retains c d.builtin = true) : w.Admits d := by
  intro builtin
  simpa [builtin] using (Bool.and_eq_true_iff.mp asked).1

theorem Binds.becomes {c : CursorId} (becomes : d.Becomes e) : w.Binds c e ↔ w.Binds c d := by
  have declares : w.Declares c e.body ↔ w.Declares c d.body := by
    have sort := becomes.sort
    cases before : d.body <;> cases after : e.body <;>
      simp_all [Decl.Body.SameSort, Declares]
  constructor <;> rintro ⟨seen, own, declared, asked⟩
  · exact ⟨seen, becomes.key ▸ own, declares.mp declared, becomes.builtin ▸ asked⟩
  · exact ⟨seen, becomes.key.symm ▸ own, declares.mpr declared, becomes.builtin.symm ▸ asked⟩

theorem Turn.mono {tops' : List CursorId} (turn : Turn w tops s t) (more : tops ⊆ tops') :
    Turn w tops' s t := by
  have still {d : Decl} : (∃ c ∈ tops, w.Binds c d) → ∃ c ∈ tops', w.Binds c d :=
    fun ⟨c, mem, binds⟩ => ⟨c, more mem, binds⟩
  cases turn with
  | tell mild => exact .tell mild
  | see key => exact .see key
  | draw drawn numbered => exact .draw drawn numbered
  | enter numbered fresh naming bound admitted plain =>
    refine .enter numbered fresh naming (fun asked => (bound asked).imp id still) admitted
      fun other => ?_
    obtain ⟨outside, top⟩ := plain other
    exact ⟨outside, fun none => top (List.eq_nil_of_subset_nil (none ▸ more))⟩
  | describe found sort settled unnamed => exact .describe found sort settled unnamed
  | mark found asked admitted => exact .mark found (asked.imp id still) admitted
  | noteInside owner isTag => exact .noteInside owner isTag
  | noteDefined isTag => exact .noteDefined isTag
  | fold key isTag => exact .fold key isTag
  | unfold key => exact .unfold key

theorem Course.mono {tops' : List CursorId} (course : Course w tops s t) (more : tops ⊆ tops') :
    Course w tops' s t := by
  induction course with
  | refl => exact .refl
  | tail _ turn ih => exact ih.tail (turn.mono more)

/-! ## What turns keep -/

theorem Turn.grows (turn : Turn w tops s t) : s.graph.Grows t.graph := by
  cases turn with
  | enter _ fresh _ _ _ _ => exact DeclGraph.grows_push fresh
  | describe found sort settled _ => exact DeclGraph.grows_setBody found sort settled
  | mark _ _ _ => exact DeclGraph.grows_retainAll _
  | _ => exact .refl _

theorem Course.grows (course : Course w tops s t) : s.graph.Grows t.graph := by
  induction course with
  | refl => exact .refl _
  | tail _ turn ih => exact ih.trans turn.grows

/-- Which typedefs name unnamed tags, and what is spelled, is known from the start. -/
theorem Course.names (course : Course w tops s t) :
    t.adopted = s.adopted ∧ t.spelled = s.spelled := by
  induction course with
  | refl => exact ⟨rfl, rfl⟩
  | tail _ turn ih => cases turn <;> exact ih

/-- What is entered while no cursor at the top is read is a type. -/
theorem Course.entered (course : Course w [] s t) (known : key ∈ t.graph.keys) :
    key ∈ s.graph.keys ∨ t.graph.namesType key = true := by
  induction course with
  | refl => exact .inl known
  | @tail u v _ turn ih =>
    have later : key ∈ u.graph.keys → key ∈ s.graph.keys ∨ v.graph.namesType key = true :=
      fun known => (ih known).imp id turn.grows.namesType
    cases turn with
    | @enter d _ _ fresh _ _ _ plain =>
      rw [DeclGraph.keys_push fresh, List.mem_append] at known
      refine known.elim later fun new => .inr ?_
      obtain rfl := List.mem_singleton.mp new
      have isType : d.body.isType = true := by
        by_contra other
        exact (plain (by simpa using other)).2 rfl
      exact DeclGraph.namesType_iff.mpr ⟨d, by simp [DeclGraph.get?_push], isType⟩
    | describe _ _ _ _ => exact later (DeclGraph.keys_setBody ▸ known)
    | mark _ _ _ => exact later (DeclGraph.keys_retainAll _ ▸ known)
    | _ => exact later known

variable (w) in
/-- Whether whatever was noted, be it as defined at a place, as inside a record or as what another
repeats, is a tag, and no function or object is one that compilers bring along. -/
structure Traced (s : State) : Prop where
  placed : ∀ {place key}, s.definedAt.lookup place = some key → w.IsTagKey key
  folded : ∀ {key target}, s.folded.lookup key = some target → w.TagType s target
  nested : ∀ {owner key}, (owner, key) ∈ s.nested → w.TagType s key
  outside : ∀ {key d}, s.graph.get? key = some d → d.body.isType = false → d.builtin = false

theorem traced_start : w.Traced .start where
  placed there := by cases there
  folded folds := by cases folds
  nested noted := by cases noted
  outside found := by cases found

theorem TagType.onward (h : w.TagType s key) (grows : s.graph.Grows t.graph) : w.TagType t key :=
  ⟨h.1, grows.namesType h.2⟩

theorem Turn.traced (turn : Turn w tops s t) (traced : w.Traced s) : w.Traced t := by
  have grows := turn.grows
  refine ⟨fun {place key} there => ?_, fun {key target} folds => ?_, fun {owner key} noted => ?_,
    fun {key d} found plain => ?_⟩
  · cases turn with
    | noteDefined isTag =>
      rw [List.lookup_append, Option.or_eq_some_iff] at there
      rcases there with there | ⟨_, there⟩
      · exact traced.placed there
      · simp only [List.lookup_cons, List.lookup_nil] at there
        split at there
        · exact Option.some.inj there ▸ isTag
        · cases there
    | _ => exact traced.placed there
  · cases turn with
    | fold key' isTag =>
      rw [List.lookup_cons] at folds
      split at folds
      · exact Option.some.inj folds ▸ isTag
      · exact traced.folded folds
    | unfold key' =>
      rw [lookup_filter_ne] at folds
      split at folds
      · cases folds
      · exact traced.folded folds
    | _ => exact (traced.folded folds).onward grows
  · cases turn with
    | noteInside owner' isTag =>
      rcases List.mem_append.mp noted with noted | noted
      · exact traced.nested noted
      · obtain ⟨_, rfl⟩ : owner = owner' ∧ key = _ := by simpa using noted
        exact isTag
    | _ => exact (traced.nested noted).onward grows
  · cases turn with
    | enter _ fresh _ _ _ outside =>
      rw [DeclGraph.get?_push] at found
      split at found
      · obtain rfl := Option.some.inj found
        exact (outside plain).1
      · exact traced.outside found plain
    | describe there sort settled _ =>
      obtain ⟨d₀, found₀, becomes⟩ := grows.back (by simp [DeclGraph.keys_setBody]) found
      exact becomes.builtin.trans
        (traced.outside found₀ (becomes.sort.isType.symm.trans plain))
    | mark _ _ _ =>
      obtain ⟨d₀, found₀, becomes⟩ := grows.back (by simp [DeclGraph.keys_retainAll]) found
      exact becomes.builtin.trans
        (traced.outside found₀ (becomes.sort.isType.symm.trans plain))
    | _ => exact traced.outside found plain

theorem Course.traced (course : Course w tops s t) (traced : w.Traced s) : w.Traced t := by
  induction course with
  | refl => exact traced
  | tail _ turn ih => exact turn.traced ih

/-- What a key stands for is a tag where the key is one. -/
theorem Traced.isTagKey (traced : w.Traced s) (isTag : w.IsTagKey key) :
    w.IsTagKey ((s.folded.lookup key).getD key) := by
  cases folds : s.folded.lookup key with
  | none => exact isTag
  | some target => exact (traced.folded folds).1

/-- A key stands for itself where nothing is declared under what it stands for. -/
theorem Traced.stands_for_itself (traced : w.Traced s) (key : String)
    (absent : s.graph.get? ((s.folded.lookup key).getD key) = none) :
    (s.folded.lookup key).getD key = key := by
  cases folds : s.folded.lookup key with
  | none => rfl
  | some target =>
    have known := DeclGraph.mem_keys_of_namesType (traced.folded folds).2
    rw [folds, Option.getD_some] at absent
    exact absurd known (DeclGraph.get?_eq_none_iff.mp absent)

end Collector

end HeaderBind
