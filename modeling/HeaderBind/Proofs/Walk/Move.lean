import HeaderBind.Collect
import HeaderBind.Proofs.Walk.Growth
import Mathlib.Data.Finset.Card
import Mathlib.Logic.Relation
/-!
# The moves of a walk

Whatever is collected, the state changes by few kinds of moves: a declaration is entered, described
or marked, a tag is noted inside a record, a place of definition is noted, a key is folded into
another or unfolded. From what one move keeps follows what any number of them keeps.
-/
namespace HeaderBind.Collector

open Collect (State)

variable (w : Collector)

/-- Whether a cursor below a record is an unnamed tag: a member, or the type of one. -/
def isPart (c : CursorId) : Bool :=
  (w.table.cursor c).kind.isTag && (bareName (w.table.cursor c).name).isEmpty

/-- Whether a key is that of a cursor's definition, or the key first defined at the place of a
cursor with that key. -/
def StandsFor (s : State) (c : CursorId) (key : String) : Prop :=
  key = w.table.keyOf (w.table.definitionOf c) ∨
    ∃ x, w.table.keyOf x = w.table.keyOf (w.table.definitionOf c) ∧
      s.definedAt.lookup (w.table.cursor x).place = some key

/-- Whether a cursor stands directly below the definition of a record with the key. -/
def Inside (owner : String) (c : CursorId) : Prop :=
  ∃ decl, (w.table.cursor decl).defines = true ∧ w.table.keyOf decl = owner ∧
    c ∈ (w.table.cursor decl).children

/-- Whether a key stands for an unnamed tag directly inside the definition of a record. -/
def PartOf (s : State) (owner key : String) : Prop :=
  ∃ c, w.Inside owner c ∧ w.isPart c = true ∧ w.StandsFor s c key

/-- Whether two states agree in the graph and in all that was noted about its keys. -/
structure Aside (s t : State) : Prop where
  graph : t.graph = s.graph
  nested : t.nested = s.nested
  definedAt : t.definedAt = s.definedAt
  folded : t.folded = s.folded

/-- One change of the state. A tag is noted inside a record only in states where the walk goes on. -/
inductive Move (stop : State → Bool) : State → State → Prop where
  | enter {s : State} {d : Decl} (fresh : d.key ∉ s.graph.keys) (unfrozen : s.graph.frozen = false)
      (known : ∀ key ∈ d.mentions, s.graph.namesType key = true) :
      Move stop s { s with graph := s.graph.push d fresh }
  | describe {s : State} {d : Decl} {body : Decl.Body} (found : s.graph.get? d.key = some d)
      (sort : d.body.SameSort body) (settled : d.body.settled = true → body.settled = true)
      (known : ∀ key ∈ ({ d with body := body } : Decl).mentions, s.graph.namesType key = true) :
      Move stop s { s with graph := s.graph.setBody d.key body }
  | mark {s : State} (keys : List String) :
      Move stop s { s with graph := s.graph.retainAll s.nested keys }
  | noteInside {s : State} {owner key : String} (passed : stop s = false)
      (known : s.graph.namesType key = true) (part : w.PartOf s owner key) :
      Move stop s { s with nested := s.nested ++ [(owner, key)] }
  | noteDefined {s : State} {place key : String} (new : s.definedAt.lookup place = none)
      (settled : s.graph.settled key = true) :
      Move stop s { s with definedAt := s.definedAt ++ [(place, key)] }
  | fold {s : State} {c : CursorId} {target : String}
      (new : s.folded.lookup (w.table.keyOf c) = none) (known : s.graph.namesType target = true)
      (repeats : s.definedAt.lookup (w.table.cursor c).place = some target) :
      Move stop s { s with folded := (w.table.keyOf c, target) :: s.folded }
  | unfold {s : State} (key : String) :
      Move stop s { s with folded := s.folded.filter (·.1 != key) }
  | aside {s t : State} (same : Aside s t) : Move stop s t

/-- Any number of moves. -/
abbrev Path (stop : State → Bool) : State → State → Prop := Relation.ReflTransGen (Move w stop)

variable {w} {stop : State → Bool} {s t u : State}

/-! ## What moves keep -/

theorem Move.grows (move : Move w stop s t) : s.graph.Grows t.graph := by
  cases move with
  | enter fresh _ _ => exact DeclGraph.grows_push fresh
  | describe found sort settled _ => exact DeclGraph.grows_setBody found sort settled
  | mark keys => exact DeclGraph.grows_retainAll keys
  | aside same => exact same.graph ▸ .refl _
  | _ => exact .refl _

theorem Move.nested_subset (move : Move w stop s t) : s.nested ⊆ t.nested := by
  cases move with
  | noteInside _ _ _ => exact List.subset_append_left _ _
  | aside same => exact same.nested ▸ List.Subset.refl _
  | _ => exact List.Subset.refl _

/-- The first definition at a place stays. -/
theorem Move.definedAt (move : Move w stop s t) {place key : String}
    (there : s.definedAt.lookup place = some key) : t.definedAt.lookup place = some key := by
  cases move with
  | noteDefined new _ => simp [List.lookup_append, there]
  | aside same => rwa [same.definedAt]
  | _ => exact there

theorem Path.grows (path : Path w stop s t) : s.graph.Grows t.graph := by
  induction path with
  | refl => exact .refl _
  | tail _ move ih => exact ih.trans move.grows

theorem Path.nested_subset (path : Path w stop s t) : s.nested ⊆ t.nested := by
  induction path with
  | refl => exact List.Subset.refl _
  | tail _ move ih => exact List.Subset.trans ih move.nested_subset

theorem Path.definedAt (path : Path w stop s t) {place key : String}
    (there : s.definedAt.lookup place = some key) : t.definedAt.lookup place = some key := by
  induction path with
  | refl => exact there
  | tail _ move ih => exact move.definedAt ih

theorem StandsFor.onward {c : CursorId} {key : String} (h : w.StandsFor s c key)
    (path : Path w stop s t) : w.StandsFor t c key :=
  h.imp id fun ⟨x, same, there⟩ => ⟨x, same, path.definedAt there⟩

theorem PartOf.onward {owner key : String} (h : w.PartOf s owner key) (path : Path w stop s t) :
    w.PartOf t owner key :=
  let ⟨c, inside, isPart, stands⟩ := h
  ⟨c, inside, isPart, stands.onward path⟩

/-! ## Sound states -/

variable (w) in
/-- What holds at every point of a walk: types mention what types can mention, and keys that were
noted, be it as defined at a place, as inside a record or as what another repeats, are declared. What
was noted inside a record is a part of it. -/
structure Sound (s : State) : Prop where
  closed : s.graph.Closed
  placed : ∀ {place key}, s.definedAt.lookup place = some key → s.graph.settled key = true
  folded : ∀ {key target}, s.folded.lookup key = some target → s.graph.namesType target = true ∧
    ∃ c, w.table.keyOf c = key ∧ s.definedAt.lookup (w.table.cursor c).place = some target
  nested : ∀ {owner key}, (owner, key) ∈ s.nested → s.graph.namesType key = true
  parts : ∀ {owner key}, (owner, key) ∈ s.nested → w.PartOf s owner key

theorem sound_start : Sound w .start where
  closed d hd := by cases hd
  placed h := by cases h
  folded h := by cases h
  nested h := by cases h
  parts h := by cases h

theorem lookup_filter_ne {entries : List (String × String)} {key k : String} :
    (entries.filter (·.1 != key)).lookup k = if k = key then none else entries.lookup k := by
  induction entries with
  | nil => simp
  | cons e entries ih =>
    obtain ⟨a, b⟩ := e
    rw [List.filter_cons]
    by_cases same : a = key
    · simp only [same, bne_self_eq_false, Bool.false_eq_true, if_false, ih, List.lookup_cons]
      split
      · rfl
      · rename_i other
        rw [beq_eq_false_iff_ne.mpr other]
    · simp only [bne_iff_ne, ne_eq, same, not_false_eq_true, if_true, List.lookup_cons, ih]
      by_cases hit : k = a
      · simp [hit, same]
      · simp [beq_eq_false_iff_ne.mpr hit]

theorem Move.closed (move : Move w stop s t) (closed : s.graph.Closed) : t.graph.Closed := by
  intro d hd key hkey
  have grows := move.grows
  have found := DeclGraph.get?_eq_some_iff.mpr ⟨hd, rfl⟩
  cases move with
  | @enter e fresh unfrozen known =>
    rw [DeclGraph.get?_push] at found
    split at found
    · obtain rfl := Option.some.inj found
      exact grows.namesType (known key hkey)
    · exact grows.namesType (closed.mentions found key hkey)
  | @describe e body at' sort settled known =>
    rw [DeclGraph.get?_setBody, Option.map_eq_some_iff] at found
    obtain ⟨d₀, found₀, eq⟩ := found
    rw [← eq] at hkey
    split at hkey
    · rename_i same
      rw [same] at found₀
      obtain rfl := Option.some.inj (at'.symm.trans found₀)
      exact grows.namesType (known key hkey)
    · exact grows.namesType (closed.mentions found₀ key hkey)
  | mark keys =>
    obtain ⟨d₀, found₀, eq⟩ := DeclGraph.retainAll_back found
    have same : d.mentions = d₀.mentions := by rw [eq]; rfl
    exact grows.namesType (closed.mentions found₀ key (same ▸ hkey))
  | aside same =>
    rw [same.graph] at found ⊢
    exact closed.mentions found key hkey
  | _ => exact closed.mentions found key hkey

theorem Move.sound (move : Move w stop s t) (sound : Sound w s) : Sound w t where
  closed := move.closed sound.closed
  placed := by
    intro place key there
    have grows := move.grows
    cases move with
    | @noteDefined place' key' new settled =>
      rw [List.lookup_append, Option.or_eq_some_iff] at there
      rcases there with there | ⟨_, there⟩
      · exact sound.placed there
      · simp only [List.lookup_cons, List.lookup_nil] at there
        split at there
        · exact Option.some.inj there ▸ settled
        · cases there
    | aside same => exact grows.settled (sound.placed (same.definedAt ▸ there))
    | _ => exact grows.settled (sound.placed there)
  folded := by
    intro key target folds
    have grows := move.grows
    have keeps (before : s.folded.lookup key = some target) :
        t.graph.namesType target = true ∧
          ∃ c, w.table.keyOf c = key ∧
            t.definedAt.lookup (w.table.cursor c).place = some target := by
      obtain ⟨known, c, hc, there⟩ := sound.folded before
      exact ⟨grows.namesType known, c, hc, move.definedAt there⟩
    cases move with
    | @fold c target' new known repeats =>
      rw [List.lookup_cons] at folds
      split at folds
      · rename_i same
        obtain rfl := Option.some.inj folds
        exact ⟨known, c, (eq_of_beq same).symm, repeats⟩
      · exact keeps folds
    | unfold key' =>
      rw [lookup_filter_ne] at folds
      split at folds
      · cases folds
      · exact keeps folds
    | aside same => exact keeps (same.folded ▸ folds)
    | _ => exact keeps folds
  nested := by
    intro owner key noted
    have grows := move.grows
    cases move with
    | @noteInside owner' key' passed known part =>
      rcases List.mem_append.mp noted with noted | noted
      · exact sound.nested noted
      · obtain ⟨rfl, rfl⟩ : owner = owner' ∧ key = key' := by simpa using noted
        exact known
    | aside same => exact grows.namesType (sound.nested (same.nested ▸ noted))
    | _ => exact grows.namesType (sound.nested noted)
  parts := by
    intro owner key noted
    have stays {owner key : String} (before : (owner, key) ∈ s.nested) : w.PartOf t owner key :=
      (sound.parts before).onward (.single move)
    cases move with
    | @noteInside owner' key' passed known part =>
      rcases List.mem_append.mp noted with noted | noted
      · exact stays noted
      · obtain ⟨rfl, rfl⟩ : owner = owner' ∧ key = key' := by simpa using noted
        exact part
    | aside same => exact stays (same.nested ▸ noted)
    | _ => exact stays noted

theorem Path.sound (path : Path w stop s t) (sound : Sound w s) : Sound w t := by
  induction path with
  | refl => exact sound
  | tail _ move ih => exact move.sound ih

/-! ## Going on -/

variable (w) in
/-- A path on which keys stay folded, but for some that may be unfolded. -/
structure Onward (stop : State → Bool) (open' : List String) (s t : State) : Prop where
  path : Path w stop s t
  folded : ∀ {key target}, key ∉ open' → s.folded.lookup key = some target →
    t.folded.lookup key = some target

namespace Onward

variable {open' : List String}

theorem refl (s : State) : Onward w stop open' s s := ⟨.refl, fun _ => id⟩

theorem trans (h : Onward w stop open' s t) (h' : Onward w stop open' t u) :
    Onward w stop open' s u :=
  ⟨h.path.trans h'.path, fun shut before => h'.folded shut (h.folded shut before)⟩

theorem widen {open'' : List String} (h : Onward w stop open' s t) (wider : open' ⊆ open'') :
    Onward w stop open'' s t :=
  ⟨h.path, fun shut => h.folded fun mem => shut (wider mem)⟩

/-- Keys that were not folded to begin with need not stay folded. -/
theorem close (h : Onward w stop open' s t) (new : ∀ key ∈ open', s.folded.lookup key = none) :
    Onward w stop [] s t := by
  refine ⟨h.path, fun {key target} _ before => ?_⟩
  by_cases mem : key ∈ open'
  · rw [new key mem] at before
    cases before
  · exact h.folded mem before

theorem sound (h : Onward w stop open' s t) (sound : Sound w s) : Sound w t := h.path.sound sound

theorem namesType (h : Onward w stop open' s t) {key : String}
    (known : s.graph.namesType key = true) : t.graph.namesType key = true :=
  h.path.grows.namesType known

end Onward

/-! ## The tags inside a record -/

variable (w)

/-- Whether all unnamed tags below the cursor of a record are noted inside it. -/
def PartsNoted (s : State) (owner : String) (decl : CursorId) : Prop :=
  ∀ c ∈ (w.table.cursor decl).children, w.isPart c = true →
    ∃ key, (owner, key) ∈ s.nested ∧ w.StandsFor s c key

/-- Whether a key is that of a definition whose unnamed tags are all noted inside it. -/
def Read (s : State) (owner : String) : Prop :=
  ∃ decl, (w.table.cursor decl).defines = true ∧ w.table.keyOf decl = owner ∧
    w.PartsNoted s owner decl

variable {w}

theorem PartsNoted.onward {owner : String} {decl : CursorId} (h : w.PartsNoted s owner decl)
    (path : Path w stop s t) : w.PartsNoted t owner decl := by
  intro c hc part
  obtain ⟨key, noted, stands⟩ := h c hc part
  exact ⟨key, path.nested_subset noted, stands.onward path⟩

theorem Read.onward {owner : String} (h : w.Read s owner) (path : Path w stop s t) :
    w.Read t owner := by
  obtain ⟨decl, defines, same, noted⟩ := h
  exact ⟨decl, defines, same, noted.onward path⟩

variable (w) in
/-- Whether what was entered is finished, but for some keys: it names types, nothing under a key
that was folded waits for more, and the records that have become complete are read. -/
structure Finished (open' : List String) (s t : State) : Prop where
  read : ∀ {key}, key ∉ open' → t.graph.isComplete key = true →
    s.graph.isComplete key = true ∨ w.Read t key
  entered : ∀ {key}, key ∉ open' → key ∉ s.graph.keys → key ∈ t.graph.keys →
    t.graph.namesType key = true ∧ (t.graph.settled key = true ∨ s.folded.lookup key = none)

namespace Finished

variable {open' : List String}

theorem of_graph (same : t.graph = s.graph) : Finished w open' s t where
  read _ complete := .inl (same ▸ complete)
  entered _ new known := absurd (same ▸ known) new

theorem trans (h : Finished w open' s t) (h' : Finished w open' t u)
    (before : Onward w stop open' s t) (after : Path w stop t u) : Finished w open' s u where
  read {key} shut complete := by
    rcases h'.read shut complete with complete | read
    · exact (h.read shut complete).imp id (·.onward after)
    · exact .inr read
  entered {key} shut new known := by
    by_cases between : key ∈ t.graph.keys
    · obtain ⟨isType, rest⟩ := h.entered shut new between
      exact ⟨after.grows.namesType isType, rest.imp after.grows.settled id⟩
    · obtain ⟨isType, rest⟩ := h'.entered shut between known
      refine ⟨isType, rest.imp id fun open' => ?_⟩
      rw [Option.eq_none_iff_forall_ne_some] at open' ⊢
      exact fun target folded => open' target (before.folded shut folded)

theorem push {d : Decl} (fresh : d.key ∉ s.graph.keys)
    (finished : d.key ∈ open' ∨
      d.isRecord = false ∧ d.body.isType = true ∧ d.body.settled = true) :
    Finished w open' s { s with graph := s.graph.push d fresh } where
  read {key} shut complete := by
    obtain ⟨e, found, isRecord, settled⟩ := DeclGraph.isComplete_iff.mp complete
    rw [DeclGraph.get?_push] at found
    split at found
    · rename_i same
      obtain rfl := Option.some.inj found
      rcases finished with mem | ⟨other, _⟩
      · exact absurd (same ▸ mem) shut
      · simp [other] at isRecord
    · exact .inl (DeclGraph.isComplete_iff.mpr ⟨e, found, isRecord, settled⟩)
  entered {key} shut new known := by
    have there := DeclGraph.keys_push fresh ▸ known
    rcases List.mem_append.mp there with there | there
    · exact absurd there new
    · obtain rfl := List.mem_singleton.mp there
      obtain ⟨_, isType, settled⟩ := finished.resolve_left shut
      have found : (s.graph.push d fresh).get? d.key = some d := by simp [DeclGraph.get?_push]
      exact ⟨DeclGraph.namesType_iff.mpr ⟨d, found, isType⟩,
        .inl (DeclGraph.settled_iff.mpr ⟨d, found, settled⟩)⟩

theorem setBody {d : Decl} {body : Decl.Body} (found : s.graph.get? d.key = some d)
    (sort : d.body.SameSort body)
    (finished : d.key ∈ open' ∨ (body.settled = true → d.body.settled = true)) :
    Finished w open' s { s with graph := s.graph.setBody d.key body } where
  read {key} shut complete := by
    obtain ⟨e, after, isRecord, settled⟩ := DeclGraph.isComplete_iff.mp complete
    rw [DeclGraph.get?_setBody, Option.map_eq_some_iff] at after
    obtain ⟨e₀, before, rfl⟩ := after
    split at isRecord
    · rename_i same
      rw [same] at before
      obtain rfl := Option.some.inj (found.symm.trans before)
      have still := finished.resolve_left (same ▸ shut)
      simp only [same, if_true] at settled
      refine .inl (DeclGraph.isComplete_iff.mpr ⟨d, same ▸ before, ?_, still settled⟩)
      exact sort.isRecord.symm.trans isRecord
    · rename_i other
      simp only [other, if_false] at settled
      exact .inl (DeclGraph.isComplete_iff.mpr ⟨e₀, before, isRecord, settled⟩)
  entered {key} shut new known := absurd (DeclGraph.keys_setBody ▸ known) new

theorem mark {keys : List String} :
    Finished w open' s { s with graph := s.graph.retainAll s.nested keys } where
  read {key} shut complete := by
    obtain ⟨e, after, isRecord, settled⟩ := DeclGraph.isComplete_iff.mp complete
    obtain ⟨d, before, eq⟩ := DeclGraph.retainAll_back after
    rw [eq] at isRecord settled
    exact .inl (DeclGraph.isComplete_iff.mpr ⟨d, before, isRecord, settled⟩)
  entered {key} shut new known := absurd (DeclGraph.keys_retainAll keys ▸ known) new

theorem widen {open'' : List String} (h : Finished w open' s t) (wider : open' ⊆ open'') :
    Finished w open'' s t :=
  ⟨fun shut => h.read fun mem => shut (wider mem), fun shut => h.entered fun mem => shut (wider mem)⟩

/-- What is finished under each of the keys left open is finished. -/
theorem close (h : Finished w open' s t)
    (read : ∀ key ∈ open', t.graph.isComplete key = true →
      s.graph.isComplete key = true ∨ w.Read t key)
    (entered : ∀ key ∈ open', key ∉ s.graph.keys → key ∈ t.graph.keys →
      t.graph.namesType key = true ∧ (t.graph.settled key = true ∨ s.folded.lookup key = none)) :
    Finished w [] s t where
  read {key} _ := by
    by_cases mem : key ∈ open'
    · exact read key mem
    · exact h.read mem
  entered {key} _ := by
    by_cases mem : key ∈ open'
    · exact entered key mem
    · exact h.entered mem

end Finished

/-! ## What is left to read -/

variable (w)

/-- The cursors whose keys are not settled. -/
def unsettled (s : State) : Finset CursorId :=
  (Finset.range w.table.cursors.size).filter fun c => s.graph.settled (w.table.keyOf c) = false

/-- The cursors whose keys are not folded. -/
def unfolded (s : State) : Finset CursorId :=
  (Finset.range w.table.cursors.size).filter fun c => s.folded.lookup (w.table.keyOf c) = none

/-- How many keys may still be opened, be it to be entered or on trial. -/
def unread (s : State) : Nat := (w.unsettled s).card + (w.unfolded s).card

variable {w}

theorem unread_le (s : State) : w.unread s ≤ 2 * w.table.cursors.size := by
  have all (p : CursorId → Prop) [DecidablePred p] :
      ((Finset.range w.table.cursors.size).filter p).card ≤ w.table.cursors.size := by
    simpa using Finset.card_filter_le (Finset.range w.table.cursors.size) p
  have := all fun c => s.graph.settled (w.table.keyOf c) = false
  have := all fun c => s.folded.lookup (w.table.keyOf c) = none
  simp only [unread, unsettled, unfolded]
  omega

namespace Onward

theorem unsettled_subset (h : Onward w stop open' s t) : w.unsettled t ⊆ w.unsettled s := by
  refine Finset.monotone_filter_right _ fun c _ left => ?_
  rw [← Bool.not_eq_true] at left ⊢
  exact fun settled => left (h.path.grows.settled settled)

theorem unfolded_subset (h : Onward w stop [] s t) : w.unfolded t ⊆ w.unfolded s := by
  refine Finset.monotone_filter_right _ fun c _ left => ?_
  rw [Option.eq_none_iff_forall_ne_some]
  intro target before
  have after := h.folded (List.not_mem_nil) before
  rw [left] at after
  cases after

theorem unread_le (h : Onward w stop [] s t) : w.unread t ≤ w.unread s :=
  Nat.add_le_add (Finset.card_le_card h.unsettled_subset) (Finset.card_le_card h.unfolded_subset)

/-- Settling the key of a cursor leaves less to read. -/
theorem unread_lt_of_settled (h : Onward w stop [] s t) {c : CursorId}
    (inTable : c < w.table.cursors.size) (before : s.graph.settled (w.table.keyOf c) = false)
    (after : t.graph.settled (w.table.keyOf c) = true) : w.unread t < w.unread s := by
  refine Nat.add_lt_add_of_lt_of_le (Finset.card_lt_card ?_) (Finset.card_le_card h.unfolded_subset)
  refine (Finset.ssubset_iff_of_subset h.unsettled_subset).mpr ⟨c, ?_, ?_⟩
  · simp [unsettled, inTable, before]
  · simp [unsettled, after]

/-- Folding the key of a cursor leaves less to read. -/
theorem unread_lt_of_folded (h : Onward w stop [] s t) {c : CursorId}
    (inTable : c < w.table.cursors.size) (before : s.folded.lookup (w.table.keyOf c) = none)
    {target : String} (after : t.folded.lookup (w.table.keyOf c) = some target) :
    w.unread t < w.unread s := by
  refine Nat.add_lt_add_of_le_of_lt (Finset.card_le_card h.unsettled_subset) (Finset.card_lt_card ?_)
  refine (Finset.ssubset_iff_of_subset h.unfolded_subset).mpr ⟨c, ?_, ?_⟩
  · simp [unfolded, inTable, before]
  · simp [unfolded, after]

end Onward

end HeaderBind.Collector
