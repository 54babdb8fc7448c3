import HeaderBind.DepthFirst
import Mathlib.Data.List.Nodup
import Mathlib.Logic.Relation
/-!
# What a depth-first search leaves, and in which order

`Sealed` is the invariant of the search: every node that was left stands, last first, in front of
all that it leads to. From it follow that an order holds the nodes searched from, each once, and
that what a node leads to comes before it. `Sooner` says which of any two nodes comes first: the
search goes down to the first node that leads to one of them only.
-/
namespace HeaderBind.DepthFirst

variable {α : Type} {next : α → List α}

/-- Whether the second node can be reached from the first. -/
abbrev Leads (next : α → List α) : α → α → Prop :=
  Relation.ReflTransGen fun a b => b ∈ next a

theorem leads_iff {a b : α} : Leads next a b ↔ a = b ∨ ∃ c ∈ next a, Leads next c b :=
  Relation.ReflTransGen.cases_head_iff

/-- Nodes left, last first: none twice, and behind each all that it leads to. -/
inductive Sealed (next : α → List α) : List α → Prop
  | nil : Sealed next []
  | cons {node : α} {left : List α} : node ∉ left → (∀ n ∈ next node, n ∈ left) →
      Sealed next left → Sealed next (node :: left)

theorem Sealed.nodup {left : List α} (h : Sealed next left) : left.Nodup := by
  induction h with
  | nil => exact List.nodup_nil
  | cons fresh _ _ ih => exact List.nodup_cons.mpr ⟨fresh, ih⟩

theorem Sealed.step {left : List α} (h : Sealed next left) {a b : α} (ha : a ∈ left)
    (hb : b ∈ next a) : b ∈ left := by
  induction h with
  | nil => cases ha
  | @cons node left _ behind _ ih =>
    rcases List.mem_cons.mp ha with rfl | ha
    · exact List.mem_cons_of_mem _ (behind b hb)
    · exact List.mem_cons_of_mem _ (ih ha)

theorem Sealed.closed {left : List α} (h : Sealed next left) {a b : α} (ha : a ∈ left)
    (hab : Leads next a b) : b ∈ left := by
  induction hab with
  | refl => exact ha
  | tail _ hb ih => exact h.step ih hb

theorem Sealed.precedes {left : List α} (h : Sealed next left) {a b : α} (ha : a ∈ left)
    (hab : Leads next a b) (ne : a ≠ b) : [a, b].Sublist left := by
  induction h with
  | nil => cases ha
  | @cons node left _ behind sealedLeft ih =>
    rcases List.mem_cons.mp ha with rfl | ha
    · obtain rfl | ⟨c, hc, hcb⟩ := leads_iff.mp hab
      · exact absurd rfl ne
      · have hb : b ∈ left := sealedLeft.closed (behind c hc) hcb
        exact (List.singleton_sublist.mpr hb).cons_cons a
    · exact (ih ha).cons node

/-! ## The order of two members of a list -/

/-- Two members of a list stand in one order or in the other. -/
theorem sublist_total {l : List α} {a b : α} (ha : a ∈ l) (hb : b ∈ l) (ne : a ≠ b) :
    [a, b].Sublist l ∨ [b, a].Sublist l := by
  induction l with
  | nil => cases ha
  | cons x l ih =>
    rcases List.mem_cons.mp ha with rfl | inTail
    · have hb : b ∈ l := (List.mem_cons.mp hb).resolve_left (Ne.symm ne)
      exact .inl ((List.singleton_sublist.mpr hb).cons_cons a)
    · rcases List.mem_cons.mp hb with rfl | hb
      · exact .inr ((List.singleton_sublist.mpr inTail).cons_cons b)
      · exact (ih inTail hb).imp (·.cons x) (·.cons x)

/-- No two members of a list without repetitions stand in both orders. -/
theorem sublist_asymm {l : List α} (unique : l.Nodup) {a b : α} (hab : [a, b].Sublist l) :
    ¬ [b, a].Sublist l := by
  induction l with
  | nil => cases hab
  | cons x l ih =>
    obtain ⟨fresh, unique⟩ := List.nodup_cons.mp unique
    intro hba
    cases hab with
    | cons _ hab =>
      cases hba with
      | cons _ hba => exact ih unique hab hba
      | cons_cons _ _ => exact fresh (hab.subset (by simp))
    | cons_cons _ hb =>
      cases hba with
      | cons _ hba => exact fresh (hba.subset (by simp))
      | cons_cons _ _ => exact fresh (hb.subset (by simp))

/-- What was left later stands in front. -/
theorem newer_precedes {left out : List α} (grows : left <:+ out) {a b : α} (ha : a ∈ out)
    (new : a ∉ left) (hb : b ∈ left) : [a, b].Sublist out := by
  obtain ⟨added, rfl⟩ := grows
  have ha : a ∈ added := (List.mem_append.mp ha).resolve_right new
  exact (List.singleton_sublist.mpr ha).append (List.singleton_sublist.mpr hb)

/-! ## What a visit does -/

/-- What a successful visit of `nodes` made of the nodes left before it. -/
structure Visited (next : α → List α) (unopened left nodes out : List α) : Prop where
  isSealed : Sealed next out
  grows : left <:+ out
  visits : ∀ n ∈ nodes, n ∈ out
  only : ∀ n ∈ out, n ∈ left ∨ (n ∈ unopened ∧ ∃ m ∈ nodes, Leads next m n)

theorem Visited.mem_iff {unopened left nodes out : List α}
    (v : Visited next unopened left nodes out) {n : α} : n ∈ out ↔ n ∈ left ∨ ∃ m ∈ nodes, Leads next m n := by
  constructor
  · intro hn
    rcases v.only n hn with old | ⟨_, reached⟩
    · exact .inl old
    · exact .inr reached
  · rintro (old | ⟨m, hm, hmn⟩)
    · exact v.grows.subset old
    · exact v.isSealed.closed (v.visits m hm) hmn

/-- A node that no other on the path leads to can be left after all that it leads to. -/
theorem Visited.sealed_cons [DecidableEq α] {unopened left inner : List α} {node : α}
    (v : Visited next (unopened.erase node) left (next node) inner) (unique : unopened.Nodup)
    (fresh : node ∉ left) : Sealed next (node :: inner) := by
  refine .cons ?_ v.visits v.isSealed
  intro hn
  rcases v.only node hn with old | ⟨again, _⟩
  · exact fresh old
  · exact unique.not_mem_erase again

theorem visited_of_visit [DecidableEq α] {unopened path left nodes out : List α}
    (unique : unopened.Nodup) (before : Sealed next left)
    (h : visit next unopened path left nodes = .ok out) :
    Visited next unopened left nodes out := by
  fun_induction visit next unopened path left nodes generalizing out with
  | case1 unopened path left =>
    cases h
    exact ⟨before, List.suffix_refl _, by simp, fun n hn => .inl hn⟩
  | case2 unopened path left node rest known ih =>
    obtain ⟨isSealed, grows, visits, only⟩ := ih unique before h
    refine ⟨isSealed, grows, ?_, ?_⟩
    · intro n hn
      rcases List.mem_cons.mp hn with rfl | hn
      · exact grows.subset known
      · exact visits n hn
    · intro n hn
      rcases only n hn with old | ⟨open', m, hm, hmn⟩
      · exact .inl old
      · exact .inr ⟨open', m, List.mem_cons_of_mem _ hm, hmn⟩
  | case3 unopened path left node rest fresh opens _ _ inner hinner ihInner ihRest =>
    have down := ihInner (unique.erase node) before hinner
    have along := ihRest unique (down.sealed_cons unique fresh) h
    refine ⟨along.isSealed, down.grows.trans ((List.suffix_cons _ _).trans along.grows), ?_, ?_⟩
    · intro n hn
      rcases List.mem_cons.mp hn with rfl | hn
      · exact along.grows.subset List.mem_cons_self
      · exact along.visits n hn
    · intro n hn
      rcases along.only n hn with new | ⟨open', m, hm, hmn⟩
      · rcases List.mem_cons.mp new with rfl | new
        · exact .inr ⟨opens, n, List.mem_cons_self, .refl⟩
        · rcases down.only n new with old | ⟨open', m, hm, hmn⟩
          · exact .inl old
          · exact .inr ⟨List.mem_of_mem_erase open', node, List.mem_cons_self, .head hm hmn⟩
      · exact .inr ⟨open', m, List.mem_cons_of_mem _ hm, hmn⟩
  | case4 => cases h
  | case5 => cases h

/-! ## Which of two nodes is left first -/

/-- Whether the search from `nodes` leaves `first` before `second`, given that it has left neither:
it goes down to the first node that leads to one of them only. -/
inductive Sooner (next : α → List α) (first second : α) : List α → Prop
  | pass {node : α} {rest : List α} : ¬ Leads next node first → ¬ Leads next node second →
      Sooner next first second rest → Sooner next first second (node :: rest)
  | only {node : α} {rest : List α} : Leads next node first → ¬ Leads next node second →
      Sooner next first second (node :: rest)
  | own {rest : List α} : Leads next second first → Sooner next first second (second :: rest)
  | inside {node : α} {rest : List α} : node ≠ first → node ≠ second → Leads next node first →
      Leads next node second → Sooner next first second (next node) →
      Sooner next first second (node :: rest)

/-- `first` was left, and `second` was not left before it. -/
def Ahead (first second : α) (out : List α) : Prop :=
  first ∈ out ∧ (second ∈ out → [second, first].Sublist out)

theorem ahead_of_left {first second : α} {left out : List α} (grows : left <:+ out)
    (hf : first ∈ left) (hs : second ∉ left) : Ahead first second out :=
  ⟨grows.subset hf, fun later => newer_precedes grows later hs hf⟩

theorem not_ahead_of_left {first second : α} {left out : List α} (unique : out.Nodup)
    (grows : left <:+ out) (hf : first ∉ left) (hs : second ∈ left) :
    ¬ Ahead first second out := by
  rintro ⟨later, order⟩
  exact sublist_asymm unique (newer_precedes grows later hf hs) (order (grows.subset hs))

theorem ahead_iff_of_grows {first second : α} {left out : List α} (unique : out.Nodup)
    (grows : left <:+ out) (hf : first ∈ left) (hs : second ∈ left) (ne : first ≠ second) :
    Ahead first second left ↔ Ahead first second out := by
  constructor
  · rintro ⟨_, order⟩
    exact ⟨grows.subset hf, fun _ => (order hs).trans grows.sublist⟩
  · rintro ⟨_, order⟩
    refine ⟨hf, fun _ => ?_⟩
    rcases sublist_total hs hf (Ne.symm ne) with h | h
    · exact h
    · exact absurd (order (grows.subset hs)) (sublist_asymm unique (h.trans grows.sublist))

section

variable {first second node : α} {rest : List α}

theorem sooner_pass_iff (nf : ¬ Leads next node first) (ns : ¬ Leads next node second) :
    Sooner next first second (node :: rest) ↔ Sooner next first second rest := by
  constructor
  · intro sooner
    cases sooner with
    | pass _ _ tail => exact tail
    | only l _ => exact absurd l nf
    | own l => exact absurd l nf
    | inside _ _ l _ _ => exact absurd l nf
  · exact .pass nf ns

theorem not_sooner_of_leads (nf : ¬ Leads next node first) (ls : Leads next node second) :
    ¬ Sooner next first second (node :: rest) := by
  intro sooner
  cases sooner with
  | pass _ ns _ => exact ns ls
  | only l _ => exact nf l
  | own l => exact nf l
  | inside _ _ l _ _ => exact nf l

theorem not_sooner_self (ne : first ≠ second) (ls : Leads next first second) :
    ¬ Sooner next first second (first :: rest) := by
  intro sooner
  cases sooner with
  | pass nf _ _ => exact nf .refl
  | only _ ns => exact ns ls
  | own _ => exact ne rfl
  | inside other _ _ _ _ => exact other rfl

theorem sooner_inside_iff (nf : node ≠ first) (ns : node ≠ second) (lf : Leads next node first)
    (ls : Leads next node second) :
    Sooner next first second (node :: rest) ↔ Sooner next first second (next node) := by
  constructor
  · intro sooner
    cases sooner with
    | pass n _ _ => exact absurd lf n
    | only _ n => exact absurd ls n
    | own _ => exact absurd rfl ns
    | inside _ _ _ _ down => exact down
  · exact .inside nf ns lf ls

end

/-- A node that no other leads to is left after all nodes that the search comes to before it. -/
theorem sooner_of_sublist {nodes : List α} (unique : nodes.Nodup) (order : [first, second].Sublist nodes)
    (alone : ∀ n, Leads next n second → n = second) : Sooner next first second nodes := by
  induction nodes with
  | nil => cases order
  | cons node rest ih =>
    obtain ⟨fresh, unique⟩ := List.nodup_cons.mp unique
    have mem : second ∈ rest := by
      cases order with
      | cons _ order => exact order.subset (by simp)
      | cons_cons _ order => exact order.subset (by simp)
    have apart : ¬ Leads next node second := fun leads => fresh (alone node leads ▸ mem)
    by_cases leads : Leads next node first
    · exact .only leads apart
    · refine .pass leads apart (ih unique ?_)
      cases order with
      | cons _ order => exact order
      | cons_cons _ _ => exact absurd .refl leads

theorem sooner_iff_of_visit [DecidableEq α] {unopened path left nodes out : List α}
    {first second : α} (unique : unopened.Nodup) (before : Sealed next left)
    (h : visit next unopened path left nodes = .ok out)
    (hf : first ∉ left) (hs : second ∉ left) (ne : first ≠ second) :
    Sooner next first second nodes ↔ Ahead first second out := by
  fun_induction visit next unopened path left nodes generalizing out with
  | case1 unopened path left =>
    cases h
    constructor
    · intro none
      cases none
    · exact fun ahead => absurd ahead.1 hf
  | case2 unopened path left node rest known ih =>
    -- all that a node already left leads to was left before it
    rw [← ih unique before h hf hs, sooner_pass_iff (fun l => hf (before.closed known l))
      (fun l => hs (before.closed known l))]
  | case3 unopened path left node rest fresh opens _ _ inner hinner ihInner ihRest =>
    have down := visited_of_visit (unique.erase node) before hinner
    have mid : Sealed next (node :: inner) := down.sealed_cons unique fresh
    have along := visited_of_visit unique mid h
    have grown : (node :: inner) <:+ out := along.grows
    have known {n : α} (new : n ∉ left) : n ∈ node :: inner ↔ Leads next node n := by
      rw [List.mem_cons, down.mem_iff, leads_iff]
      simp only [new, false_or, eq_comm]
    by_cases lf : Leads next node first <;> by_cases ls : Leads next node second
    · -- the node leads to both: what follows it cannot change their order
      rw [← ahead_iff_of_grows along.isSealed.nodup grown ((known hf).mpr lf)
        ((known hs).mpr ls) ne]
      by_cases isSecond : node = second
      · subst isSecond
        have order := mid.precedes List.mem_cons_self lf (Ne.symm ne)
        exact ⟨fun _ => ⟨(known hf).mpr lf, fun _ => order⟩, fun _ => .own lf⟩
      · by_cases isFirst : node = first
        · subst isFirst
          have order := mid.precedes List.mem_cons_self ls ne
          refine ⟨fun sooner => absurd sooner (not_sooner_self ne ls), fun ahead => ?_⟩
          exact absurd (ahead.2 ((known hs).mpr ls)) (sublist_asymm mid.nodup order)
        · have inInner {n : α} (new : n ∉ left) (l : Leads next node n) (other : node ≠ n) :
              n ∈ inner :=
            (List.mem_cons.mp ((known new).mpr l)).resolve_left (Ne.symm other)
          rw [sooner_inside_iff isFirst isSecond lf ls,
            ihInner (unique.erase node) before hinner hf hs]
          exact ahead_iff_of_grows mid.nodup (List.suffix_cons _ _) (inInner hf lf isFirst)
            (inInner hs ls isSecond) ne
    · exact ⟨fun _ => ahead_of_left grown ((known hf).mpr lf) (mt (known hs).mp ls),
        fun _ => .only lf ls⟩
    · refine ⟨fun sooner => absurd sooner (not_sooner_of_leads lf ls), fun ahead => ?_⟩
      exact absurd ahead (not_ahead_of_left along.isSealed.nodup grown (mt (known hf).mp lf)
        ((known hs).mpr ls))
    · rw [← ihRest unique mid h (mt (known hf).mp lf) (mt (known hs).mp ls)]
      exact sooner_pass_iff lf ls
  | case4 => cases h
  | case5 => cases h

/-! ## The order found -/

/-- What an order found by the search is: the nodes, each once, behind all that they lead to. -/
structure Ordered (next : α → List α) (nodes out : List α) : Prop where
  perm : out.Perm nodes
  behind : ∀ {a b : α}, a ∈ nodes → Leads next a b → a ≠ b → [b, a].Sublist out
  first_iff : ∀ {a b : α}, a ∈ nodes → b ∈ nodes → a ≠ b →
    ([a, b].Sublist out ↔ Sooner next a b nodes)

theorem ordered_of_order [DecidableEq α] {nodes out : List α} (unique : nodes.Nodup)
    (h : order next nodes = .ok out) : Ordered next nodes out := by
  obtain ⟨left, hvisit, rfl⟩ : ∃ left, visit next nodes [] [] nodes = .ok left ∧
      left.reverse = out := by
    unfold order at h
    cases hv : visit next nodes [] [] nodes with
    | error cycle => rw [hv] at h; cases h
    | ok left => rw [hv] at h; cases h; exact ⟨left, rfl, rfl⟩
  have v := visited_of_visit unique .nil hvisit
  have mem {n : α} : n ∈ left ↔ n ∈ nodes := by
    constructor
    · intro hn
      rcases v.only n hn with old | ⟨known, _⟩
      · cases old
      · exact known
    · exact v.visits n
  have reversed {a b : α} : [a, b].Sublist left.reverse ↔ [b, a].Sublist left := by
    rw [← List.reverse_sublist, List.reverse_reverse]
    rfl
  refine ⟨?_, ?_, ?_⟩
  · exact (List.reverse_perm left).trans
      ((List.perm_ext_iff_of_nodup v.isSealed.nodup unique).mpr fun _ => mem)
  · intro a b ha hab ne
    exact reversed.mpr (v.isSealed.precedes (mem.mpr ha) hab ne)
  · intro a b ha hb ne
    rw [reversed, sooner_iff_of_visit unique .nil hvisit (by simp) (by simp) ne]
    exact ⟨fun order => ⟨mem.mpr ha, fun _ => order⟩, fun ahead => ahead.2 (mem.mpr hb)⟩

end HeaderBind.DepthFirst
