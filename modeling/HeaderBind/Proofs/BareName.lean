import HeaderBind.Cursor.BareName
import HeaderBind.Proofs.Blank
/-!
# Bare names

Keywords lead a spelling, one behind the other. The loop over qualifiers ends, however many there are
and in whatever order; behind them each tag keyword is looked for once, in one order. So a spelling
loses the longest run of keywords that are in order and keeps the first one that is not. Where there is
no such keyword, and only there, what is left is bare and is its own bare name.
-/
namespace HeaderBind

namespace Text

theorem Tight.trim_eq {s : List Char} (tight : Tight s) : trim s = s :=
  trim_eq_iff.mpr ⟨tight, [], [], by simp, by simp, by simp⟩

theorem trim_infix (s : List Char) : trim s <:+: s := by
  obtain ⟨lead, trail, split, _⟩ := (trimmed_trim s).around
  exact ⟨lead, trail, split.symm⟩

end Text

namespace BareName

open Text (Tight)

variable {s t rest word last : List Char} {words more tags : List (List Char)}

/-! ## Keywords in front of a text -/

/-- The words that a bare name has none of in front. -/
def keywords : List (List Char) := qualifiers ++ tagWords

/-- Whether no keyword leads a text. -/
def Bare (s : List Char) : Prop := ∀ word ∈ keywords, ¬ word <+: s

/-- Whether a spelling says that there is no name. -/
def Unnamed (s : List Char) : Prop := ∃ mark ∈ unnamedMarks, mark <:+: Text.trim s

/-- Whether words lead a text one behind the other, blanks aside, and what is behind the last one. -/
inductive Leads : List (List Char) → List Char → List Char → Prop
  | nil {s : List Char} : Leads [] s s
  | cons {word s rest : List Char} {words : List (List Char)} : Leads words (Text.trim s) rest →
      Leads (word :: words) (word ++ s) rest

/-- Whether keywords are in order: qualifiers in any number come first, and behind them tag keywords,
each at most once and in their own order. -/
def InOrder (words : List (List Char)) : Prop :=
  (words.dropWhile fun word => word ∈ qualifiers).Sublist tagWords

instance (s : List Char) : Decidable (Bare s) := inferInstanceAs (Decidable (∀ word ∈ keywords, _))

instance (words : List (List Char)) : Decidable (InOrder words) :=
  inferInstanceAs (Decidable (List.Sublist _ _))

/-- At most one keyword leads a text. -/
theorem keyword_eq {other : List Char} (known : word ∈ keywords) (known' : other ∈ keywords)
    (leads : word <+: s) (leads' : other <+: s) : word = other := by
  have apart : ∀ v ∈ keywords, ∀ w ∈ keywords, v <+: w → v = w := by decide
  rcases List.prefix_or_prefix_of_prefix leads leads' with short | short
  · exact apart word known other known' short
  · exact (apart other known' word known short).symm

theorem tagWord_not_qualifier : ∀ word ∈ tagWords, word ∉ qualifiers := by decide

theorem keywords_nonempty : ∀ word ∈ keywords, word ≠ [] := by decide

theorem keyword_inOrder : ∀ word ∈ keywords, InOrder [word] := by decide

namespace Leads

theorem append (first : Leads words s t) (behind : Leads more t rest) :
    Leads (words ++ more) s rest := by
  induction first with
  | nil => exact behind
  | cons _ ih => exact .cons (ih behind)

theorem isInfix (leads : Leads words s rest) : rest <:+: s := by
  induction leads with
  | nil => exact List.infix_rfl
  | @cons word s _ _ _ ih =>
    have inner : Text.trim s <:+: word ++ s :=
      (Text.trim_infix s).trans (List.suffix_append word s).isInfix
    exact ih.trans inner

theorem tight (leads : Leads words s rest) (tight : Tight s) : Tight rest := by
  induction leads with
  | nil => exact tight
  | @cons _ s _ _ _ ih => exact ih (Text.trimmed_trim s).tight

theorem length_le (leads : Leads words s rest) (known : ∀ word ∈ words, word ∈ keywords) :
    rest.length + words.length ≤ s.length := by
  induction leads with
  | nil => simp
  | @cons word s _ words _ ih =>
    obtain ⟨here, there⟩ := List.forall_mem_cons.mp known
    have inner := ih there
    have shorter := trim_length_le s
    have full := List.length_pos_iff.mpr (keywords_nonempty word here)
    rw [List.length_cons, List.length_append]
    omega

theorem eq_of_nil (leads : Leads [] s rest) : rest = s := by
  cases leads
  rfl

theorem front (leads : Leads (word :: words) s rest) : word <+: s := by
  cases leads
  exact List.prefix_append _ _

/-- The first of some words leads the text, also if it is the one behind those that lead it. -/
theorem front_concat (leads : Leads words s rest) (behind : last <+: rest)
    (first : words ++ [last] = word :: more) : word <+: s := by
  cases words with
  | nil => exact (List.cons.inj first).1 ▸ leads.eq_of_nil ▸ behind
  | cons => exact (List.cons.inj first).1 ▸ leads.front

/-- Where none of them is left in front, no keywords lead further. -/
theorem exists_rest (whole : Leads words s rest) (known : ∀ word ∈ words, word ∈ keywords)
    (part : Leads more s t) (known' : ∀ word ∈ more, word ∈ keywords)
    (none : ∀ word ∈ more, ¬ word <+: rest) :
    ∃ behind, words = more ++ behind ∧ Leads behind t rest := by
  induction part generalizing words with
  | nil => exact ⟨words, rfl, whole⟩
  | @cons word s t more _ ih =>
    obtain ⟨here', there'⟩ := List.forall_mem_cons.mp known'
    obtain ⟨stop, stops⟩ := List.forall_mem_cons.mp none
    generalize same : word ++ s = text at whole
    cases whole with
    | nil => exact absurd ⟨s, same⟩ stop
    | @cons first tail _ words inner =>
      obtain ⟨here, there⟩ := List.forall_mem_cons.mp known
      obtain rfl : word = first := keyword_eq here' here ⟨s, same⟩ (List.prefix_append first tail)
      obtain rfl := List.append_cancel_left same
      obtain ⟨behind, rfl, leads⟩ := ih inner there there' stops
      exact ⟨behind, rfl, leads⟩

end Leads

/-! ## Looking for words once -/

/-- Looks for each of some words once, in their order; tells whether any was taken off. -/
def sweep : List (List Char) → List Char → List Char × Bool
  | [], s => (s, false)
  | word :: words, s =>
    match Text.after? word s with
    | some rest => ((sweep words (Text.trim rest)).1, true)
    | none => sweep words s

theorem untagged_eq_sweep (s : List Char) : untagged s = (sweep tagWords s).1 := by
  unfold untagged
  generalize tagWords = words
  fun_induction sweep words s with
  | case1 s => rfl
  | case2 word words s rest found ih => rw [List.foldl_cons, found, ← ih]; rfl
  | case3 word words s none ih => rw [List.foldl_cons, none, ← ih]; rfl

/-- What is taken off are some of the words in their order, and as many as can be: none that would
come next in this order is left in front. -/
theorem sweep_leads (words : List (List Char)) (s : List Char) :
    ∃ taken, taken.Sublist words ∧ Leads taken s (sweep words s).1 ∧
      ((sweep words s).2 = true ↔ taken ≠ []) ∧
      ∀ word, word <+: (sweep words s).1 → ¬ (taken ++ [word]).Sublist words := by
  fun_induction sweep words s with
  | case1 s => exact ⟨[], .slnil, .nil, by simp, by simp⟩
  | case2 word words s rest found ih =>
    obtain rfl := Text.after?_eq_some_iff.mp found
    obtain ⟨taken, sub, leads, _, last⟩ := ih
    refine ⟨word :: taken, sub.cons_cons word, .cons leads, by simp, ?_⟩
    intro next front longer
    exact last next front (List.cons_sublist_cons.mp longer)
  | case3 word words s none ih =>
    obtain ⟨taken, sub, leads, changed, last⟩ := ih
    refine ⟨taken, sub.cons word, leads, changed, ?_⟩
    intro next front longer
    rcases List.sublist_cons_iff.mp longer with longer | ⟨more, first, _⟩
    · exact last next front longer
    · exact Text.after?_eq_none_iff.mp none (leads.front_concat front first)

/-! ## The loop over qualifiers -/

theorem qualifier_known : ∀ word ∈ qualifiers, word ∈ keywords :=
  fun _ mem => List.mem_append_left tagWords mem

theorem leads_unqualified (s : List Char) : ∃ quals, Leads quals s (unqualified s) ∧
    (∀ word ∈ quals, word ∈ qualifiers) ∧ ∀ word ∈ qualifiers, ¬ word <+: unqualified s := by
  fun_induction unqualified s with
  | case1 s rest found _ ih =>
    obtain ⟨word, mem, tail, rfl, rfl⟩ := takeOff?_eq_some found
    obtain ⟨quals, leads, all, none⟩ := ih
    exact ⟨word :: quals, .cons leads, List.forall_mem_cons.mpr ⟨mem, all⟩, none⟩
  | case2 s none => exact ⟨[], .nil, by simp, takeOff?_eq_none_iff.mp none⟩

theorem unqualified_eq {quals : List (List Char)} (leads : Leads quals s rest)
    (all : ∀ word ∈ quals, word ∈ qualifiers) (none : ∀ word ∈ qualifiers, ¬ word <+: rest) :
    unqualified s = rest := by
  obtain ⟨quals', leads', all', none'⟩ := leads_unqualified s
  obtain ⟨behind, rfl, further⟩ := leads.exists_rest (fun w mem => qualifier_known w (all w mem)) leads'
    (fun w mem => qualifier_known w (all' w mem)) (fun w mem => none w (all' w mem))
  cases behind with
  | nil => exact further.eq_of_nil.symm
  | cons word behind =>
    have mem : word ∈ qualifiers := all word (List.mem_append_right quals' List.mem_cons_self)
    exact absurd further.front (none' word mem)

/-- Whether the loop over qualifiers ends after so many rounds, and with what: each round looks for
every qualifier once, and the first that takes none off is the last one. -/
inductive Rounds : Nat → List Char → List Char → Prop
  | last {s : List Char} : (sweep qualifiers s).2 = false → Rounds 1 s (sweep qualifiers s).1
  | next {n : Nat} {s t : List Char} : (sweep qualifiers s).2 = true →
      Rounds n (sweep qualifiers s).1 t → Rounds (n + 1) s t

theorem unqualified_sweep (s : List Char) : unqualified (sweep qualifiers s).1 = unqualified s := by
  obtain ⟨taken, sub, leads, _⟩ := sweep_leads qualifiers s
  obtain ⟨quals, leads', all, none⟩ := leads_unqualified (sweep qualifiers s).1
  refine (unqualified_eq (leads.append leads') ?_ none).symm
  exact List.forall_mem_append.mpr ⟨fun word mem => sub.subset mem, all⟩

theorem sweep_unchanged (unchanged : (sweep qualifiers s).2 = false) :
    (sweep qualifiers s).1 = unqualified s := by
  obtain ⟨taken, _, leads, changed, last⟩ := sweep_leads qualifiers s
  obtain rfl : taken = [] := by simpa [unchanged] using changed
  refine (unqualified_eq leads (by simp) fun word mem front => ?_).symm
  exact last word front (List.singleton_sublist.mpr mem)

theorem sweep_length_lt (changed : (sweep qualifiers s).2 = true) :
    (sweep qualifiers s).1.length < s.length := by
  obtain ⟨taken, sub, leads, some, _⟩ := sweep_leads qualifiers s
  have fewer := leads.length_le fun word mem => qualifier_known word (sub.subset mem)
  have full := List.length_pos_iff.mpr (some.mp changed)
  omega

/-- Every round but the last one makes the text shorter, so the loop ends. -/
theorem exists_rounds (s : List Char) : ∃ n ≤ s.length + 1, Rounds n s (unqualified s) := by
  induction size : s.length using Nat.strongRecOn generalizing s with
  | ind size ih =>
    subst size
    cases changed : (sweep qualifiers s).2 with
    | false => exact ⟨1, by omega, sweep_unchanged changed ▸ .last changed⟩
    | true =>
      have shorter := sweep_length_lt changed
      obtain ⟨n, few, rounds⟩ := ih _ shorter _ rfl
      rw [unqualified_sweep] at rounds
      exact ⟨n + 1, by omega, .next changed rounds⟩

theorem Rounds.eq {n : Nat} (rounds : Rounds n s t) : t = unqualified s := by
  induction rounds with
  | last unchanged => exact sweep_unchanged unchanged
  | next _ _ ih => rw [ih, unqualified_sweep]

/-! ## The bare name -/

/-- Whether stripping a spelling ends after so many rounds over the qualifiers, and with what. -/
inductive Strips : List Char → Nat → List Char → Prop
  | unnamed {s : List Char} : Unnamed s → Strips s 0 []
  | named {n : Nat} {s t : List Char} : ¬ Unnamed s → Rounds n (Text.trim s) t →
      Strips s n (sweep tagWords t).1

/-- Whether a spelling has no name, or all the keywords in front of it are in order. -/
def Strippable (s : List Char) : Prop :=
  Unnamed s ∨ ∃ words rest, Leads words (Text.trim s) rest ∧ InOrder words ∧ Bare rest

theorem strip_of_unnamed (unnamed : Unnamed s) : strip s = [] := by
  obtain ⟨mark, mem, occurs⟩ := unnamed
  have marked : unnamedMarks.any (Text.occursIn · (Text.trim s)) = true :=
    List.any_eq_true.mpr ⟨mark, mem, Text.occursIn_iff.mpr occurs⟩
  exact if_pos marked

theorem strip_of_named (named : ¬ Unnamed s) :
    strip s = (sweep tagWords (unqualified (Text.trim s))).1 := by
  have unmarked : ¬ unnamedMarks.any (Text.occursIn · (Text.trim s)) = true := by
    intro marked
    obtain ⟨mark, mem, occurs⟩ := List.any_eq_true.mp marked
    exact named ⟨mark, mem, Text.occursIn_iff.mp occurs⟩
  rw [← untagged_eq_sweep]
  exact if_neg unmarked

theorem strips_iff : (∃ n ≤ s.length + 1, Strips s n t) ↔ t = strip s := by
  constructor
  · rintro ⟨n, _, strips⟩
    cases strips with
    | unnamed unnamed => exact (strip_of_unnamed unnamed).symm
    | named named rounds => rw [strip_of_named named, rounds.eq]
  · rintro rfl
    by_cases unnamed : Unnamed s
    · rw [strip_of_unnamed unnamed]
      exact ⟨0, by omega, .unnamed unnamed⟩
    · obtain ⟨n, few, rounds⟩ := exists_rounds (Text.trim s)
      have shorter := trim_length_le s
      rw [strip_of_named unnamed]
      exact ⟨n, by omega, .named unnamed rounds⟩

namespace InOrder

theorem append_iff {quals : List (List Char)} (all : ∀ word ∈ quals, word ∈ qualifiers) :
    InOrder (quals ++ words) ↔ InOrder words := by
  unfold InOrder
  rw [List.dropWhile_append_of_pos (by simpa using all)]

theorem of_sublist (sub : tags.Sublist tagWords) : InOrder tags :=
  (List.dropWhile_sublist _).trans sub

theorem of_append (inOrder : InOrder (words ++ more)) : InOrder words := by
  unfold InOrder at *
  rw [List.dropWhile_append] at inOrder
  split at inOrder
  · rename_i none
    rw [List.isEmpty_iff.mp none]
    exact List.nil_sublist _
  · exact (List.sublist_append_left _ _).trans inOrder

theorem known (inOrder : InOrder words) : ∀ word ∈ words, word ∈ keywords := by
  intro word mem
  rw [← List.takeWhile_append_dropWhile (p := fun word => decide (word ∈ qualifiers)) (l := words)] at mem
  rcases List.mem_append.mp mem with mem | mem
  · exact qualifier_known word (by simpa using List.mem_takeWhile_imp mem)
  · exact List.mem_append_right qualifiers (inOrder.subset mem)

/-- Behind a tag keyword there is no place for a qualifier. -/
theorem sublist_of_concat (sub : tags.Sublist tagWords) (inOrder : InOrder (tags ++ [word]))
    (later : tags = [] → word ∉ qualifiers) : (tags ++ [word]).Sublist tagWords := by
  unfold InOrder at inOrder
  cases tags with
  | nil => rwa [List.nil_append, List.dropWhile_cons_of_neg (by simpa using later rfl)] at inOrder
  | cons tag tags =>
    have other : tag ∉ qualifiers := tagWord_not_qualifier tag (sub.subset List.mem_cons_self)
    rwa [List.cons_append, List.dropWhile_cons_of_neg (by simpa using other)] at inOrder

end InOrder

/-- Of a spelling with a name as many keywords are taken off as lead it in order. -/
theorem leads_strip (named : ¬ Unnamed s) :
    ∃ taken, Leads taken (Text.trim s) (strip s) ∧ InOrder taken ∧
      ∀ word ∈ keywords, word <+: strip s → ¬ InOrder (taken ++ [word]) := by
  rw [strip_of_named named]
  obtain ⟨quals, leads, all, none⟩ := leads_unqualified (Text.trim s)
  obtain ⟨tags, sub, leads', _, last⟩ := sweep_leads tagWords (unqualified (Text.trim s))
  refine ⟨quals ++ tags, leads.append leads', (InOrder.append_iff all).mpr (.of_sublist sub), ?_⟩
  intro word _ front longer
  rw [List.append_assoc, InOrder.append_iff all] at longer
  refine last word front (longer.sublist_of_concat sub ?_)
  rintro rfl qualifier
  -- no tag keyword was taken off, so the qualifier would lead what the loop left
  exact none word qualifier (leads'.front_concat front rfl)

theorem bare_nil : Bare [] := by decide

theorem bare_strip_iff : Bare (strip s) ↔ Strippable s := by
  by_cases unnamed : Unnamed s
  · rw [strip_of_unnamed unnamed]
    exact iff_of_true bare_nil (.inl unnamed)
  obtain ⟨taken, leads, inOrder, last⟩ := leads_strip unnamed
  constructor
  · intro bare
    exact .inr ⟨taken, strip s, leads, inOrder, bare⟩
  · rintro (unnamed' | ⟨words, rest, leads', inOrder', bare⟩)
    · exact absurd unnamed' unnamed
    obtain ⟨behind, rfl, further⟩ := leads'.exists_rest inOrder'.known leads inOrder.known
      fun word mem => bare word (inOrder.known word mem)
    cases behind with
    | nil => rwa [← further.eq_of_nil]
    | cons word behind =>
      rw [List.append_cons] at inOrder'
      have known : word ∈ keywords := inOrder'.known word (by simp)
      exact absurd inOrder'.of_append (last word known further.front)

/-- Stripping leaves what is bare as it is, and takes a keyword off what is not. -/
theorem strip_strip_iff : strip (strip s) = strip s ↔ Bare (strip s) := by
  by_cases unnamed : Unnamed s
  · rw [strip_of_unnamed unnamed]
    refine iff_of_true ?_ bare_nil
    decide +kernel
  obtain ⟨taken, leads, _⟩ := leads_strip unnamed
  have tight : Text.trim (strip s) = strip s := (leads.tight (Text.trimmed_trim s).tight).trim_eq
  have named : ¬ Unnamed (strip s) := by
    rintro ⟨mark, mem, occurs⟩
    exact unnamed ⟨mark, mem, (tight ▸ occurs).trans leads.isInfix⟩
  obtain ⟨again, leads', inOrder, last⟩ := leads_strip named
  rw [tight] at leads'
  constructor
  · intro same word known front
    have fewer := leads'.length_le inOrder.known
    rw [same] at fewer last
    obtain rfl : again = [] := List.eq_nil_of_length_eq_zero (by omega)
    exact last word known front (keyword_inOrder word known)
  · intro bare
    cases again with
    | nil => exact leads'.eq_of_nil
    | cons word again => exact absurd leads'.front (bare word (inOrder.known word List.mem_cons_self))

end BareName

open BareName

theorem toList_bareName (spelling : String) : (bareName spelling).toList = strip spelling.toList :=
  String.toList_ofList

/-- Stripping a spelling ends and takes off the longest run of keywords that are in order. What is left
is bare exactly where there is no name or no keyword in front is out of order, and the same when stripped
again exactly where it is bare. -/
theorem bareName_normal_iff (spelling : String) :
    (∀ bare, (∃ n ≤ spelling.toList.length + 1, Strips spelling.toList n bare) ↔
      bare = (bareName spelling).toList) ∧
    (¬ Unnamed spelling.toList → ∃ taken,
      Leads taken (Text.trim spelling.toList) (bareName spelling).toList ∧ InOrder taken ∧
      ∀ word ∈ keywords, word <+: (bareName spelling).toList → ¬ InOrder (taken ++ [word])) ∧
    (Bare (bareName spelling).toList ↔ Strippable spelling.toList) ∧
    (bareName (bareName spelling) = bareName spelling ↔ Bare (bareName spelling).toList) := by
  rw [← String.toList_inj, toList_bareName (bareName spelling), toList_bareName]
  exact ⟨fun bare => strips_iff, leads_strip, bare_strip_iff, strip_strip_iff⟩

example : bareName " volatile const volatile  struct union U" = "U" := by decide +kernel

/-- A qualifier stays behind a tag keyword, and so does a tag keyword behind itself or one that comes
later in their order; stripping the name again takes them off. -/
theorem keyword_behind_tag :
    bareName "struct const Foo" = "const Foo" ∧ bareName "const Foo" = "Foo" ∧
    bareName "union struct Foo" = "struct Foo" ∧ bareName "enum enum Foo" = "enum Foo" ∧
    ¬ Bare (bareName "struct const Foo").toList ∧
    bareName (bareName "struct const Foo") ≠ bareName "struct const Foo" := by
  decide +kernel

end HeaderBind
