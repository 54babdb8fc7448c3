import HeaderBind.Text.Blank
import Mathlib.Data.List.Basic
import Mathlib.Data.List.TakeWhile
/-!
# Blanks and line ends

A text is cut into lines in one way only. It has one part with nothing but blanks around it that
neither begins nor ends with a blank, and that part is what trimming leaves.
-/
namespace HeaderBind.Text

/-! ## Lines -/

theorem lines_cons {c : Char} (other : isLineEnd c = false) (rest : List Char) :
    lines (c :: rest) = match lines rest with
      | [] => [[c]]
      | line :: more => (c :: line) :: more := by
  rw [lines.eq_3 _ _ (by rintro _ rfl _; cases other), other]
  rfl

theorem lines_of_whole {line : List Char} (whole : ∀ c ∈ line, isLineEnd c = false) :
    lines line = if line = [] then [] else [line] := by
  induction line with
  | nil => rfl
  | cons c line ih =>
    obtain ⟨other, whole⟩ := List.forall_mem_cons.mp whole
    rw [lines_cons other, ih whole]
    cases line <;> rfl

/-- Whether a line that some text follows ends with just these characters: with a carriage return and
a line feed, or with one line end that is not the first of these two. -/
inductive LineEnd : List Char → List Char → Prop
  | pair {rest : List Char} : LineEnd ['\r', '\n'] rest
  | single {c : Char} {rest : List Char} : isLineEnd c = true →
      ¬ (c = '\r' ∧ rest.head? = some '\n') → LineEnd [c] rest

theorem LineEnd.lines {stop rest : List Char} (ends : LineEnd stop rest) :
    lines (stop ++ rest) = [] :: lines rest := by
  cases ends with
  | pair => rfl
  | @single c _ isEnd alone =>
    rw [List.singleton_append, lines.eq_3, isEnd]
    · rfl
    · rintro more rfl rfl
      exact alone ⟨rfl, rfl⟩

/-- A line is the first one of what it is put in front of. -/
theorem lines_append_end {line stop rest : List Char} (whole : ∀ c ∈ line, isLineEnd c = false)
    (ends : LineEnd stop rest) : lines (line ++ stop ++ rest) = line :: lines rest := by
  induction line with
  | nil => exact ends.lines
  | cons c line ih =>
    obtain ⟨other, whole⟩ := List.forall_mem_cons.mp whole
    rw [List.cons_append, List.cons_append, lines_cons other, ih whole]

theorem lines_append {line rest : List Char} (whole : ∀ c ∈ line, isLineEnd c = false) :
    lines (line ++ '\n' :: rest) = line :: lines rest := by
  have ends : LineEnd ['\n'] rest := .single rfl fun both => absurd both.1 (by decide)
  have first := lines_append_end whole ends
  rwa [List.append_assoc] at first

/-- Whether a text is cut into lines: each of them ends before the next one, the last one perhaps with
the text, and then it is not empty. -/
inductive Lined : List Char → List (List Char) → Prop
  | nil : Lined [] []
  | last {line : List Char} : line ≠ [] → (∀ c ∈ line, isLineEnd c = false) → Lined line [line]
  | ended {line stop rest : List Char} {more : List (List Char)} :
      (∀ c ∈ line, isLineEnd c = false) → LineEnd stop rest → Lined rest more →
      Lined (line ++ stop ++ rest) (line :: more)

theorem Lined.blank {stop rest : List Char} {more : List (List Char)} (ends : LineEnd stop rest)
    (lined : Lined rest more) : Lined (stop ++ rest) ([] :: more) := by
  have none : ∀ c ∈ ([] : List Char), isLineEnd c = false := by simp
  exact .ended none ends lined

theorem Lined.cons {c : Char} {s line : List Char} {more : List (List Char)} (other : isLineEnd c = false)
    (lined : Lined s (line :: more)) : Lined (c :: s) ((c :: line) :: more) := by
  cases lined with
  | last _ whole => exact .last (List.cons_ne_nil c _) (List.forall_mem_cons.mpr ⟨other, whole⟩)
  | ended whole ends lined =>
    have first : ∀ d ∈ c :: line, isLineEnd d = false := List.forall_mem_cons.mpr ⟨other, whole⟩
    exact .ended first ends lined

theorem lined_lines (s : List Char) : Lined s (lines s) := by
  fun_induction lines s with
  | case1 => exact .nil
  | case2 rest ih => exact .blank .pair ih
  | case3 c rest alone isEnd ih =>
    refine .blank (.single isEnd fun both => ?_) ih
    obtain ⟨more, rfl⟩ := List.head?_eq_some_iff.mp both.2
    exact alone more both.1 rfl
  | case4 c rest _ other none ih =>
    rw [none] at ih
    cases ih
    exact .last (List.cons_ne_nil c []) (by simpa using other)
  | case5 c rest _ other line more first ih =>
    rw [first] at ih
    exact ih.cons (by simpa using other)

theorem Lined.eq {s : List Char} {texts : List (List Char)} (lined : Lined s texts) :
    lines s = texts := by
  induction lined with
  | nil => rfl
  | last full whole => rw [lines_of_whole whole, if_neg full]
  | ended whole ends _ ih => rw [lines_append_end whole ends, ih]

theorem lines_eq_iff {s : List Char} {texts : List (List Char)} : lines s = texts ↔ Lined s texts := by
  constructor
  · intro same
    exact same ▸ lined_lines s
  · exact Lined.eq

/-! ## Trimming -/

/-- Whether a text neither begins nor ends with a blank. -/
structure Tight (s : List Char) : Prop where
  front : ∀ c ∈ s.head?, isBlank c = false
  back : ∀ c ∈ s.getLast?, isBlank c = false

/-- Whether one text is what is left of another without the blanks at its two ends. -/
structure Trimmed (s t : List Char) : Prop where
  tight : Tight t
  around : ∃ lead trail, s = lead ++ t ++ trail ∧ (∀ c ∈ lead, isBlank c = true) ∧
    ∀ c ∈ trail, isBlank c = true

theorem Tight.reverse {s : List Char} (tight : Tight s) : Tight s.reverse where
  front c mem := tight.back c (by rwa [List.head?_reverse] at mem)
  back c mem := tight.front c (by rwa [List.getLast?_reverse] at mem)

/-- Blanks are dropped in front of a text that does not begin with one, and nothing else. -/
theorem dropWhile_isBlank {lead s : List Char} (blank : ∀ c ∈ lead, isBlank c = true)
    (front : ∀ c ∈ s.head?, isBlank c = false) : (lead ++ s).dropWhile isBlank = s := by
  rw [List.dropWhile_append_of_pos blank]
  cases s with
  | nil => rfl
  | cons c rest => rw [List.dropWhile_cons, front c rfl, if_neg (by decide)]

/-- A text is some blanks and what is left when they are dropped. -/
theorem exists_blanks (s : List Char) : ∃ lead, s = lead ++ s.dropWhile isBlank ∧
    (∀ c ∈ lead, isBlank c = true) ∧ ∀ c ∈ (s.dropWhile isBlank).head?, isBlank c = false := by
  refine ⟨s.takeWhile isBlank, List.takeWhile_append_dropWhile.symm, ?_, ?_⟩
  · intro c mem
    exact List.mem_takeWhile_imp mem
  · intro c mem
    have first := List.head?_dropWhile_not isBlank s
    rwa [Option.mem_def.mp mem] at first

theorem trimmed_trim (s : List Char) : Trimmed s (trim s) := by
  obtain ⟨lead, split, blankLead, front⟩ := exists_blanks s
  obtain ⟨trail, split', blankTrail, back⟩ := exists_blanks (s.dropWhile isBlank).reverse
  have rest : s.dropWhile isBlank = trim s ++ trail.reverse := by
    have turned := congrArg List.reverse split'
    rwa [List.reverse_reverse, List.reverse_append] at turned
  refine ⟨⟨?_, ?_⟩, lead, trail.reverse, ?_, blankLead, ?_⟩
  · intro c mem
    refine front c ?_
    rw [rest, List.head?_append, Option.mem_def.mp mem]
    rfl
  · intro c mem
    refine back c ?_
    rwa [trim, List.getLast?_reverse] at mem
  · rw [List.append_assoc, ← rest]
    exact split
  · intro c mem
    exact blankTrail c (List.mem_reverse.mp mem)

theorem Trimmed.eq {s t : List Char} (h : Trimmed s t) : trim s = t := by
  obtain ⟨tight, lead, trail, rfl, blankLead, blankTrail⟩ := h
  by_cases empty : t = []
  · subst empty
    have nothing : (lead ++ [] ++ trail).dropWhile isBlank = [] := by
      rw [List.append_nil, List.dropWhile_eq_nil_iff]
      intro c mem
      exact (List.mem_append.mp mem).elim (blankLead c) (blankTrail c)
    rw [trim, nothing]
    rfl
  · have front : ∀ c ∈ (t ++ trail).head?, isBlank c = false := by
      rw [List.head?_append_of_ne_nil _ empty]
      exact tight.front
    have blank : ∀ c ∈ trail.reverse, isBlank c = true :=
      fun c mem => blankTrail c (List.mem_reverse.mp mem)
    rw [trim, List.append_assoc, dropWhile_isBlank blankLead front, List.reverse_append,
      dropWhile_isBlank blank tight.reverse.front, List.reverse_reverse]

theorem trim_eq_iff {s t : List Char} : trim s = t ↔ Trimmed s t := by
  constructor
  · intro same
    exact same ▸ trimmed_trim s
  · exact Trimmed.eq

end HeaderBind.Text
