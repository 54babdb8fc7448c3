import HeaderBind.Binding.Name
import HeaderBind.Proofs.Blank
import HeaderBind.Proofs.DoubleQuoted
import HeaderBind.Source.Sheet
import Mathlib
/-!
# The lines of a text

A sheet sets its chunks apart by empty lines and drops those at its end, so what was written on it is
found again among the lines of its text that are not empty. A text is `Inline` when it can stand
anywhere inside a line but in the head of a class or a function, as all names can that C has for
anything. Which texts are numbers is told by lemmas of `Std.Data.String` that no smaller import brings.
-/
namespace HeaderBind

/-- The lines that a chunk is written as. -/
def Chunk.written (c : Chunk) : List String := c.lines.map fun l => Sheet.indented l.depth l.text

namespace Source

/-- The lines of a text that are not empty. -/
def linesIn (text : String) : List (List Char) :=
  (text.toList.splitOn '\n').filter (· ≠ [])

@[simp] theorem linesIn_empty : linesIn "" = [] := by decide

theorem linesIn_append (first rest : String) :
    linesIn (first ++ "\n" ++ rest) = linesIn first ++ linesIn rest := by
  have chars : (first ++ "\n" ++ rest).toList = first.toList ++ '\n' :: rest.toList := by
    simp
  rw [linesIn, chars, List.splitOn_append_cons_self, List.filter_append]
  rfl

theorem linesIn_intercalate (texts : List String) :
    linesIn ("\n".intercalate texts) = texts.flatMap linesIn := by
  induction texts with
  | nil => rfl
  | cons first rest ih =>
    cases rest with
    | nil => simp
    | cons second rest =>
      rw [String.intercalate_cons_cons, linesIn_append, ih, List.flatMap_cons (x := first)]

/-- A text without a line end is one line. -/
theorem linesIn_of_whole {text : String} (full : text ≠ "") (whole : '\n' ∉ text.toList) :
    linesIn text = [text.toList] := by
  rw [linesIn, List.splitOn_eq_singleton whole]
  simpa using full

theorem flatMap_linesIn {texts : List String}
    (plain : ∀ text ∈ texts, text ≠ "" ∧ '\n' ∉ text.toList) :
    texts.flatMap linesIn = texts.map String.toList := by
  rw [List.map_eq_flatMap]
  exact List.flatMap_congr fun text mem => linesIn_of_whole (plain text mem).1 (plain text mem).2

end Source

namespace Sheet

open Source (linesIn)

theorem linesIn_text (s : Sheet) : linesIn s.text = s.lines.flatMap linesIn := by
  obtain ⟨kept, dropped, split, empty⟩ : ∃ kept dropped, s.lines = kept ++ dropped ∧
      s.trimmed.lines = kept ∧ ∀ text ∈ dropped, text = "" := by
    refine ⟨(s.lines.reverse.dropWhile String.isEmpty).reverse,
      (s.lines.reverse.takeWhile String.isEmpty).reverse, ?_, rfl, fun text mem => ?_⟩
    · rw [← List.reverse_append, List.takeWhile_append_dropWhile, List.reverse_reverse]
    · simpa using List.mem_takeWhile_imp (List.mem_reverse.mp mem)
  have last : linesIn s.text = linesIn ("\n".intercalate s.trimmed.lines) ++ linesIn "" := by
    rw [← Source.linesIn_append, text, String.append_empty]
  have nothing : dropped.flatMap linesIn = [] := by
    rw [List.flatMap_eq_nil_iff]
    intro text mem
    rw [empty.2 text mem, Source.linesIn_empty]
  rw [last, Source.linesIn_intercalate, Source.linesIn_empty, List.append_nil, split,
    List.flatMap_append, nothing, List.append_nil, empty.1]

theorem put_indent {s : Sheet} (c : Chunk) : (s.put c).indent = s.indent := by
  have along (lines : List SheetLine) (s : Sheet) :
      (lines.foldl (fun s l => (s.shift l.depth).line l.text |>.shift (-l.depth)) s).indent =
        s.indent := by
    induction lines generalizing s with
    | nil => rfl
    | cons l lines ih =>
      rw [List.foldl_cons, ih]
      simp [shift, line]
  exact along _ _

/-- Between chunks there are at most empty lines. -/
theorem put_lines {s : Sheet} (outer : s.indent = 0) (c : Chunk) :
    (s.put c).lines.flatMap linesIn = s.lines.flatMap linesIn ++ c.written.flatMap linesIn := by
  have along (lines : List SheetLine) (s : Sheet) (outer : s.indent = 0) :
      (lines.foldl (fun s l => (s.shift l.depth).line l.text |>.shift (-l.depth)) s).lines =
        s.lines ++ lines.map fun l => indented l.depth l.text := by
    induction lines generalizing s with
    | nil => simp
    | cons l lines ih =>
      rw [List.foldl_cons, ih _ (by simp [shift, line, outer])]
      simp [shift, line, outer]
  have apart : (s.start c.block).lines.flatMap linesIn = s.lines.flatMap linesIn := by
    unfold start
    dsimp only
    split <;> simp
  rw [put, along _ (s.start c.block) outer, List.flatMap_append, apart]
  rfl

theorem linesIn_ofChunks (chunks : List Chunk) :
    linesIn (ofChunks chunks).text = (chunks.flatMap Chunk.written).flatMap linesIn := by
  have along (chunks : List Chunk) (s : Sheet) (outer : s.indent = 0) :
      (chunks.foldl put s).lines.flatMap linesIn =
        s.lines.flatMap linesIn ++ (chunks.flatMap Chunk.written).flatMap linesIn := by
    induction chunks generalizing s with
    | nil => simp
    | cons c chunks ih =>
      rw [List.foldl_cons, ih _ ((put_indent c).trans outer), put_lines outer, List.flatMap_cons,
        List.flatMap_append, List.append_assoc]
  rw [linesIn_text, ofChunks, along _ _ rfl]
  rfl

end Sheet

/-! ## Texts that are cut into lines -/

namespace Text

/-- A text that is put together from lines has no others. -/
theorem mem_linesOf_intercalate {texts : List String}
    (whole : ∀ s ∈ texts, ∀ c ∈ s.toList, isLineEnd c = false) {line : String}
    (mem : line ∈ linesOf ("\n".intercalate texts)) : line ∈ texts := by
  induction texts with
  | nil => cases mem
  | cons first rest ih =>
    obtain ⟨here, there⟩ := List.forall_mem_cons.mp whole
    cases rest with
    | nil =>
      rw [String.intercalate_singleton, linesOf, lines_of_whole here] at mem
      split at mem
      · cases mem
      · rw [List.map_singleton, String.ofList_toList] at mem
        exact mem
    | cons second rest =>
      have split : linesOf ("\n".intercalate (first :: second :: rest)) =
          first :: linesOf ("\n".intercalate (second :: rest)) := by
        have chars : (first ++ "\n" ++ "\n".intercalate (second :: rest)).toList =
            first.toList ++ '\n' :: ("\n".intercalate (second :: rest)).toList := by
          simp
        rw [String.intercalate_cons_cons, linesOf, chars, lines_append here, List.map_cons,
          String.ofList_toList]
        rfl
      rw [split] at mem
      exact (List.mem_cons.mp mem).elim (fun same => same ▸ List.mem_cons_self)
        fun mem => List.mem_cons_of_mem _ (ih there mem)

/-- Blocks of lines with two empty lines between them are put together from lines. -/
theorem exists_lines_of_blocks {blocks : List (List String)} (full : ∀ block ∈ blocks, block ≠ []) :
    ∃ texts, "\n\n\n".intercalate (blocks.map ("\n".intercalate ·)) = "\n".intercalate texts ∧
      (blocks ≠ [] → texts ≠ []) ∧
      ∀ text ∈ texts, text = "" ∨ ∃ block ∈ blocks, text ∈ block := by
  induction blocks with
  | nil => exact ⟨[], rfl, by simp, by simp⟩
  | cons block blocks ih =>
    obtain ⟨here, there⟩ := List.forall_mem_cons.mp full
    obtain ⟨texts, same, some, known⟩ := ih there
    cases blocks with
    | nil => exact ⟨block, by simp, fun _ => here, fun text mem => .inr ⟨block, by simp, mem⟩⟩
    | cons next blocks =>
      have apart : "\n\n\n" = "\n" ++ "\n" ++ "\n" := by decide
      refine ⟨block ++ "" :: "" :: texts, ?_, by simp, fun text mem => ?_⟩
      · rw [List.map_cons, String.intercalate_cons_of_ne_nil (by simp), same,
          String.intercalate_append_of_ne_nil here (by simp), String.intercalate_cons_cons,
          String.intercalate_cons_of_ne_nil (some (by simp)), apart]
        simp only [String.append_assoc, String.empty_append]
      · simp only [List.mem_append, List.mem_cons] at mem
        rcases mem with mem | rfl | rfl | mem
        · exact .inr ⟨block, List.mem_cons_self, mem⟩
        · exact .inl rfl
        · exact .inl rfl
        · refine (known text mem).imp_right ?_
          rintro ⟨other, inside, mem⟩
          exact ⟨other, List.mem_cons_of_mem _ inside, mem⟩

end Text

/-! ## Texts inside a line -/

namespace Text

/-- Whether a text has neither a line end nor a colon. -/
def Inline (s : String) : Prop := ∀ c ∈ s.toList, c ≠ '\n' ∧ c ≠ ':'

instance (s : String) : Decidable (Inline s) := inferInstanceAs (Decidable (∀ _ ∈ _, _))

@[simp] theorem inline_append {s t : String} : Inline (s ++ t) ↔ Inline s ∧ Inline t := by
  simp only [Inline, String.toList_append, List.forall_mem_append]

/-- A number is written with digits, and a minus sign in front of a negative one. -/
theorem mem_toString {n : Int} {c : Char} (mem : c ∈ (toString n).toList) :
    c.isDigit = true ∨ c = '-' := by
  have digits {n : Nat} (mem : c ∈ n.repr.toList) : c.isDigit = true :=
    Nat.isDigit_of_mem_toDigits (b := 10) (n := n) (by decide) (by decide) (by simpa using mem)
  have written : toString n = n.repr := rfl
  rw [written, Int.repr_eq_if] at mem
  split at mem
  · exact .inl (digits mem)
  · rw [String.toList_append] at mem
    rcases List.mem_append.mp mem with mem | mem
    · exact .inr (by simpa using mem)
    · exact .inl (digits mem)

@[simp] theorem inline_toString (n : Int) : Inline (toString n) := by
  intro c mem
  constructor <;> (rintro rfl; exact absurd (mem_toString mem) (by decide))

@[simp] theorem inline_doubleQuoted {s : String} (inline : Inline s) : Inline (doubleQuoted s) := by
  intro c mem
  rcases mem_doubleQuoted mem with (rfl | rfl) | mem
  · decide
  · decide
  · exact inline c mem

theorem mem_intercalate {sep : String} {texts : List String} {c : Char}
    (mem : c ∈ (sep.intercalate texts).toList) : c ∈ sep.toList ∨ ∃ s ∈ texts, c ∈ s.toList := by
  induction texts with
  | nil => simp at mem
  | cons first rest ih =>
    cases rest with
    | nil => exact .inr ⟨first, List.mem_cons_self, by simpa using mem⟩
    | cons second rest =>
      rw [String.intercalate_cons_cons, String.toList_append, String.toList_append] at mem
      simp only [List.mem_append] at mem
      rcases mem with (mem | mem) | mem
      · exact .inr ⟨first, List.mem_cons_self, mem⟩
      · exact .inl mem
      · refine (ih mem).imp_right ?_
        intro ⟨s, inside, mem⟩
        exact ⟨s, List.mem_cons_of_mem _ inside, mem⟩

theorem inline_intercalate {sep : String} {texts : List String} (between : Inline sep)
    (inline : ∀ s ∈ texts, Inline s) : Inline (sep.intercalate texts) := by
  intro c mem
  rcases mem_intercalate mem with mem | ⟨s, inside, mem⟩
  · exact between c mem
  · exact inline s inside c mem

/-- A text that does not begin as a number does is none. -/
theorem toInt?_eq_none {s : String} (front : ∀ c ∈ s.toList.head?, c.isDigit = false ∧ c ≠ '-') :
    s.toInt? = none := by
  refine String.toInt?_eq_none (Bool.eq_false_iff.mpr fun isInt => ?_)
  rcases String.isInt_iff.mp isInt with isNat | ⟨t, rfl, _⟩
  · obtain ⟨full, digits, _, head, _⟩ := String.isNat_iff.mp isNat
    cases chars : s.toList with
    | nil => exact full (String.toList_eq_nil_iff.mp chars)
    | cons c rest =>
      rw [chars] at digits head front
      rcases digits c List.mem_cons_self with digit | rfl
      · rw [(front c rfl).1] at digit
        cases digit
      · exact head rfl
  · exact (front '-' (by simp)).2 rfl

/-- Whether a text can stand inside a line and does not begin as a number does. -/
structure Phrase (s : String) : Prop where
  inline : Inline s
  front : ∀ c ∈ s.toList.head?, c.isDigit = false ∧ c ≠ '-'

theorem Phrase.toInt? {s : String} (phrase : Phrase s) : s.toInt? = none :=
  toInt?_eq_none phrase.front

/-- What stands behind the beginning of a phrase does not matter. -/
theorem Phrase.lead {s t : String} (phrase : Phrase s) (full : s ≠ "") (inline : Inline t) :
    Phrase (s ++ t) where
  inline := inline_append.mpr ⟨phrase.inline, inline⟩
  front c mem := by
    rw [String.toList_append, List.head?_append_of_ne_nil _ (by simpa using full)] at mem
    exact phrase.front c mem

theorem Phrase.append {s t : String} (phrase : Phrase s) (more : Phrase t) : Phrase (s ++ t) := by
  by_cases empty : s = ""
  · rw [empty, String.empty_append]
    exact more
  · exact phrase.lead empty more.inline

end Text

namespace Name

/-- The characters that C identifiers have. -/
def isPart (c : Char) : Bool := c.isAlphanum || c == '_' || c == '$' || 128 ≤ c.toNat

/-- Whether a name has only characters that C identifiers have, and no digit in front. -/
structure Spelled (name : String) : Prop where
  parts : ∀ c ∈ name.toList, isPart c = true
  front : ∀ c ∈ name.toList.head?, c.isDigit = false

instance (name : String) : Decidable (Spelled name) :=
  decidable_of_iff ((∀ c ∈ name.toList, isPart c = true) ∧ ∀ c ∈ name.toList.head?, c.isDigit = false)
    ⟨fun h => ⟨h.1, h.2⟩, fun h => ⟨h.parts, h.front⟩⟩

variable {name : String}

theorem Spelled.notMem (spelled : Spelled name) {mark : Char} (other : isPart mark = false) :
    mark ∉ name.toList := by
  intro mem
  rw [spelled.parts mark mem] at other
  cases other

theorem Spelled.inline (spelled : Spelled name) : Text.Inline name := by
  refine fun c mem => ⟨?_, ?_⟩ <;> rintro rfl
  · exact spelled.notMem (by decide) mem
  · exact spelled.notMem (by decide) mem

theorem Spelled.phrase (spelled : Spelled name) : Text.Phrase name where
  inline := spelled.inline
  front c mem := by
    refine ⟨spelled.front c mem, ?_⟩
    rintro rfl
    exact spelled.notMem (by decide) (List.mem_of_mem_head? mem)

theorem Spelled.append (spelled : Spelled name) (full : name ≠ "") {more : String}
    (parts : ∀ c ∈ more.toList, isPart c = true) : Spelled (name ++ more) where
  parts c mem := by
    rw [String.toList_append] at mem
    exact (List.mem_append.mp mem).elim (spelled.parts c) (parts c)
  front c mem := by
    rw [String.toList_append, List.head?_append_of_ne_nil _ (by simpa using full)] at mem
    exact spelled.front c mem

theorem Spelled.bound (spelled : Spelled name) : Spelled (bound name) := by
  unfold Name.bound
  split
  · rename_i keyword
    have full : name ≠ "" := fun same => absurd (same ▸ keyword) (by decide)
    exact spelled.append full (by simp [isPart])
  · exact spelled

/-- The names of link groups are made of characters that C identifiers have. -/
theorem spelled_groups {links : List Link} : ∀ name ∈ groups links, Spelled name := by
  have library (text : String) : ∀ c ∈ (identifierPart text).toList, isPart c = true := by
    intro c mem
    rw [identifierPart, String.toList_ofList] at mem
    obtain ⟨d, _, rfl⟩ := List.mem_map.mp mem
    split
    · rename_i kept
      simp only [Bool.or_eq_true, decide_eq_true_eq] at kept
      rcases kept with letter | rfl
      · simp [isPart, letter]
      · decide
    · decide
  have base (link : Link) : Spelled (groupBase link) :=
    Spelled.append ⟨by simp [isPart], by simp⟩ (by decide) (library _)
  have full (link : Link) : groupBase link ≠ "" := by simp [groupBase]
  intro name mem
  obtain ⟨link, _, rfl⟩ := List.mem_map.mp mem
  dsimp only
  split
  · have kind : ∀ c ∈ ("_" ++ link.2.word).toList, isPart c = true := by
      cases link.2 <;> simp [isPart, LinkKind.word]
    rw [String.append_assoc]
    exact (base link).append (full link) kind
  · exact base link

end Name

end HeaderBind
