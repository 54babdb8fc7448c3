import HeaderBind.Text.DoubleQuoted
import Mathlib.Algebra.Group.Nat.Even
/-!
# Double-quoted literals

The inside of a literal is made of escape pairs and of characters that need none, so a quote or an
unpaired backslash only stands behind an odd run of backslashes, and who reads a literal from its first
quote on comes to its end no sooner than at its last one. What was written is read back.
-/
namespace HeaderBind.Text

namespace DoubleQuoted

/-- The characters that are escaped. -/
def IsSpecial (c : Char) : Prop := c = '\\' ∨ c = '"'

/-- Insides of literals: escape pairs, and characters that need none. -/
inductive Escaped : List Char → Prop
  | nil : Escaped []
  | pair {c : Char} {rest : List Char} : IsSpecial c → Escaped rest → Escaped ('\\' :: c :: rest)
  | plain {c : Char} {rest : List Char} : ¬ IsSpecial c → Escaped rest → Escaped (c :: rest)

theorem isSpecial_iff {c : Char} : (decide (c = '\\') || decide (c = '"')) = true ↔ IsSpecial c := by
  simp [IsSpecial]

theorem encode_special {c : Char} (special : IsSpecial c) (rest : List Char) :
    encode (c :: rest) = '\\' :: c :: encode rest := by
  rw [encode, if_pos (isSpecial_iff.mpr special)]

theorem encode_plain {c : Char} (plain : ¬ IsSpecial c) (rest : List Char) :
    encode (c :: rest) = c :: encode rest := by
  rw [encode, if_neg (mt isSpecial_iff.mp plain)]

theorem decode_special {c : Char} (special : IsSpecial c) (rest : List Char) :
    decode ('\\' :: c :: rest) = (decode rest).map (c :: ·) := by
  rw [decode, if_pos (isSpecial_iff.mpr special)]

theorem decode_plain {c : Char} (plain : ¬ IsSpecial c) (rest : List Char) :
    decode (c :: rest) = (decode rest).map (c :: ·) := by
  rw [decode.eq_3, if_neg (mt isSpecial_iff.mp plain)]
  intro _ _ same
  exact absurd (.inl same) plain

theorem escaped_encode (s : List Char) : Escaped (encode s) := by
  induction s with
  | nil => exact .nil
  | cons c rest ih =>
    by_cases special : IsSpecial c
    · rw [encode_special special]
      exact .pair special ih
    · rw [encode_plain special]
      exact .plain special ih

theorem mem_encode {s : List Char} {c : Char} (mem : c ∈ encode s) : c = '\\' ∨ c ∈ s := by
  induction s with
  | nil => cases mem
  | cons d rest ih =>
    have later : c ∈ encode rest → c = '\\' ∨ c ∈ d :: rest :=
      fun mem => (ih mem).imp_right (List.mem_cons_of_mem d)
    by_cases special : IsSpecial d
    · rw [encode_special special, List.mem_cons, List.mem_cons] at mem
      rcases mem with same | rfl | mem
      · exact .inl same
      · exact .inr List.mem_cons_self
      · exact later mem
    · rw [encode_plain special, List.mem_cons] at mem
      rcases mem with rfl | mem
      · exact .inr List.mem_cons_self
      · exact later mem

/-- Undoing the escapes gives the text back. -/
theorem decode_encode (s : List Char) : decode (encode s) = some s := by
  induction s with
  | nil => rfl
  | cons c rest ih =>
    by_cases special : IsSpecial c
    · rw [encode_special special, decode_special special, ih]
      rfl
    · rw [encode_plain special, decode_plain special, ih]
      rfl

/-- Escaping a text is replacing all its backslashes by two, and then all quotes by a backslash and a
quote. -/
theorem encode_eq_replaced (s : List Char) :
    encode s = (s.flatMap fun c => if c = '\\' then ['\\', '\\'] else [c]).flatMap
      fun c => if c = '"' then ['\\', '"'] else [c] := by
  induction s with
  | nil => rfl
  | cons c rest ih =>
    rw [List.flatMap_cons, List.flatMap_append, ← ih]
    by_cases backslash : c = '\\'
    · subst backslash
      rfl
    · by_cases quote : c = '"'
      · subst quote
        rfl
      · rw [encode_plain (by simp [IsSpecial, backslash, quote])]
        simp [backslash, quote]

/-! ## Where a literal ends -/

/-- The inside of a literal whose opening quote was read, up to the first quote that no backslash takes
along, and what stands behind that quote. -/
def close? : List Char → Option (List Char × List Char)
  | [] => none
  | '"' :: rest => some ([], rest)
  | '\\' :: c :: rest => (close? rest).map fun p => ('\\' :: c :: p.1, p.2)
  | c :: rest => (close? rest).map fun p => (c :: p.1, p.2)

theorem close?_plain {c : Char} (plain : ¬ IsSpecial c) (rest : List Char) :
    close? (c :: rest) = (close? rest).map fun p => (c :: p.1, p.2) := by
  refine close?.eq_4 c rest ?_ ?_
  · intro same
    exact absurd (.inr same) plain
  · intro _ _ same
    exact absurd (.inl same) plain

/-- Whatever stands behind a literal, it ends with its own last quote. -/
theorem Escaped.close? {inside : List Char} (h : Escaped inside) (rest : List Char) :
    close? (inside ++ '"' :: rest) = some (inside, rest) := by
  induction h with
  | nil => rfl
  | pair _ _ ih =>
    rw [List.cons_append, List.cons_append, DoubleQuoted.close?, ih]
    rfl
  | plain plain _ ih =>
    rw [List.cons_append, close?_plain plain, ih]
    rfl

/-! ## Runs of backslashes -/

/-- How many backslashes a text ends with. -/
def backslashes (s : List Char) : Nat := (s.reverse.takeWhile (· = '\\')).length

theorem backslashes_cons {c : Char} (other : c ≠ '\\') (s : List Char) :
    backslashes (c :: s) = backslashes s := by
  unfold backslashes
  rw [List.reverse_cons, List.takeWhile_append]
  split
  · rename_i all
    simpa [other] using all.symm
  · rfl

/-- A pair in front changes the run at the end by nothing or by two. -/
theorem even_backslashes_pair {c : Char} (special : IsSpecial c) (s : List Char) :
    Even (backslashes ('\\' :: c :: s)) ↔ Even (backslashes s) := by
  have split : ('\\' :: c :: s).reverse = s.reverse ++ [c, '\\'] := by simp
  unfold backslashes
  rw [split, List.takeWhile_append]
  split
  · rename_i all
    rw [List.length_append, all]
    rcases special with rfl | rfl
    · have two : Even 2 := by decide
      simp [Nat.even_add, two]
    · simp
  · rfl

/-- Where an even run of backslashes ends inside a literal there is no quote, and a backslash is the
first one of an escape pair. -/
theorem Escaped.free {inside before after : List Char} {c : Char} (h : Escaped inside)
    (split : inside = before ++ c :: after) (free : Even (backslashes before)) :
    c ≠ '"' ∧ (c = '\\' → ∃ d ∈ after.head?, IsSpecial d) := by
  induction h generalizing before with
  | nil => simp at split
  | @pair d rest special _ ih =>
    match before, split with
    | [], split =>
      obtain ⟨rfl, rfl⟩ := List.cons.inj split
      exact ⟨by decide, fun _ => ⟨d, rfl, special⟩⟩
    | [x], split =>
      obtain ⟨rfl, _⟩ := List.cons.inj split
      exact absurd free (by decide)
    | x :: y :: before, split =>
      simp only [List.cons_append, List.cons.injEq] at split
      obtain ⟨rfl, rfl, split⟩ := split
      exact ih split ((even_backslashes_pair special before).mp free)
  | @plain d rest plain _ ih =>
    simp only [IsSpecial, not_or] at plain
    cases before with
    | nil =>
      obtain ⟨rfl, _⟩ := List.cons.inj split
      exact ⟨plain.2, fun same => absurd same plain.1⟩
    | cons x before =>
      rw [List.cons_append, List.cons.injEq] at split
      obtain ⟨rfl, split⟩ := split
      rw [backslashes_cons plain.1] at free
      exact ih split free

/-! ## Insides -/

/-- What makes some characters the inside of a literal for a text. -/
structure Encodes (s inside : List Char) : Prop where
  escaped : Escaped inside
  free : ∀ before c after, inside = before ++ c :: after → Even (backslashes before) →
    c ≠ '"' ∧ (c = '\\' → ∃ d ∈ after.head?, IsSpecial d)
  closes : ∀ rest, close? (inside ++ '"' :: rest) = some (inside, rest)
  decodes : decode inside = some s
  replaced : inside = (s.flatMap fun c => if c = '\\' then ['\\', '\\'] else [c]).flatMap
    fun c => if c = '"' then ['\\', '"'] else [c]
  known : ∀ c ∈ inside, c = '\\' ∨ c ∈ s

theorem encodes_encode (s : List Char) : Encodes s (encode s) where
  escaped := escaped_encode s
  free _ _ _ split even := (escaped_encode s).free split even
  closes rest := (escaped_encode s).close? rest
  decodes := decode_encode s
  replaced := encode_eq_replaced s
  known _ mem := mem_encode mem

end DoubleQuoted

theorem toList_doubleQuoted (s : String) :
    (doubleQuoted s).toList = '"' :: DoubleQuoted.encode s.toList ++ ['"'] := by
  rw [doubleQuoted, String.toList_ofList, DoubleQuoted.literal]

theorem mem_doubleQuoted {s : String} {c : Char} (mem : c ∈ (doubleQuoted s).toList) :
    DoubleQuoted.IsSpecial c ∨ c ∈ s.toList := by
  rw [toList_doubleQuoted] at mem
  simp only [List.cons_append, List.mem_cons, List.mem_append, List.mem_nil_iff, or_false] at mem
  rcases mem with same | mem | same
  · exact .inl (.inr same)
  · exact (DoubleQuoted.mem_encode mem).imp_left .inl
  · exact .inl (.inr same)

end HeaderBind.Text
