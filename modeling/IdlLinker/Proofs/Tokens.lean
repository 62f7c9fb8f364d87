import Mathlib.Data.List.Chain
import IdlLinker.TypeExpression.Grammar
import IdlLinker.TypeExpression.Token

/-!
# Tokens and spread words

Scanning finds the words that are spread over a text, provided that no word
runs on into the next one: where a name is not followed by a blank, punctuation
follows.  Conversely a text is its tokens spread out, unless some of them are
halves of a character.
-/

namespace IdlLinker.TypeExpression

open Text (isBlank Spread)

namespace Token

theorem toNat_of_isWordPart {character : Char} (part : isWordPart character = true) :
    46 ≤ character.toNat ∧ character.toNat < 123 := by
  simp only [isWordPart, Name.isPart, Char.isAlphanum] at part
  delta Char.isAlpha Char.isUpper Char.isLower Char.isDigit at part
  simp only [Bool.or_eq_true, Bool.and_eq_true, decide_eq_true_eq, beq_iff_eq, ge_iff_le,
    UInt32.le_iff_toNat_le] at part
  rcases part with (((⟨low, high⟩ | ⟨low, high⟩) | ⟨low, high⟩) | rfl) | rfl
  · exact ⟨Nat.le_trans (by decide) low, Nat.lt_of_le_of_lt high (by decide)⟩
  · exact ⟨Nat.le_trans (by decide) low, Nat.lt_of_le_of_lt high (by decide)⟩
  · exact ⟨Nat.le_trans (by decide) low, Nat.lt_of_le_of_lt high (by decide)⟩
  · decide
  · decide

/-- What continues a word is no blank. -/
theorem isBlank_of_isWordPart {character : Char} (part : isWordPart character = true) :
    isBlank character = false := by
  have range := toNat_of_isWordPart part
  simp only [isBlank, Text.blankRanges, List.any_cons, List.any_nil, Bool.or_false,
    Bool.or_eq_false_iff, Bool.and_eq_false_iff, decide_eq_false_iff_not]
  omega

theorem isWordPart_of_isPart {character : Char} (part : Name.isPart character = true) :
    isWordPart character = true := by
  simp [isWordPart, part]

theorem isWordPart_of_isStart {character : Char} (start : Name.isStart character = true) :
    isWordPart character = true := by
  apply isWordPart_of_isPart
  simp only [Name.isStart, Bool.or_eq_true] at start
  simp only [Name.isPart, Char.isAlphanum, Bool.or_eq_true]
  exact start.imp_left Or.inl

/-- The punctuation of types. -/
def marks : List String := ["<", ",", ">"]

/-- A word that begins like a name and goes on like names joined by dots. -/
def IsWord (word : String) : Prop :=
  ∃ first rest, word.toList = first :: rest ∧ Name.isStart first = true ∧
    ∀ character ∈ rest, isWordPart character = true

/-- A word that can be a token of a type. -/
def Lexeme (word : String) : Prop := word ∈ marks ∨ IsWord word

/-- No word of the sequence runs on into the next one. -/
def Separate (words : List String) : Prop :=
  words.IsChain fun first second => first ∈ marks ∨ second ∈ marks

/-- The half of a character, as a token. -/
def half : String := String.ofList [Text.halfCharacter]

theorem Lexeme.ne_half {word : String} (lexeme : Lexeme word) : word ≠ half := by
  rintro rfl
  rcases lexeme with mark | ⟨first, rest, same, start, _⟩
  · revert mark
    decide
  · rw [half, String.toList_ofList] at same
    cases same
    revert start
    decide

/-- Where words that begin with punctuation are spread out, nothing continues a
word before them. -/
theorem stops_of_spread {words : List String} {characters : List Char}
    (spread : Spread words characters) (mark : ∀ word ∈ words.head?, word ∈ marks) :
    ∀ character ∈ characters.head?, isWordPart character = false := by
  intro character front
  cases spread with
  | done => cases front
  | blank blank others =>
      cases front
      rw [Bool.eq_false_iff]
      intro part
      rw [isBlank_of_isWordPart part] at blank
      cases blank
  | word word others =>
      have member := mark word rfl
      simp only [marks, List.mem_cons, List.not_mem_nil, or_false] at member
      rcases member with rfl | rfl | rfl <;> cases front <;> decide

theorem takeWhile_of_stops {part : Char → Bool} {inside rest : List Char}
    (parts : ∀ character ∈ inside, part character = true)
    (stops : ∀ character ∈ rest.head?, part character = false) :
    (inside ++ rest).takeWhile part = inside ∧ (inside ++ rest).dropWhile part = rest := by
  rw [List.takeWhile_append_of_pos parts, List.dropWhile_append_of_pos parts]
  cases rest with
  | nil => simp
  | cons character others => simp [stops character rfl]

theorem scan_word {column : Nat} {first : Char} {tail rest : List Char}
    (start : Name.isStart first = true)
    (parts : ∀ character ∈ tail, isWordPart character = true)
    (stops : ∀ character ∈ rest.head?, isWordPart character = false) :
    scan column (first :: (tail ++ rest)) =
      ⟨String.ofList (first :: tail), column⟩ :: scan (column + 1 + tail.length) rest := by
  have visible := isBlank_of_isWordPart (isWordPart_of_isStart start)
  rcases takeWhile_of_stops parts stops with ⟨taken, dropped⟩
  simp [scan, visible, start, taken, dropped]

theorem scan_unit {column : Nat} {character : Char} {rest : List Char}
    (visible : isBlank character = false) (noStart : Name.isStart character = false)
    (single : Text.unitsOfChar character = 1) :
    scan column (character :: rest) =
      ⟨String.ofList [character], column⟩ :: scan (column + 1) rest := by
  simp [scan, visible, noStart, single]

theorem scan_mark {column : Nat} {mark : String} {rest : List Char} (member : mark ∈ marks) :
    scan column (mark.toList ++ rest) = ⟨mark, column⟩ :: scan (column + 1) rest := by
  simp only [marks, List.mem_cons, List.not_mem_nil, or_false] at member
  rcases member with rfl | rfl | rfl <;> exact scan_unit (by decide) (by decide) (by decide)

/-- Scanning a text finds the words that are spread over it. -/
theorem map_text_scan {words : List String} {characters : List Char}
    (spread : Spread words characters) (lexemes : ∀ word ∈ words, Lexeme word)
    (separate : Separate words) (column : Nat) :
    (scan column characters).map (·.text) = words := by
  induction spread generalizing column with
  | done => simp [scan]
  | blank blank others hypothesis =>
      rw [scan, if_pos blank]
      exact hypothesis lexemes separate _
  | @word word words rest others hypothesis =>
      rw [Separate, List.isChain_cons] at separate
      have found := hypothesis (fun other member => lexemes other (.tail _ member)) separate.2
      by_cases mark : word ∈ marks
      · rw [scan_mark mark, List.map_cons, found]
      · rcases (lexemes word List.mem_cons_self).resolve_left mark with
          ⟨first, tail, same, start, parts⟩
        have stops := stops_of_spread others fun next member =>
          (separate.1 next member).resolve_left mark
        rw [same, List.cons_append, scan_word start parts stops, List.map_cons, found, ← same,
          String.ofList_toList]

/-- A text is its tokens spread out, if none of them is half of a character. -/
theorem spread_scan (column : Nat) (characters : List Char)
    (whole : ∀ token ∈ scan column characters, token.text ≠ half) :
    Spread ((scan column characters).map (·.text)) characters := by
  fun_induction scan column characters with
  | case1 => exact .done
  | case2 column character rest blank hypothesis => exact .blank blank (hypothesis whole)
  | case3 column character rest _ _ tail hypothesis =>
      have others := hypothesis fun token member => whole token (.tail _ member)
      have spread := Spread.word (String.ofList (character :: tail)) others
      rwa [String.toList_ofList, List.cons_append, List.takeWhile_append_dropWhile] at spread
  | case4 column character rest _ _ _ hypothesis =>
      have others := hypothesis fun token member => whole token (.tail _ member)
      simpa using Spread.word (String.ofList [character]) others
  | case5 => exact absurd rfl (whole _ List.mem_cons_self)

end Token

end IdlLinker.TypeExpression
