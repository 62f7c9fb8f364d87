import IdlLinker.Proofs.Grammar

/-!
# Where a text is rejected

A text is rejected at the first of its tokens that no type can have there, or at
its end when more is needed.  Whatever the reader has taken by then stands in
frames that can be closed again, so it begins a type.  And no type's words begin
the words of another, so what stands in a frame is read in one way only and no
other reading could have gone on.
-/

namespace IdlLinker.TypeExpression

/-- A text that is read as a type. -/
def Accepted (expression : String) : Prop :=
  ∃ line type, parse expression line = .ok type

/-- The texts of the tokens of a text. -/
def tokenTexts (expression : String) : List String :=
  (Token.scan 1 expression.toList).map (·.text)

/-- The texts of the tokens that start before a column. -/
def textsBefore (expression : String) (column : Nat) : List String :=
  ((Token.scan 1 expression.toList).filter fun token => token.column < column).map (·.text)

/-- The tokens of some accepted text begin with these. -/
def Viable (texts : List String) : Prop :=
  ∃ expression, Accepted expression ∧ texts <+: tokenTexts expression

/-- The words of a type that can be written begin with these. -/
def Opens (words : List String) : Prop :=
  ∃ type : TypeExpression, type.WellFormed ∧ words <+: type.words

/-- The words of a type that can be written begin with these, and go on. -/
def Unfinished (words : List String) : Prop :=
  ∃ type : TypeExpression, type.WellFormed ∧ ∃ word more, type.words = words ++ word :: more

variable {line : Number} {type first second whole : TypeExpression} {depth : Nat}
  {tokens used rest : List Token} {column : Option Nat} {fault : Fault}
  {front inner : List String} {mark word : String}

/-! ## Accepted texts and words of types -/

/-- The tokens of accepted texts are the words of types. -/
theorem exists_accepted_iff {texts : List String} :
    (∃ expression, Accepted expression ∧ tokenTexts expression = texts) ↔
      ∃ type : TypeExpression, type.WellFormed ∧ type.words = texts := by
  constructor
  · rintro ⟨expression, ⟨line, type, read⟩, rfl⟩
    rcases parse_eq_ok_iff.mp read with ⟨wellFormed, _, spread⟩
    exact ⟨type, wellFormed, ((map_text_scan_eq_words_iff wellFormed 1).mpr spread).symm⟩
  · rintro ⟨type, wellFormed, rfl⟩
    have read := (parse_exact type.text (.ofInt 1)).1 type wellFormed (spread_text type)
    exact ⟨type.text, ⟨_, _, read⟩,
      (map_text_scan_eq_words_iff wellFormed 1).mpr (spread_text type)⟩

theorem viable_iff_opens {texts : List String} : Viable texts ↔ Opens texts := by
  constructor
  · rintro ⟨expression, accepted, begins⟩
    rcases exists_accepted_iff.mp ⟨expression, accepted, rfl⟩ with ⟨type, wellFormed, same⟩
    exact ⟨type, wellFormed, same ▸ begins⟩
  · rintro ⟨type, wellFormed, begins⟩
    rcases exists_accepted_iff.mpr ⟨type, wellFormed, rfl⟩ with ⟨expression, accepted, same⟩
    exact ⟨expression, accepted, same ▸ begins⟩

theorem Unfinished.opens (unfinished : Unfinished inner) : Opens inner := by
  rcases unfinished with ⟨type, wellFormed, word, more, same⟩
  exact ⟨type, wellFormed, same ▸ List.prefix_append _ _⟩

theorem Unfinished.exists_longer (unfinished : Unfinished inner) :
    ∃ expression, Accepted expression ∧ inner <+: tokenTexts expression ∧
      inner ≠ tokenTexts expression := by
  rcases unfinished with ⟨type, wellFormed, word, more, words⟩
  rcases exists_accepted_iff.mpr ⟨type, wellFormed, words⟩ with ⟨expression, accepted, same⟩
  exact ⟨expression, accepted, by simp [same], by simp [same]⟩

/-! ## No type begins another -/

/-- No type's words begin the words of another. -/
theorem words_eq_of_begins (firstFormed : first.WellFormed) (secondFormed : second.WellFormed)
    (begins : first.words <+: second.words) : first.words = second.words := by
  rcases begins with ⟨more, same⟩
  -- the tokens of both are read as the first type, with the rest left, and as
  -- the second one, with nothing left
  let token (text : String) : Token := ⟨text, 0⟩
  have texts (words : List String) : (words.map token).map (·.text) = words := by
    simp [token, Function.comp_def]
  have short : (first.words.map token).length ≤ second.words.length := by
    rw [List.length_map, ← same, List.length_append]
    exact Nat.le_add_right _ _
  have left : parseTokens (.ofInt 1) second.words.length
      (first.words.map token ++ more.map token) = .ok (first.atLine (.ofInt 1), more.map token) :=
    parseTokens_of_words (texts first.words) firstFormed short (more.map token)
  have right : parseTokens (.ofInt 1) second.words.length (second.words.map token ++ []) =
      .ok (second.atLine (.ofInt 1), []) :=
    parseTokens_of_words (texts second.words) secondFormed (List.length_map token).le []
  rw [← List.map_append, same] at left
  rw [List.append_nil, left] at right
  simp only [Except.ok.injEq, Prod.mk.injEq, List.map_eq_nil_iff] at right
  rw [← same, right.2, List.append_nil]

/-- Two types whose words begin the same words have the same words. -/
theorem words_eq_of_prefixes {words : List String} (firstFormed : first.WellFormed)
    (secondFormed : second.WellFormed) (firstBegins : first.words <+: words)
    (secondBegins : second.words <+: words) : first.words = second.words := by
  rcases List.prefix_or_prefix_of_prefix firstBegins secondBegins with begins | begins
  · exact words_eq_of_begins firstFormed secondFormed begins
  · exact (words_eq_of_begins secondFormed firstFormed begins).symm

/-- What a type goes on after is no type itself. -/
theorem Unfinished.not_accepted (unfinished : Unfinished inner) :
    ¬ ∃ expression, Accepted expression ∧ tokenTexts expression = inner := by
  intro whole
  rcases exists_accepted_iff.mp whole with ⟨type, wellFormed, rfl⟩
  rcases unfinished with ⟨other, otherFormed, word, more, longer⟩
  have same := words_eq_of_begins wellFormed otherFormed (longer ▸ List.prefix_append _ _)
  simp [longer] at same

/-- The first word of a type is a name. -/
theorem isQualified_of_words {more : List String} (wellFormed : type.WellFormed)
    (starts : type.words = word :: more) : Name.isQualified word = true := by
  cases type with
  | base type own =>
      cases starts
      cases type <;> decide
  | named name own =>
      cases starts
      exact Name.isQualified_iff.mpr wellFormed.qualified
  | map key value own | list value own | set value own =>
      cases starts
      decide

theorem name_not_mem_containerWords (base : BaseType) : base.name ∉ containerWords := by
  cases base <;> decide

/-- A type whose first word begins a type with parts has these parts. -/
theorem parts_of_words {more : List String} (wellFormed : type.WellFormed)
    (starts : type.words = word :: more) (container : word ∈ containerWords) :
    (∃ key value : TypeExpression, word = "map" ∧ key.WellFormed ∧ value.WellFormed ∧
        more = "<" :: (key.words ++ "," :: (value.words ++ [">"]))) ∨
      ∃ value : TypeExpression, word ≠ "map" ∧ value.WellFormed ∧
        more = "<" :: (value.words ++ [">"]) := by
  cases type with
  | base type own =>
      cases starts
      exact absurd container (name_not_mem_containerWords type)
  | named name own =>
      cases starts
      exact absurd container wellFormed.notContainer
  | map key value own =>
      cases starts
      exact .inl ⟨key, value, rfl, wellFormed.1, wellFormed.2, rfl⟩
  | list value own | set value own =>
      cases starts
      exact .inr ⟨value, by decide, wellFormed, rfl⟩

/-! ## Frames -/

/-- Words after which a type follows, and then a mark. -/
structure Frame (front : List String) (mark : String) : Prop where
  closes : ∀ type : TypeExpression, type.WellFormed → ∃ whole : TypeExpression,
    whole.WellFormed ∧ ∃ back, whole.words = front ++ (type.words ++ mark :: back)
  holds : ∀ whole : TypeExpression, whole.WellFormed → front <+: whole.words →
    ∃ type : TypeExpression, type.WellFormed ∧
      ∃ back, whole.words = front ++ (type.words ++ mark :: back)

/-- Words of a type after which it goes on with a mark and with nothing else. -/
structure Expects (front : List String) (mark : String) : Prop where
  unfinished : Unfinished front
  only : ∀ word, Opens (front ++ [word]) → word = mark

namespace Frame

/-- What begins a type goes on beginning one inside a frame. -/
theorem unfinished (frame : Frame front mark) (within : Unfinished inner) :
    Unfinished (front ++ inner) := by
  rcases within with ⟨type, wellFormed, word, more, same⟩
  rcases frame.closes type wellFormed with ⟨whole, wholeFormed, back, words⟩
  refine ⟨whole, wholeFormed, word, more ++ mark :: back, ?_⟩
  simp [words, same]

/-- What cannot go on with a word cannot do so inside a frame. -/
theorem opens_of_append (frame : Frame front mark) (within : Unfinished inner)
    (opens : Opens (front ++ (inner ++ [word]))) : Opens (inner ++ [word]) := by
  rcases opens with ⟨whole, wholeFormed, begins⟩
  rcases frame.holds whole wholeFormed ((List.prefix_append _ _).trans begins) with
    ⟨type, wellFormed, back, words⟩
  rw [words, List.prefix_append_right_inj] at begins
  refine ⟨type, wellFormed, ?_⟩
  rcases List.prefix_or_prefix_of_prefix begins (List.prefix_append _ _) with inside | beyond
  · exact inside
  · -- then the type in the frame begins the one that is unfinished
    rcases within with ⟨other, otherFormed, next, more, same⟩
    rcases List.prefix_concat_iff.mp beyond with equal | shorter
    · exact equal ▸ List.prefix_refl _
    · have begun : type.words <+: other.words := shorter.trans (same ▸ List.prefix_append _ _)
      have equal := words_eq_of_begins wellFormed otherFormed begun
      have lengths := shorter.length_le
      rw [equal, same, List.length_append, List.length_cons] at lengths
      omega

/-- After the type in a frame comes the mark. -/
theorem expects (frame : Frame front mark) (wellFormed : type.WellFormed) :
    Expects (front ++ type.words) mark where
  unfinished := by
    rcases frame.closes type wellFormed with ⟨whole, wholeFormed, back, words⟩
    exact ⟨whole, wholeFormed, mark, back, by simp [words]⟩
  only word opens := by
    rcases opens with ⟨whole, wholeFormed, begins⟩
    rw [List.append_assoc] at begins
    rcases frame.holds whole wholeFormed ((List.prefix_append _ _).trans begins) with
      ⟨other, otherFormed, back, words⟩
    rw [words, List.prefix_append_right_inj] at begins
    have same := words_eq_of_prefixes wellFormed otherFormed
      ((List.prefix_append _ _).trans begins) (List.prefix_append _ _)
    rw [same, List.prefix_append_right_inj, List.cons_prefix_cons] at begins
    exact begins.1

end Frame

theorem expects_container (container : word ∈ containerWords) : Expects [word] "<" where
  unfinished := by
    let base : TypeExpression := .base .bool (.ofInt 1)
    simp only [containerWords, List.mem_cons, List.not_mem_nil, or_false] at container
    rcases container with rfl | rfl | rfl
    · exact ⟨.map base base (.ofInt 1), ⟨trivial, trivial⟩, _, _, rfl⟩
    · exact ⟨.list base (.ofInt 1), trivial, _, _, rfl⟩
    · exact ⟨.set base (.ofInt 1), trivial, _, _, rfl⟩
  only next opens := by
    rcases opens with ⟨whole, wholeFormed, more, words⟩
    rcases parts_of_words wholeFormed words.symm container with
      ⟨key, value, _, _, _, rest⟩ | ⟨value, _, _, rest⟩
    · exact (List.cons.inj rest).1
    · exact (List.cons.inj rest).1

theorem frame_container (container : word ∈ containerWords) (single : word ≠ "map") :
    Frame [word, "<"] ">" where
  closes type wellFormed := by
    simp only [containerWords, List.mem_cons, List.not_mem_nil, or_false] at container
    rcases container with rfl | rfl | rfl
    · exact absurd rfl single
    · exact ⟨.list type (.ofInt 1), wellFormed, [], rfl⟩
    · exact ⟨.set type (.ofInt 1), wellFormed, [], rfl⟩
  holds whole wholeFormed begins := by
    rcases begins with ⟨more, words⟩
    rcases parts_of_words wholeFormed words.symm container with
      ⟨_, _, isMap, _⟩ | ⟨value, _, wellFormed, rest⟩
    · exact absurd isMap single
    · exact ⟨value, wellFormed, [], by rw [← words]; simpa using rest⟩

theorem frame_key : Frame ["map", "<"] "," where
  closes type wellFormed :=
    ⟨.map type type (.ofInt 1), ⟨wellFormed, wellFormed⟩, _, rfl⟩
  holds whole wholeFormed begins := by
    rcases begins with ⟨more, words⟩
    rcases parts_of_words wholeFormed words.symm (by decide) with
      ⟨key, value, _, keyFormed, _, rest⟩ | ⟨_, notMap, _⟩
    · exact ⟨key, keyFormed, value.words ++ [">"], by rw [← words]; simpa using rest⟩
    · exact absurd rfl notMap

theorem frame_value (keyFormed : first.WellFormed) :
    Frame (["map", "<"] ++ (first.words ++ [","])) ">" where
  closes type wellFormed :=
    ⟨.map first type (.ofInt 1), ⟨keyFormed, wellFormed⟩, [], by simp [words]⟩
  holds whole wholeFormed begins := by
    have starts : ["map"] <+: whole.words := (List.prefix_append _ _).trans begins
    rcases starts with ⟨more, words⟩
    rcases parts_of_words wholeFormed words.symm (by decide) with
      ⟨key, value, _, otherFormed, valueFormed, rest⟩ | ⟨_, notMap, _⟩
    · have same : whole.words = ["map", "<"] ++ (key.words ++ "," :: (value.words ++ [">"])) :=
        words.symm.trans (congrArg (List.cons "map") rest)
      rw [same, List.prefix_append_right_inj] at begins
      have keys := words_eq_of_prefixes keyFormed otherFormed
        ((List.prefix_append _ _).trans begins) (List.prefix_append _ _)
      exact ⟨value, valueFormed, [], by rw [same, keys]; simp⟩
    · exact absurd rfl notMap

/-! ## Where reading stops -/

/-- Reading stops in front of the first token that nothing allows there, or at
the end where more is needed.  Words in front were read before. -/
def Stops (front : List String) (tokens : List Token) (column : Option Nat) : Prop :=
  ∃ used rest, tokens = used ++ rest ∧ column = rest.head?.map (·.column) ∧
    Unfinished (front ++ used.map (·.text)) ∧
    ∀ token ∈ rest.head?, ¬ Opens (front ++ (used.map (·.text) ++ [token.text]))

/-- What was read before the tokens at which reading stops. -/
theorem Stops.append (used : List Token) (stops : Stops (front ++ used.map (·.text)) rest column) :
    Stops front (used ++ rest) column := by
  rcases stops with ⟨more, others, rfl, place, unfinished, impossible⟩
  refine ⟨used ++ more, others, by simp, place, by simpa using unfinished, ?_⟩
  intro token member
  simpa using impossible token member

/-- Where reading stops inside a frame. -/
theorem Frame.stops (frame : Frame front mark) (stops : Stops [] tokens column) :
    Stops front tokens column := by
  rcases stops with ⟨used, rest, rfl, place, unfinished, impossible⟩
  refine ⟨used, rest, rfl, place, frame.unfinished unfinished, ?_⟩
  intro token member opens
  exact impossible token member (frame.opens_of_append unfinished opens)

/-- Reading stops where a mark is expected and not found. -/
theorem Expects.stops (expects : Expects front mark)
    (failed : takePunctuation mark tokens = .error (column, fault)) :
    Stops front tokens column := by
  have unfinished : Unfinished (front ++ ([] : List Token).map (·.text)) := by
    simpa using expects.unfinished
  cases tokens with
  | nil =>
      cases failed
      exact ⟨[], [], rfl, rfl, unfinished, by simp⟩
  | cons token others =>
      rw [takePunctuation] at failed
      split at failed
      · cases failed
      · next different =>
          cases failed
          refine ⟨[], token :: others, rfl, rfl, unfinished, ?_⟩
          rintro _ ⟨⟩ opens
          exact different (expects.only _ opens)

/-- Reading the bracket after a container's word stops there, or goes on after
it. -/
theorem stops_of_opening {α : Type} {next : List Token → Except Misplaced α}
    (container : word ∈ containerWords)
    (failed : (takePunctuation "<" tokens >>= next) = .error (column, fault)) :
    Stops [word] tokens column ∨
      ∃ opening rest, opening.text = "<" ∧ tokens = opening :: rest ∧
        next rest = .error (column, fault) := by
  cases taken : takePunctuation "<" tokens with
  | error misplaced =>
      rw [taken] at failed
      cases failed
      exact .inl ((expects_container container).stops taken)
  | ok rest =>
      rcases takePunctuation_eq_ok_iff.mp taken with ⟨opening, isOpening, rfl⟩
      rw [taken] at failed
      exact .inr ⟨opening, rest, isOpening, rfl, failed⟩

section Nested

variable
  (nested : ∀ {tokens : List Token} {column : Option Nat} {fault : Fault}, tokens.length ≤ depth →
    parseTokens line depth tokens = .error (column, fault) → Stops [] tokens column)

include nested

/-- Reading a type in a frame and the mark after it stops there, or goes on
after them. -/
theorem stops_of_part {α : Type} (next : TypeExpression → List Token → Except Misplaced α)
    (frame : Frame front mark) (enough : tokens.length ≤ depth)
    (failed : (do
      let (value, rest) ← parseTokens line depth tokens
      let rest ← takePunctuation mark rest
      next value rest) = .error (column, fault)) :
    Stops front tokens column ∨
      ∃ value used closing rest, value.WellFormed ∧ tokens = used ++ closing :: rest ∧
        used.map (·.text) = value.words ∧ closing.text = mark ∧
        next value rest = .error (column, fault) := by
  cases read : parseTokens line depth tokens with
  | error misplaced =>
      rw [read] at failed
      cases failed
      exact .inl (frame.stops (nested enough read))
  | ok found =>
      obtain ⟨value, rest⟩ := found
      rcases consumed_of_parseTokens read with ⟨used, rfl, spelled, wellFormed, _⟩
      simp only [read, bind, Except.bind] at failed
      cases taken : takePunctuation mark rest with
      | error misplaced =>
          rw [taken] at failed
          cases failed
          left
          apply Stops.append
          rw [spelled]
          exact (frame.expects wellFormed).stops taken
      | ok others =>
          rcases takePunctuation_eq_ok_iff.mp taken with ⟨closing, isMark, rfl⟩
          rw [taken] at failed
          exact .inr ⟨value, used, closing, others, wellFormed, rfl, spelled, isMark, failed⟩

theorem stops_of_container {container : TypeExpression → Number → TypeExpression} {token : Token}
    (member : token.text ∈ containerWords) (single : token.text ≠ "map")
    (enough : tokens.length ≤ depth)
    (failed : (show Except Misplaced (TypeExpression × List Token) from do
      let rest ← takePunctuation "<" tokens
      let (value, rest) ← parseTokens line depth rest
      let rest ← takePunctuation ">" rest
      return (container value line, rest)) = .error (column, fault)) :
    Stops [] (token :: tokens) column := by
  rcases stops_of_opening member failed with stops | ⟨opening, rest, isOpening, rfl, inside⟩
  · exact Stops.append [token] stops
  · rcases stops_of_part nested (fun value rest => .ok (container value line, rest))
        (frame_container member single) (Nat.le_of_succ_le enough) inside with
      stops | ⟨_, _, _, _, _, _, _, _, ended⟩
    · refine Stops.append [token, opening] ?_
      simpa [isOpening] using stops
    · cases ended

theorem stops_of_map {token : Token} (isMap : token.text = "map") (enough : tokens.length ≤ depth)
    (failed : (show Except Misplaced (TypeExpression × List Token) from do
      let rest ← takePunctuation "<" tokens
      let (key, rest) ← parseTokens line depth rest
      let rest ← takePunctuation "," rest
      let (value, rest) ← parseTokens line depth rest
      let rest ← takePunctuation ">" rest
      return (map key value line, rest)) = .error (column, fault)) :
    Stops [] (token :: tokens) column := by
  have member : token.text ∈ containerWords := by
    rw [isMap]
    decide
  rcases stops_of_opening member failed with stops | ⟨opening, rest, isOpening, rfl, inside⟩
  · exact Stops.append [token] stops
  · rcases stops_of_part nested (fun key rest => do
        let (value, rest) ← parseTokens line depth rest
        let rest ← takePunctuation ">" rest
        return (map key value line, rest)) frame_key (Nat.le_of_succ_le enough) inside with
      stops | ⟨key, used, comma, others, keyFormed, rfl, spelled, isComma, last⟩
    · refine Stops.append [token, opening] ?_
      simpa [isMap, isOpening] using stops
    · simp only [List.length_cons, List.length_append] at enough
      rcases stops_of_part nested (fun value rest => .ok (map key value line, rest))
          (frame_value keyFormed) (by omega) last with
        stops | ⟨_, _, _, _, _, _, _, _, ended⟩
      · have within : Stops [] ((token :: opening :: (used ++ [comma])) ++ others) column := by
          apply Stops.append
          simpa [isMap, isOpening, isComma, spelled] using stops
        simpa using within
      · cases ended

end Nested

/-- Tokens that are not read as a type stop the reader. -/
theorem stops_of_parseTokens (enough : tokens.length ≤ depth)
    (failed : parseTokens line depth tokens = .error (column, fault)) :
    Stops [] tokens column := by
  have unfinished : Unfinished [] :=
    ⟨.base .bool (.ofInt 1), trivial, BaseType.bool.name, [], rfl⟩
  induction depth generalizing tokens column fault with
  | zero =>
      obtain rfl : tokens = [] := List.eq_nil_of_length_eq_zero (Nat.le_zero.mp enough)
      cases failed
      exact ⟨[], [], rfl, rfl, unfinished, by simp⟩
  | succ depth hypothesis =>
      cases tokens with
      | nil =>
          cases failed
          exact ⟨[], [], rfl, rfl, unfinished, by simp⟩
      | cons token others =>
          have shorter : others.length ≤ depth := Nat.le_of_succ_le_succ enough
          rw [parseTokens] at failed
          split at failed
          · next isMap => exact stops_of_map hypothesis isMap shorter failed
          · split at failed
            · next notMap isList =>
                exact stops_of_container hypothesis (by rw [isList]; decide) notMap shorter failed
            · split at failed
              · next notMap _ isSet =>
                  exact stops_of_container hypothesis (by rw [isSet]; decide) notMap shorter failed
              · split at failed
                · split at failed <;> cases failed
                · next unqualified =>
                    cases failed
                    refine ⟨[], token :: others, rfl, rfl, unfinished, ?_⟩
                    rintro _ ⟨⟩ ⟨type, wellFormed, more, words⟩
                    exact unqualified (isQualified_of_words wellFormed words.symm)

/-! ## Columns -/

theorem Token.unitsOfChars_of_word {characters : List Char}
    (parts : ∀ character ∈ characters, isWordPart character = true) :
    Text.unitsOfChars characters = characters.length := by
  induction characters with
  | nil => rfl
  | cons character others hypothesis =>
      have single : Text.unitsOfChar character = 1 := by
        have small := (toNat_of_isWordPart (parts character List.mem_cons_self)).2
        have below : character.val.toNat < 65536 := Nat.lt_trans small (by decide)
        exact if_pos (UInt32.lt_iff_toNat_lt.mpr below)
      rw [Text.unitsOfChars_cons, single, List.length_cons, Nat.add_comm,
        hypothesis fun other member => parts other (List.mem_cons_of_mem _ member)]

/-- Tokens in the order of their columns, from one column and before another. -/
def Token.Ordered (low high : Nat) (tokens : List Token) : Prop :=
  tokens.Pairwise (fun first second => first.column < second.column) ∧
    ∀ token ∈ tokens, low ≤ token.column ∧ token.column < high

theorem Token.Ordered.from_earlier {low next high : Nat} (ordered : Ordered next high tokens)
    (earlier : low ≤ next) : Ordered low high tokens :=
  ⟨ordered.1, fun token member =>
    ⟨Nat.le_trans earlier (ordered.2 token member).1, (ordered.2 token member).2⟩⟩

theorem Token.Ordered.cons {low next high : Nat} (ordered : Ordered next high tokens)
    (text : String) (apart : low < next) (inside : next ≤ high) :
    Ordered low high (⟨text, low⟩ :: tokens) := by
  constructor
  · exact List.pairwise_cons.mpr
      ⟨fun token member => Nat.lt_of_lt_of_le apart (ordered.2 token member).1, ordered.1⟩
  · intro token member
    rcases List.mem_cons.mp member with rfl | later
    · exact ⟨Nat.le_refl low, Nat.lt_of_lt_of_le apart inside⟩
    · exact (ordered.from_earlier (Nat.le_of_lt apart)).2 token later

/-- Every token starts inside the text and before the tokens after it. -/
theorem Token.ordered_scan (column : Nat) (characters : List Char) :
    Ordered column (column + Text.unitsOfChars characters) (scan column characters) := by
  fun_induction scan column characters with
  | case1 column => exact ⟨List.Pairwise.nil, by simp⟩
  | case2 column character rest blank hypothesis =>
      rw [Text.unitsOfChars_cons, ← Nat.add_assoc]
      exact hypothesis.from_earlier (Nat.le_add_right _ _)
  | case3 column character rest _ start tail hypothesis =>
      have word : Text.unitsOfChars (character :: tail) = (character :: tail).length := by
        apply unitsOfChars_of_word
        intro other member
        rcases List.mem_cons.mp member with rfl | inside
        · exact isWordPart_of_isStart start
        · exact List.all_eq_true.mp List.all_takeWhile other inside
      have length : Text.unitsOfChars (character :: rest) =
          1 + tail.length + Text.unitsOfChars (rest.dropWhile isWordPart) := by
        rw [← List.takeWhile_append_dropWhile (p := isWordPart) (l := rest), ← List.cons_append,
          Text.unitsOfChars_append, word, List.length_cons, Nat.add_comm 1]
        simp [tail]
      rw [length, ← Nat.add_assoc, ← Nat.add_assoc]
      exact hypothesis.cons _ (by omega) (Nat.le_add_right _ _)
  | case4 column character rest _ _ single hypothesis =>
      rw [Text.unitsOfChars_cons, single, ← Nat.add_assoc]
      exact hypothesis.cons _ (Nat.lt_succ_self column) (Nat.le_add_right _ _)
  | case5 column character rest _ _ notSingle half hypothesis =>
      have double : Text.unitsOfChar character = 2 := by
        unfold Text.unitsOfChar at notSingle ⊢
        split
        · next small => exact absurd (if_pos small) notSingle
        · rfl
      rw [Text.unitsOfChars_cons, double, ← Nat.add_assoc]
      have second : Ordered (column + 1) _ _ :=
        hypothesis.cons half (Nat.lt_succ_self _) (Nat.le_add_right _ _)
      exact second.cons half (Nat.lt_succ_self column) (by omega)

/-! ## Rejections -/

/-- Where a text is rejected: the tokens before begin a type, and either the
next token cannot follow them or none is left and they are not all of a type. -/
theorem exists_split_of_rejected {text : String} {rejection : Rejection}
    (rejected : parse text line = .error rejection) :
    ∃ used rest, Token.scan 1 text.toList = used ++ rest ∧
      rejection.column = (rest.head?.map (·.column)).getD (Text.units text + 1) ∧
      Opens (used.map (·.text)) ∧ (rest = [] → Unfinished (used.map (·.text))) ∧
      ∀ token ∈ rest.head?, ¬ Opens (used.map (·.text) ++ [token.text]) := by
  unfold parse at rejected
  split at rejected
  · cases rejected
  · next column fault failed =>
      cases rejected
      unfold parseAll at failed
      cases read : parseTokens line (Token.scan 1 text.toList).length
          (Token.scan 1 text.toList) with
      | error misplaced =>
          rw [read] at failed
          cases failed
          rcases stops_of_parseTokens (Nat.le_refl _) read with
            ⟨used, rest, split, rfl, unfinished, impossible⟩
          exact ⟨used, rest, split, rfl, unfinished.opens, fun _ => unfinished, impossible⟩
      | ok found =>
          obtain ⟨type, rest⟩ := found
          rcases consumed_of_parseTokens read with ⟨used, split, spelled, wellFormed, _⟩
          rw [read] at failed
          cases rest with
          | nil => cases failed
          | cons token others =>
              cases failed
              refine ⟨used, token :: others, split, rfl, ?_, by simp, ?_⟩
              · exact ⟨type, wellFormed, spelled ▸ List.prefix_refl _⟩
              · rintro _ ⟨⟩ ⟨other, otherFormed, begins⟩
                -- the type that was read is all of the other one
                rw [spelled] at begins
                have same := words_eq_of_begins wellFormed otherFormed
                  ((List.prefix_append _ _).trans begins)
                have lengths := begins.length_le
                rw [same, List.length_append, List.length_singleton] at lengths
                omega

/-- All tokens of a text start before what is beyond its end. -/
theorem textsBefore_of_units_lt {text : String} {place : Nat} (beyond : Text.units text < place) :
    textsBefore text place = tokenTexts text := by
  rw [textsBefore, tokenTexts, List.filter_eq_self.mpr]
  intro token member
  have inside := ((Token.ordered_scan 1 text.toList).2 token member).2
  rw [Text.units] at beyond
  rw [decide_eq_true_eq]
  omega

/-- The tokens that start before a token are those in front of it. -/
theorem textsBefore_of_split {text : String} {token : Token}
    (split : Token.scan 1 text.toList = used ++ token :: rest) :
    textsBefore text token.column = used.map (·.text) := by
  have columns := (Token.ordered_scan 1 text.toList).1
  rw [split, List.pairwise_append, List.pairwise_cons] at columns
  rw [textsBefore, split, List.filter_append, List.filter_eq_self.mpr,
    List.filter_eq_nil_iff.mpr, List.append_nil]
  · intro other member
    rw [decide_eq_true_eq]
    rcases List.mem_cons.mp member with rfl | later
    · exact Nat.lt_irrefl _
    · exact Nat.lt_asymm (columns.2.1.1 other later)
  · intro other member
    exact decide_eq_true (columns.2.2 other member token List.mem_cons_self)

/-- A rejected text is rejected at the first token that cannot follow those
before it: these are the beginning of an accepted text, and with the token they
are not.  Or it is rejected at its end: then its tokens are the beginning of an
accepted text and those of none. -/
theorem rejected_at_first_impossible {text : String} {line : Number} {rejection : Rejection}
    (rejected : parse text line = .error rejection) :
    (rejection.column ≤ Text.units text →
      ∃ token ∈ Token.scan 1 text.toList, token.column = rejection.column ∧
        Viable (textsBefore text rejection.column) ∧
        ¬ Viable (textsBefore text rejection.column ++ [token.text])) ∧
    (Text.units text < rejection.column →
      rejection.column = Text.units text + 1 ∧
        textsBefore text rejection.column = tokenTexts text ∧
        (∃ expression, Accepted expression ∧ tokenTexts text <+: tokenTexts expression ∧
          tokenTexts text ≠ tokenTexts expression) ∧
        ¬ ∃ expression, Accepted expression ∧ tokenTexts expression = tokenTexts text) := by
  rcases exists_split_of_rejected rejected with
    ⟨used, rest, split, place, opens, unfinished, impossible⟩
  cases rest with
  | nil =>
      have texts : tokenTexts text = used.map (·.text) := by
        rw [tokenTexts, split, List.append_nil]
      have atEnd : rejection.column = Text.units text + 1 := place
      rw [texts, textsBefore_of_units_lt (by omega), texts]
      refine ⟨fun inside => by omega, fun _ => ⟨atEnd, rfl, ?_⟩⟩
      exact ⟨(unfinished rfl).exists_longer, (unfinished rfl).not_accepted⟩
  | cons token others =>
      have here : rejection.column = token.column := place
      have member : token ∈ Token.scan 1 text.toList := by simp [split]
      have inside := ((Token.ordered_scan 1 text.toList).2 token member).2
      rw [here, textsBefore_of_split split, viable_iff_opens, Text.units]
      refine ⟨fun _ => ⟨token, member, rfl, opens, ?_⟩, fun beyond => by omega⟩
      rw [viable_iff_opens]
      exact impossible token rfl

/-- A bracket where the value of a map should stand is the first token that
cannot be there. -/
theorem rejected_missing_value :
    parse "map<i32, >" (.ofInt 1) = .error ⟨"map<i32, >", 10, .unexpected ">"⟩ ∧
      ∃ token ∈ Token.scan 1 "map<i32, >".toList, token.column = 10 ∧
        Viable (textsBefore "map<i32, >" 10) ∧
        ¬ Viable (textsBefore "map<i32, >" 10 ++ [token.text]) :=
  have rejected : parse "map<i32, >" (.ofInt 1) =
      .error ⟨"map<i32, >", 10, .unexpected ">"⟩ := by
    decide +kernel
  ⟨rejected, (rejected_at_first_impossible rejected).1 (by decide)⟩

end IdlLinker.TypeExpression
