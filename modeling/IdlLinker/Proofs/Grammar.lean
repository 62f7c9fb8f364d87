import IdlLinker.Proofs.Names
import IdlLinker.Proofs.Tokens
import IdlLinker.TypeExpression.Parser

/-!
# Reading types

A text is read as a type just when the words of that type are spread over it,
every name in the type can be given to a type, and every node is on the given
line.  Any other text is rejected.
-/

namespace IdlLinker

/-- A text whose parts between dots are one or two identifiers is an identifier
or two of them joined by a dot. -/
theorem Name.isQualified_iff {name : String} : isQualified name = true ↔ Qualified name := by
  constructor
  · intro qualified
    have joined := joinSegments_segments name.toList
    simp only [isQualified, Bool.and_eq_true, decide_eq_true_eq, List.all_eq_true] at qualified
    match parts : segments name.toList with
    | [] => exact absurd parts (segments_ne_nil _)
    | [only] =>
        rw [parts] at qualified joined
        left
        rw [isIdentifier, ← joined]
        exact qualified.2 only (by simp)
    | [first, second] =>
        rw [parts] at qualified joined
        refine Or.inr ⟨String.ofList first, String.ofList second, ?_, ?_, ?_⟩
        · rw [isIdentifier, String.toList_ofList]
          exact qualified.2 first (by simp)
        · rw [isIdentifier, String.toList_ofList]
          exact qualified.2 second (by simp)
        · apply String.toList_inj.mp
          simpa [joinSegments] using joined.symm
    | _ :: _ :: _ :: _ =>
        rw [parts] at qualified
        simp at qualified
  · rintro (identifier | ⟨first, second, firstIdentifier, secondIdentifier, rfl⟩)
    · rw [isQualified, segments_of_not_mem (plain_of_isIdentifier identifier).1]
      simpa [isIdentifier] using identifier
    · have plain := (plain_of_isIdentifier firstIdentifier).1
      have parts : segments (first ++ "." ++ second).toList = [first.toList, second.toList] := by
        rw [← segments_of_not_mem (plain_of_isIdentifier secondIdentifier).1]
        simpa using segments_append_dot plain second.toList
      rw [isQualified, parts]
      simpa [isIdentifier] using ⟨firstIdentifier, secondIdentifier⟩

namespace TypeExpression

variable {line : Number} {type : TypeExpression} {depth : Nat} {tokens rest : List Token}

/-! ## Types on one line -/

theorem onLine_atLine (line : Number) (type : TypeExpression) : (type.atLine line).OnLine line := by
  induction type with
  | base type own => rfl
  | named name own => rfl
  | map key value own keyHypothesis valueHypothesis => exact ⟨keyHypothesis, valueHypothesis, rfl⟩
  | list value own hypothesis => exact ⟨hypothesis, rfl⟩
  | set value own hypothesis => exact ⟨hypothesis, rfl⟩

theorem OnLine.atLine_eq (onLine : type.OnLine line) : type.atLine line = type := by
  induction type with
  | base type own => exact congrArg _ (Eq.symm onLine)
  | named name own => exact congrArg _ (Eq.symm onLine)
  | map key value own keyHypothesis valueHypothesis =>
      rcases onLine with ⟨keyLine, valueLine, rfl⟩
      rw [atLine, keyHypothesis keyLine, valueHypothesis valueLine]
  | list value own hypothesis =>
      rcases onLine with ⟨valueLine, rfl⟩
      rw [atLine, hypothesis valueLine]
  | set value own hypothesis =>
      rcases onLine with ⟨valueLine, rfl⟩
      rw [atLine, hypothesis valueLine]

@[simp]
theorem words_atLine (line : Number) (type : TypeExpression) :
    (type.atLine line).words = type.words := by
  induction type with
  | map key value own keyHypothesis valueHypothesis =>
      simp [atLine, words, keyHypothesis, valueHypothesis]
  | _ => simp_all [atLine, words]

theorem WellFormed.atLine (wellFormed : type.WellFormed) (line : Number) :
    (type.atLine line).WellFormed := by
  induction type with
  | map key value own keyHypothesis valueHypothesis =>
      exact ⟨keyHypothesis wellFormed.1, valueHypothesis wellFormed.2⟩
  | list value own hypothesis => exact hypothesis wellFormed
  | set value own hypothesis => exact hypothesis wellFormed
  | _ => exact wellFormed

/-! ## Words of a type -/

theorem isWord_of_isIdentifier {name : String} (identifier : Name.isIdentifier name = true) :
    Token.IsWord name := by
  rw [Name.isIdentifier] at identifier
  cases characters : name.toList with
  | nil =>
      rw [characters] at identifier
      cases identifier
  | cons first rest =>
      rw [characters] at identifier
      simp only [Name.isIdentifierChars, Bool.and_eq_true, List.all_eq_true] at identifier
      exact ⟨first, rest, characters, identifier.1, fun character member =>
        Token.isWordPart_of_isPart (identifier.2 character member)⟩

/-- A name of a type is one word. -/
theorem isWord_of_qualified {name : String} (qualified : Name.Qualified name) :
    Token.IsWord name := by
  rcases qualified with identifier | ⟨front, back, frontIdentifier, backIdentifier, rfl⟩
  · exact isWord_of_isIdentifier identifier
  · rcases isWord_of_isIdentifier frontIdentifier with ⟨first, tail, frontSame, start, parts⟩
    rcases isWord_of_isIdentifier backIdentifier with ⟨next, more, backSame, nextStart, others⟩
    refine ⟨first, tail ++ '.' :: next :: more, by simp [frontSame, backSame], start, ?_⟩
    intro character member
    simp only [List.mem_append, List.mem_cons] at member
    rcases member with inside | rfl | rfl | inside
    · exact parts character inside
    · decide
    · exact Token.isWordPart_of_isStart nextStart
    · exact others character inside

theorem lexemes_words (wellFormed : type.WellFormed) : ∀ word ∈ type.words, Token.Lexeme word := by
  have word (name : String) (identifier : Name.isIdentifier name = true) : Token.Lexeme name :=
    Or.inr (isWord_of_isIdentifier identifier)
  have mark (name : String) (member : name ∈ Token.marks) : Token.Lexeme name := Or.inl member
  induction type with
  | base type own =>
      intro name member
      rw [words, List.mem_singleton] at member
      subst member
      exact word _ (by cases type <;> decide)
  | named name own =>
      intro other member
      rw [words, List.mem_singleton] at member
      subst member
      exact Or.inr (isWord_of_qualified wellFormed.qualified)
  | map key value own keyHypothesis valueHypothesis =>
      intro name member
      simp only [words, List.mem_cons, List.mem_append, List.not_mem_nil, or_false] at member
      rcases member with rfl | rfl | inside | rfl | inside | rfl
      · exact word _ (by decide)
      · exact mark _ (by decide)
      · exact keyHypothesis wellFormed.1 name inside
      · exact mark _ (by decide)
      · exact valueHypothesis wellFormed.2 name inside
      · exact mark _ (by decide)
  | list value own hypothesis | set value own hypothesis =>
      intro name member
      simp only [words, List.mem_cons, List.mem_append, List.not_mem_nil, or_false] at member
      rcases member with rfl | rfl | inside | rfl
      · exact word _ (by decide)
      · exact mark _ (by decide)
      · exact hypothesis wellFormed name inside
      · exact mark _ (by decide)

/-- Punctuation stands between any two names of a type. -/
theorem separate_words (type : TypeExpression) : Token.Separate type.words := by
  have opened : "<" ∈ Token.marks := by decide
  have divided : "," ∈ Token.marks := by decide
  have closed : ">" ∈ Token.marks := by decide
  unfold Token.Separate
  induction type with
  | base type own => simp [words]
  | named name own => simp [words]
  | map key value own keyHypothesis valueHypothesis =>
      simp [words, List.isChain_cons, List.isChain_append, opened, divided, closed,
        keyHypothesis, valueHypothesis]
  | list value own hypothesis | set value own hypothesis =>
      simp [words, List.isChain_cons, List.isChain_append, opened, closed, hypothesis]

/-! ## Reading tokens -/

theorem takePunctuation_eq_ok_iff {punctuation : String} :
    takePunctuation punctuation tokens = .ok rest ↔
      ∃ token, token.text = punctuation ∧ tokens = token :: rest := by
  cases tokens with
  | nil => simp [takePunctuation]
  | cons token others =>
      by_cases same : token.text = punctuation
      · simp [takePunctuation, same, eq_comm]
      · simp [takePunctuation, same]

theorem bind_eq_ok {α β : Type} {first : Except Misplaced α} {next : α → Except Misplaced β}
    {value : β} : (first >>= next) = .ok value ↔ ∃ found, first = .ok found ∧
      next found = .ok value := by
  cases first with
  | error fault => simp [bind, Except.bind]
  | ok found => simp [bind, Except.bind]

/-- Tokens that begin with the words of a type are read as that type. -/
theorem parseTokens_of_words {used : List Token} (spelled : used.map (·.text) = type.words)
    (wellFormed : type.WellFormed) (bound : used.length ≤ depth) (rest : List Token) :
    parseTokens line depth (used ++ rest) = .ok (type.atLine line, rest) := by
  induction type generalizing used depth rest with
  | base type own =>
      rw [words, List.map_eq_singleton_iff] at spelled
      rcases spelled with ⟨token, rfl, same⟩
      cases depth with
      | zero => simp at bound
      | succ depth =>
          have name : Name.isQualified type.name = true ∧ type.name ∉ containerWords := by
            cases type <;> decide
          simp only [containerWords, List.mem_cons, List.not_mem_nil, or_false, not_or] at name
          simp [parseTokens, same, name, atLine]
  | named name own =>
      rw [words, List.map_eq_singleton_iff] at spelled
      rcases spelled with ⟨token, rfl, same⟩
      cases depth with
      | zero => simp at bound
      | succ depth =>
          have apart := wellFormed.notContainer
          simp only [containerWords, List.mem_cons, List.not_mem_nil, or_false, not_or] at apart
          have noBase : BaseType.ofName? name = none := by
            cases found : BaseType.ofName? name with
            | none => rfl
            | some base => exact absurd (BaseType.name_of_ofName? found) (wellFormed.notBase base)
          simp [parseTokens, same, apart, Name.isQualified_iff.mpr wellFormed.qualified, noBase,
            atLine]
  | map key value own keyHypothesis valueHypothesis =>
      simp only [words, List.map_eq_cons_iff, List.map_eq_append_iff, List.map_eq_nil_iff]
        at spelled
      rcases spelled with ⟨word, _, rfl, isMap, opening, _, rfl, isOpening, keyTokens, _, rfl,
        keySpelled, comma, _, rfl, isComma, valueTokens, _, rfl, valueSpelled, closing, _, rfl,
        isClosing, rfl⟩
      cases depth with
      | zero => simp at bound
      | succ depth =>
          simp only [List.length_cons, List.length_append] at bound
          have keyRead := keyHypothesis keySpelled wellFormed.1
            (show keyTokens.length ≤ depth by omega) (comma :: (valueTokens ++ closing :: rest))
          have valueRead := valueHypothesis valueSpelled wellFormed.2
            (show valueTokens.length ≤ depth by omega) (closing :: rest)
          simp [parseTokens, takePunctuation, isMap, isOpening, isComma, isClosing, keyRead,
            valueRead, bind, Except.bind, pure, Except.pure, atLine]
  | list value own hypothesis | set value own hypothesis =>
      simp only [words, List.map_eq_cons_iff, List.map_eq_append_iff, List.map_eq_nil_iff]
        at spelled
      rcases spelled with ⟨word, _, rfl, isWord, opening, _, rfl, isOpening, valueTokens, _, rfl,
        valueSpelled, closing, _, rfl, isClosing, rfl⟩
      cases depth with
      | zero => simp at bound
      | succ depth =>
          simp only [List.length_cons, List.length_append] at bound
          have valueRead := hypothesis valueSpelled wellFormed
            (show valueTokens.length ≤ depth by omega) (closing :: rest)
          simp [parseTokens, takePunctuation, isWord, isOpening, isClosing, valueRead, bind,
            Except.bind, pure, Except.pure, atLine]

/-- The tokens up to the rest are the words of a type that can be written, and
the type is on the line. -/
def Consumed (line : Number) (tokens : List Token) (type : TypeExpression) (rest : List Token) :
    Prop :=
  ∃ used, tokens = used ++ rest ∧ used.map (·.text) = type.words ∧ type.WellFormed ∧
    type.OnLine line

section Inner

variable {token : Token}
  (inner : ∀ {value : TypeExpression} {tokens rest : List Token},
    parseTokens line depth tokens = .ok (value, rest) → Consumed line tokens value rest)

include inner

/-- A list or a set is its word and a type between brackets. -/
theorem consumed_container {container : TypeExpression → Number → TypeExpression} {word : String}
    (isWord : token.text = word)
    (read : (do
      let rest ← takePunctuation "<" tokens
      let (value, rest) ← parseTokens line depth rest
      let rest ← takePunctuation ">" rest
      return (container value line, rest)) = Except.ok (type, rest)) :
    ∃ value used, type = container value line ∧ token :: tokens = used ++ rest ∧
      used.map (·.text) = word :: "<" :: (value.words ++ [">"]) ∧ value.WellFormed ∧
      value.OnLine line := by
  simp only [bind_eq_ok, takePunctuation_eq_ok_iff, Prod.exists] at read
  rcases read with ⟨_, ⟨opening, isOpening, rfl⟩, value, _, valueRead, _,
    ⟨closing, isClosing, rfl⟩, same⟩
  cases same
  rcases inner valueRead with ⟨valueTokens, rfl, valueWords, valueFormed, valueLine⟩
  refine ⟨value, token :: opening :: (valueTokens ++ [closing]), rfl, by simp, ?_, valueFormed,
    valueLine⟩
  simp [isWord, isOpening, isClosing, valueWords]

/-- A map is its word and two types between brackets. -/
theorem consumed_map (isMap : token.text = "map")
    (read : (do
      let rest ← takePunctuation "<" tokens
      let (key, rest) ← parseTokens line depth rest
      let rest ← takePunctuation "," rest
      let (value, rest) ← parseTokens line depth rest
      let rest ← takePunctuation ">" rest
      return (map key value line, rest)) = Except.ok (type, rest)) :
    Consumed line (token :: tokens) type rest := by
  simp only [bind_eq_ok, takePunctuation_eq_ok_iff, Prod.exists] at read
  rcases read with ⟨_, ⟨opening, isOpening, rfl⟩, key, _, keyRead, _, ⟨comma, isComma, rfl⟩,
    value, _, valueRead, _, ⟨closing, isClosing, rfl⟩, same⟩
  cases same
  rcases inner keyRead with ⟨keyTokens, rfl, keyWords, keyFormed, keyLine⟩
  rcases inner valueRead with ⟨valueTokens, rfl, valueWords, valueFormed, valueLine⟩
  refine ⟨token :: opening :: (keyTokens ++ comma :: (valueTokens ++ [closing])), by simp, ?_,
    ⟨keyFormed, valueFormed⟩, keyLine, valueLine, rfl⟩
  simp [words, isMap, isOpening, isComma, isClosing, keyWords, valueWords]

end Inner

theorem isTypeName_of_ofName? {name : String} (qualified : Name.isQualified name = true)
    (missing : BaseType.ofName? name = none) (apart : name ∉ containerWords) : IsTypeName name := by
  refine ⟨Name.isQualified_iff.mp qualified, ?_, apart⟩
  intro base same
  rw [← same, BaseType.ofName?_name] at missing
  cases missing

/-- Tokens that are read as a type begin with its words. -/
theorem consumed_of_parseTokens (read : parseTokens line depth tokens = .ok (type, rest)) :
    Consumed line tokens type rest := by
  induction depth generalizing tokens type rest with
  | zero => cases tokens <;> simp [parseTokens] at read
  | succ depth hypothesis =>
      cases tokens with
      | nil => simp [parseTokens] at read
      | cons token others =>
          rw [parseTokens] at read
          split at read
          · next isMap => exact consumed_map hypothesis isMap read
          · split at read
            · next isList =>
                rcases consumed_container hypothesis isList read with
                  ⟨value, used, rfl, split, spelled, formed, onLine⟩
                exact ⟨used, split, spelled, formed, onLine, rfl⟩
            · split at read
              · next isSet =>
                  rcases consumed_container hypothesis isSet read with
                    ⟨value, used, rfl, split, spelled, formed, onLine⟩
                  exact ⟨used, split, spelled, formed, onLine, rfl⟩
              · split at read
                · next qualified =>
                    refine ⟨[token], ?_⟩
                    split at read
                    · next base found =>
                        cases read
                        simp [words, WellFormed, OnLine, BaseType.name_of_ofName? found]
                    · next missing =>
                        cases read
                        have apart : token.text ∉ containerWords := by simp [containerWords, *]
                        exact ⟨rfl, rfl, isTypeName_of_ofName? qualified missing apart, rfl⟩
                · cases read

theorem parseAll_eq_ok_iff : parseAll line tokens = .ok type ↔
    tokens.map (·.text) = type.words ∧ type.WellFormed ∧ type.OnLine line := by
  constructor
  · intro read
    simp only [parseAll, bind_eq_ok, Prod.exists] at read
    rcases read with ⟨found, rest, read, ended⟩
    rcases consumed_of_parseTokens read with ⟨used, rfl, spelled, formed, onLine⟩
    cases rest with
    | nil =>
        cases ended
        rw [List.append_nil]
        exact ⟨spelled, formed, onLine⟩
    | cons => cases ended
  · rintro ⟨spelled, formed, onLine⟩
    have read : parseTokens line tokens.length (tokens ++ []) = .ok (type.atLine line, []) :=
      parseTokens_of_words spelled formed (Nat.le_refl _) []
    rw [List.append_nil, onLine.atLine_eq] at read
    simp [parseAll, read, bind, Except.bind, pure, Except.pure]

/-- The tokens of a text are the words of a type just when these are spread over
the text. -/
theorem map_text_scan_eq_words_iff (wellFormed : type.WellFormed) {characters : List Char}
    (column : Nat) : (Token.scan column characters).map (·.text) = type.words ↔
      Text.Spread type.words characters := by
  constructor
  · intro same
    rw [← same]
    apply Token.spread_scan
    intro token member
    have word : token.text ∈ type.words := same ▸ List.mem_map_of_mem member
    exact (lexemes_words wellFormed _ word).ne_half
  · intro spread
    exact Token.map_text_scan spread (lexemes_words wellFormed) (separate_words type) column

/-- A text is read as a type just when the words of that type are spread over
it, the names in it are names of types, and every node is on the line. -/
theorem parse_eq_ok_iff {text : String} : parse text line = .ok type ↔
    type.WellFormed ∧ type.OnLine line ∧ Text.Spread type.words text.toList := by
  have read : parse text line = .ok type ↔ parseAll line (Token.scan 1 text.toList) = .ok type := by
    unfold parse
    split <;> simp [*]
  rw [read, parseAll_eq_ok_iff]
  constructor
  · rintro ⟨spelled, formed, onLine⟩
    exact ⟨formed, onLine, (map_text_scan_eq_words_iff formed 1).mp spelled⟩
  · rintro ⟨formed, onLine, spread⟩
    exact ⟨(map_text_scan_eq_words_iff formed 1).mpr spread, formed, onLine⟩

theorem expression_of_parse_error {text : String} {rejection : Rejection}
    (rejected : parse text line = .error rejection) : rejection.expression = text := by
  unfold parse at rejected
  split at rejected
  · cases rejected
  · cases rejected
    rfl

/-! ## Written types -/

theorem spread_flatMap (words : List String) :
    Text.Spread words (words.flatMap String.toList) := by
  induction words with
  | nil => exact .done
  | cons word words hypothesis => exact .word word hypothesis

theorem toList_text (type : TypeExpression) :
    type.text.toList = type.words.flatMap String.toList := by
  induction type with
  | map key value own keyHypothesis valueHypothesis =>
      simp [text, words, keyHypothesis, valueHypothesis]
  | list value own hypothesis | set value own hypothesis => simp [text, words, hypothesis]
  | _ => simp [text, words]

/-- A type written without blanks is its words, spread as closely as can be. -/
theorem spread_text (type : TypeExpression) : Text.Spread type.words type.text.toList := by
  rw [toList_text]
  exact spread_flatMap type.words

theorem text_ne_empty (wellFormed : type.WellFormed) : type.text ≠ "" := by
  cases type with
  | base type own => cases type <;> simp [text, BaseType.name]
  | named name own =>
      rintro rfl
      exact absurd (Name.isQualified_iff.mpr wellFormed.qualified) (by decide)
  | _ => simp [text]

/-- A text is read exactly when it is a written type with blanks around its
words, and as that type; every other text is rejected. -/
theorem parse_exact (text : String) (line : Number) :
    (∀ type : TypeExpression, type.WellFormed → Text.Spread type.words text.toList →
      parse text line = .ok (type.atLine line)) ∧
    (∀ type : TypeExpression, parse text line = .ok type →
      type.WellFormed ∧ type.OnLine line ∧ Text.Spread type.words text.toList ∧
        (Token.scan 1 type.text.toList).map (·.text) = (Token.scan 1 text.toList).map (·.text)) ∧
    ((∀ type : TypeExpression, type.WellFormed → ¬ Text.Spread type.words text.toList) →
      ∃ column fault, parse text line = .error ⟨text, column, fault⟩) := by
  refine ⟨?_, ?_, ?_⟩
  · intro type formed spread
    rw [parse_eq_ok_iff, words_atLine]
    exact ⟨formed.atLine line, onLine_atLine line type, spread⟩
  · intro type read
    rcases parse_eq_ok_iff.mp read with ⟨formed, onLine, spread⟩
    refine ⟨formed, onLine, spread, ?_⟩
    rw [(map_text_scan_eq_words_iff formed 1).mpr spread,
      (map_text_scan_eq_words_iff formed 1).mpr (spread_text type)]
  · intro none
    cases result : parse text line with
    | ok type =>
        rcases parse_eq_ok_iff.mp result with ⟨formed, _, spread⟩
        exact absurd spread (none type formed)
    | error rejection =>
        have same := expression_of_parse_error result
        subst same
        exact ⟨rejection.column, rejection.fault, rfl⟩

/-- A map from texts to lists of a named type. -/
def namedLists (line : Number) : TypeExpression :=
  .map (.base .string line) (.list (.named "shared.User" line) line) line

theorem wellFormed_namedLists (line : Number) : (namedLists line).WellFormed := by
  refine ⟨trivial, Or.inr ⟨"shared", "User", by decide, by decide, by decide⟩, ?_, by decide⟩
  intro base
  cases base <;> decide

/-- Blanks may stand around every word but not inside one. -/
theorem parse_namedLists :
    Text.Spread (namedLists (.ofInt 7)).words "map< string,\tlist <shared.User>> ".toList ∧
      parse "map< string,\tlist <shared.User>> " (.ofInt 7) = .ok (namedLists (.ofInt 7)) :=
  have spread : Text.Spread (namedLists (.ofInt 7)).words
      "map< string,\tlist <shared.User>> ".toList :=
    .word "map" <| .word "<" <| .blank (by decide) <| .word "string" <| .word "," <|
      .blank (by decide) <| .word "list" <| .blank (by decide) <| .word "<" <|
      .word "shared.User" <| .word ">" <| .word ">" <| .blank (by decide) .done
  ⟨spread, (parse_exact _ (.ofInt 7)).1 (namedLists (.ofInt 7)) (wellFormed_namedLists _) spread⟩

end TypeExpression

end IdlLinker
