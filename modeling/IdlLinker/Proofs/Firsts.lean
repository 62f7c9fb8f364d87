import IdlLinker.Diagnostic.Firsts
import IdlLinker.Proofs.Diagnostics
import IdlLinker.Proofs.NumberCharacters
import IdlLinker.Proofs.NumberTexts

/-!
# Dropping repetitions

The key of a diagnostic tells its words and its line, but not where its code,
path, severity and message end.  Of the diagnostics with the same words and
lines the first one is kept, and that is right exactly when those say the same.
-/

namespace IdlLinker

/-! ## Firsts -/

section Firsts

variable {α β γ : Type} [DecidableEq β] [DecidableEq γ] {mark : α → β} {other : α → γ}
  {items : List α}

/-- The last item of a list is kept if its mark is a new one. -/
theorem firstsBy_concat (mark : α → β) (items : List α) (item : α) :
    firstsBy mark (items ++ [item]) =
      firstsBy mark items ++ if mark item ∈ items.map mark then [] else [item] := by
  have before : (items.zipIdx.filter fun entry =>
      mark entry.1 ∉ ((items ++ [item]).take entry.2).map mark) =
        items.zipIdx.filter fun entry => mark entry.1 ∉ (items.take entry.2).map mark := by
    apply List.filter_congr
    intro entry member
    have inside := List.snd_lt_of_mem_zipIdx member
    rw [List.take_append_of_le_length (by omega)]
  unfold firstsBy
  rw [List.zipIdx_append, List.filter_append, List.map_append, before]
  congr 1
  by_cases old : mark item ∈ items.map mark
  · simp [old]
  · simp [old]

/-- The marks of a list are the marks of its first items. -/
theorem mem_map_firstsBy {value : β} :
    value ∈ (firstsBy mark items).map mark ↔ value ∈ items.map mark := by
  induction items using List.reverseRecOn with
  | nil => rfl
  | append_singleton items item hypothesis =>
      rw [firstsBy_concat, List.map_append, List.mem_append, hypothesis, List.map_append,
        List.mem_append]
      by_cases old : mark item ∈ items.map mark
      · rw [if_pos old, List.map_nil, List.map_singleton, List.mem_singleton]
        simp only [List.not_mem_nil, or_false, iff_self_or]
        rintro rfl
        exact old
      · rw [if_neg old]

/-- First items have different marks. -/
theorem nodup_map_firstsBy (mark : α → β) (items : List α) :
    ((firstsBy mark items).map mark).Nodup := by
  induction items using List.reverseRecOn with
  | nil => exact List.nodup_nil
  | append_singleton items item hypothesis =>
      rw [firstsBy_concat]
      split
      · rwa [List.append_nil]
      · next fresh =>
          rw [List.map_append, List.map_singleton, ← List.concat_eq_append, List.nodup_concat]
          exact ⟨fun old => fresh (mem_map_firstsBy.mp old), hypothesis⟩

theorem firstsBy_congr
    (alike : ∀ one ∈ items, ∀ two ∈ items, mark one = mark two ↔ other one = other two) :
    firstsBy mark items = firstsBy other items := by
  unfold firstsBy
  congr 1
  apply List.filter_congr
  intro entry member
  have here := List.fst_mem_of_mem_zipIdx member
  rw [decide_eq_decide, not_iff_not, List.mem_map, List.mem_map]
  refine exists_congr fun earlier => and_congr_right fun taken => ?_
  exact alike earlier (List.mem_of_mem_take taken) entry.1 here

/-- A mark that tells less has the same first items exactly if it tells as much of
the items of the list. -/
theorem firstsBy_eq_iff (coarser : ∀ one two, other one = other two → mark one = mark two) :
    firstsBy mark items = firstsBy other items ↔
      ∀ one ∈ items, ∀ two ∈ items, mark one = mark two → other one = other two := by
  constructor
  · intro same one member two otherMember alike
    rcases List.mem_map.mp (mem_map_firstsBy.mpr (List.mem_map_of_mem (f := other) member)) with
      ⟨first, kept, firstAlike⟩
    rcases List.mem_map.mp (mem_map_firstsBy.mpr (List.mem_map_of_mem (f := other) otherMember))
      with ⟨second, otherKept, secondAlike⟩
    have marks : mark first = mark second := by
      rw [coarser first one firstAlike, alike, coarser second two secondAlike]
    rw [← same] at kept otherKept
    have equal := List.inj_on_of_nodup_map (nodup_map_firstsBy mark items) kept otherKept marks
    rw [← firstAlike, equal, secondAlike]
  · intro tells
    exact firstsBy_congr fun one member two otherMember =>
      ⟨tells one member two otherMember, coarser one two⟩

end Firsts

namespace Diagnostic

variable {diagnostics : List Diagnostic} {one other : Diagnostic}

theorem dedupeAfter_concat (seen : List String) (diagnostics : List Diagnostic)
    (diagnostic : Diagnostic) :
    dedupeAfter seen (diagnostics ++ [diagnostic]) =
      dedupeAfter seen diagnostics ++
        if diagnostic.key ∈ seen ∨ diagnostic.key ∈ diagnostics.map key then []
        else [diagnostic] := by
  induction diagnostics generalizing seen with
  | nil => simp [dedupeAfter]
  | cons first rest hypothesis =>
      rw [List.cons_append, dedupeAfter, dedupeAfter, List.map_cons]
      by_cases same : diagnostic.key = first.key
      · by_cases old : first.key ∈ seen <;> simp [old, hypothesis, same]
      · by_cases old : first.key ∈ seen <;> simp [old, hypothesis, same]

/-- The first diagnostic of every key is kept. -/
theorem dedupe_eq_firstsBy (diagnostics : List Diagnostic) :
    dedupe diagnostics = firstsBy key diagnostics := by
  unfold dedupe
  induction diagnostics using List.reverseRecOn with
  | nil => rfl
  | append_singleton diagnostics diagnostic hypothesis =>
      rw [dedupeAfter_concat, firstsBy_concat, hypothesis]
      simp

theorem dedupe_dedupe (diagnostics : List Diagnostic) :
    dedupe (dedupe diagnostics) = dedupe diagnostics := by
  apply dedupe_of_nodup
  rw [dedupe_eq_firstsBy]
  exact nodup_map_firstsBy key diagnostics

/-! ## Keys and words -/

theorem splitOn_intercalate_cons {cut : Char} (text : List Char) {texts : List (List Char)}
    (more : texts ≠ []) :
    ([cut].intercalate (text :: texts)).splitOn cut =
      text.splitOn cut ++ ([cut].intercalate texts).splitOn cut := by
  rw [List.intercalate_cons_of_ne_nil more, List.append_assoc, List.singleton_append,
    List.splitOn_append_cons_self]

/-- Texts that are cut alike are alike. -/
theorem eq_of_splitOn {text otherText : String}
    (same : text.toList.splitOn separator = otherText.toList.splitOn separator) :
    text = otherText := by
  have joined := congrArg [separator].intercalate same
  rw [List.intercalate_splitOn, List.intercalate_splitOn] at joined
  exact String.toList_injective joined

/-- The text of a line in a key; without a line it is empty. -/
theorem eq_of_lineText {line otherLine : Option Number}
    (isBinary64 : ∀ number ∈ line, number.IsBinary64)
    (otherIsBinary64 : ∀ number ∈ otherLine, number.IsBinary64)
    (same : (line.map Number.text).getD "" = (otherLine.map Number.text).getD "") :
    line = otherLine := by
  cases line with
  | none =>
      cases otherLine with
      | none => rfl
      | some number => exact absurd same.symm (Number.text_ne_empty number)
  | some number =>
      cases otherLine with
      | none => exact absurd same (Number.text_ne_empty number)
      | some otherNumber =>
          exact congrArg some (Number.text_injective (isBinary64 number rfl)
            (otherIsBinary64 otherNumber rfl) same)

theorem separator_not_mem_severity (severity : Severity) : separator ∉ severity.word.toList := by
  cases severity <;> decide

/-- A key, cut at its separators. -/
theorem splitOn_key (diagnostic : Diagnostic) :
    diagnostic.key.toList.splitOn separator =
      diagnostic.words.1 ++ [((diagnostic.line.map Number.text).getD "").toList] := by
  have cut : "\x1f".toList = [separator] := rfl
  unfold key words
  rw [String.toList_intercalate, cut]
  simp only [List.map_cons, List.map_nil]
  rw [splitOn_intercalate_cons _ (List.cons_ne_nil _ _),
    splitOn_intercalate_cons _ (List.cons_ne_nil _ _),
    splitOn_intercalate_cons _ (List.cons_ne_nil _ _),
    splitOn_intercalate_cons _ (List.cons_ne_nil _ _), List.intercalate_singleton,
    List.splitOn_eq_singleton (separator_not_mem_severity diagnostic.severity),
    List.splitOn_eq_singleton ((Number.not_mem_optional (by decide) diagnostic.line))]
  simp

/-- Two keys are equal when the words and the lines are. -/
theorem key_eq_iff (isBinary64 : ∀ number ∈ one.line, number.IsBinary64)
    (otherIsBinary64 : ∀ number ∈ other.line, number.IsBinary64) :
    one.key = other.key ↔ one.words = other.words := by
  constructor
  · intro same
    have cut := congrArg (fun text => text.toList.splitOn separator) same
    rw [splitOn_key, splitOn_key] at cut
    rcases List.append_inj' cut rfl with ⟨words, lines⟩
    have line := eq_of_lineText isBinary64 otherIsBinary64
      (String.toList_injective (List.singleton_injective lines))
    exact Prod.ext words line
  · intro same
    have line : one.line = other.line := congrArg Prod.snd same
    apply eq_of_splitOn
    rw [splitOn_key, splitOn_key, same, line]

theorem words_eq_of_said (same : one.said = other.said) : one.words = other.words := by
  simp only [said, Prod.mk.injEq] at same
  rcases same with ⟨code, path, severity, message, line⟩
  simp only [words, code, path, severity, message, line]

theorem eq_of_severity_word {severity otherSeverity : Severity}
    (same : severity.word.toList = otherSeverity.word.toList) : severity = otherSeverity := by
  cases severity with
  | error =>
      cases otherSeverity with
      | error => rfl
      | warning => exact absurd same (by decide)
  | warning =>
      cases otherSeverity with
      | error => exact absurd same (by decide)
      | warning => rfl

/-- Where codes have no separator, and paths or messages have none either, words
tell where each part ends. -/
theorem wordsTell_of_plain
    (codes : ∀ diagnostic ∈ diagnostics, separator ∉ diagnostic.code.toList)
    (plain : (∀ diagnostic ∈ diagnostics, separator ∉ diagnostic.path.toList) ∨
      ∀ diagnostic ∈ diagnostics, separator ∉ diagnostic.message.toList) :
    WordsTell diagnostics := by
  intro one member other otherMember same
  simp only [words, Prod.mk.injEq, List.splitOn_eq_singleton (codes one member),
    List.splitOn_eq_singleton (codes other otherMember), List.cons.injEq, List.cons_append,
    List.nil_append] at same
  rcases same with ⟨⟨code, rest⟩, line⟩
  have parts : one.path.toList.splitOn separator = other.path.toList.splitOn separator ∧
      one.severity.word.toList = other.severity.word.toList ∧
        one.message.toList.splitOn separator = other.message.toList.splitOn separator := by
    rcases plain with paths | messages
    · rw [List.splitOn_eq_singleton (paths one member),
        List.splitOn_eq_singleton (paths other otherMember)] at rest ⊢
      rcases List.cons.inj rest with ⟨path, behind⟩
      rcases List.cons.inj behind with ⟨severity, message⟩
      exact ⟨congrArg ([·]) path, severity, message⟩
    · rw [List.splitOn_eq_singleton (messages one member),
        List.splitOn_eq_singleton (messages other otherMember)] at rest ⊢
      rcases List.append_inj' rest rfl with ⟨path, behind⟩
      rcases List.cons.inj behind with ⟨severity, message⟩
      exact ⟨path, severity, message⟩
  rcases parts with ⟨path, severity, message⟩
  simp only [said, Prod.mk.injEq]
  exact ⟨String.toList_injective code, eq_of_splitOn path, eq_of_severity_word severity,
    eq_of_splitOn message, line⟩

/-- Errors are told by what diagnostics say. -/
theorem hasErrors_eq_any_said (diagnostics : List Diagnostic) :
    hasErrors diagnostics = (diagnostics.map said).any fun parts => parts.2.2.1 == .error := by
  rw [List.any_map]
  rfl

theorem hasErrors_firstsBy_said (diagnostics : List Diagnostic) :
    hasErrors (firstsBy said diagnostics) = hasErrors diagnostics := by
  rw [hasErrors_eq_any_said, hasErrors_eq_any_said, Bool.eq_iff_iff, List.any_eq_true,
    List.any_eq_true]
  exact exists_congr fun parts => and_congr_left' mem_map_firstsBy

/-- Of the diagnostics with the same words and lines the first one is kept, and
doing it twice is doing it once.  So exactly the repetitions are dropped if and
only if no two of the diagnostics have the same words and lines without saying the
same; there are no such two where codes have no separator, and paths or messages
have none either.  Lines are any numbers of the format. -/
theorem dedupe_exact (diagnostics : List Diagnostic)
    (lines : ∀ diagnostic ∈ diagnostics, ∀ line ∈ diagnostic.line, line.IsBinary64) :
    dedupe diagnostics = firstsBy words diagnostics ∧
      dedupe (dedupe diagnostics) = dedupe diagnostics ∧
      (DropsRepetitions diagnostics ↔ WordsTell diagnostics) ∧
      ((∀ diagnostic ∈ diagnostics, separator ∉ diagnostic.code.toList) →
        ((∀ diagnostic ∈ diagnostics, separator ∉ diagnostic.path.toList) ∨
          ∀ diagnostic ∈ diagnostics, separator ∉ diagnostic.message.toList) →
        WordsTell diagnostics) := by
  have kept : dedupe diagnostics = firstsBy words diagnostics := by
    rw [dedupe_eq_firstsBy]
    exact firstsBy_congr fun one member other otherMember =>
      key_eq_iff (lines one member) (lines other otherMember)
  have exact : firstsBy words diagnostics = firstsBy said diagnostics ↔ WordsTell diagnostics :=
    firstsBy_eq_iff fun _ _ => words_eq_of_said
  have twice := dedupe_dedupe diagnostics
  refine ⟨kept, twice, ⟨fun drops => exact.mp (kept.symm.trans drops.kept), fun tells => ?_⟩,
    wordsTell_of_plain⟩
  have firsts := kept.trans (exact.mpr tells)
  exact ⟨firsts, twice, by rw [firsts, hasErrors_firstsBy_said]⟩

/-- Three reports on one line: the second differs from the first in its message,
and the third in its suggestion alone. -/
def repeatedReport : List Diagnostic :=
  [{ code := "C", path := "p", severity := .error, message := "a\x1fb", line := some (.ofNat 3) },
    { code := "C", path := "p", severity := .error, message := "a", line := some (.ofNat 3) },
    { code := "C", path := "p", severity := .error, message := "a\x1fb", line := some (.ofNat 3),
      suggestion := some "s" }]

/-- The third report is dropped. -/
theorem dedupe_exact_repeatedReport :
    (∀ diagnostic ∈ repeatedReport, ∀ line ∈ diagnostic.line, line.IsBinary64) ∧
      DropsRepetitions repeatedReport ∧ dedupe repeatedReport = repeatedReport.take 2 := by
  have lines : ∀ diagnostic ∈ repeatedReport, ∀ line ∈ diagnostic.line, line.IsBinary64 := by
    decide +kernel
  rcases dedupe_exact repeatedReport lines with ⟨_, _, drops, plain⟩
  exact ⟨lines, drops.mpr (plain (by decide) (Or.inl (by decide))), by decide +kernel⟩

/-- A warning whose message goes on like a key, and an error whose path does. -/
def hiddenError : List Diagnostic :=
  [{ code := "C", path := "p", severity := .warning, message := "q\x1ferror\x1fm" },
    { code := "C", path := "p\x1fwarning\x1fq", severity := .error, message := "m" }]

/-- The two say nothing alike, but have one key: the error is dropped for the
warning, and no error is left. -/
theorem dedupe_hiddenError :
    (∀ diagnostic ∈ hiddenError, diagnostic.line = none) ∧
      firstsBy said hiddenError = hiddenError ∧ hasErrors hiddenError = true ∧
      dedupe hiddenError = hiddenError.take 1 ∧ hasErrors (dedupe hiddenError) = false ∧
      ¬ DropsRepetitions hiddenError := by
  have silent : hasErrors (dedupe hiddenError) = false := by decide +kernel
  have loud : hasErrors hiddenError = true := by decide
  refine ⟨by decide, by decide +kernel, loud, by decide +kernel, silent, fun drops => ?_⟩
  rw [drops.errors, loud] at silent
  cases silent

end Diagnostic

end IdlLinker
