import IdlLinker.Proofs.NumberCharacters
import IdlLinker.Proofs.Loading

/-!
# Aliases in documents

An alias keeps a document from being loaded and is reported at its path, unless
there are more diagnostics than the limit allows.  In a default value, or in a
pair that is an item, it goes unnoticed, unless an alias elsewhere happens to
have the same path.
-/

namespace IdlLinker

namespace Load

open Yaml (Node Reader)
open Diagnostic (settle dedupe truncated)

/-! ## Keys of alias reports -/

/-- Two lists that agree are cut alike at the last place of an element. -/
theorem append_cons_inj_of_not_mem {α : Type} {front back otherFront otherBack : List α}
    {cut : α} (last : cut ∉ back) (otherLast : cut ∉ otherBack)
    (same : front ++ cut :: back = otherFront ++ cut :: otherBack) :
    front = otherFront ∧ back = otherBack := by
  rcases List.append_eq_append_iff.mp same with ⟨between, rfl, rest⟩ | ⟨between, rfl, rest⟩
  · cases between with
    | nil => simpa using rest
    | cons first others =>
        obtain ⟨_, tail⟩ := List.cons.inj rest
        exact absurd (tail ▸ List.mem_append_right _ List.mem_cons_self) last
  · cases between with
    | nil => simpa [eq_comm] using rest
    | cons first others =>
        obtain ⟨_, tail⟩ := List.cons.inj rest
        exact absurd (tail ▸ List.mem_append_right _ List.mem_cons_self) otherLast

/-- The key of the report of an alias, cut at the blank before its name, behind
the message and before the line. -/
theorem key_unsupportedAlias (path name : String) (line : Option Number) :
    (unsupportedAlias path name line).key.toList =
      ("IDL_DOC_ALIAS_UNSUPPORTED\x1f".toList ++ path.toList ++ "\x1ferror\x1fYAML alias".toList ++
        ' ' :: ("\"*".toList ++ name.toList) ++
          "\" is not supported in definition documents.".toList) ++
        '\x1f' :: ((line.map Number.text).getD "").toList := by
  have joined : (unsupportedAlias path name line).key =
      "IDL_DOC_ALIAS_UNSUPPORTED" ++ "\x1f" ++ path ++ "\x1f" ++ "error" ++ "\x1f" ++
        ("YAML alias \"*" ++ name ++ "\" is not supported in definition documents.") ++
          "\x1f" ++ (line.map Number.text).getD "" := rfl
  rw [joined]
  simp

/-- Reports of aliases with one key are about one path, if their names have no
blanks.  A name with a blank could look like the end of a path. -/
theorem path_eq_of_key {path name otherPath otherName : String} {line otherLine : Option Number}
    (plain : ' ' ∉ name.toList) (otherPlain : ' ' ∉ otherName.toList)
    (same : (unsupportedAlias path name line).key =
      (unsupportedAlias otherPath otherName otherLine).key) : path = otherPath := by
  have separator : Number.isTextCharacter '\x1f' = false := by decide
  have lists := congrArg String.toList same
  rw [key_unsupportedAlias, key_unsupportedAlias] at lists
  have upToLine := (append_cons_inj_of_not_mem (Number.not_mem_optional separator line)
    (Number.not_mem_optional separator otherLine) lists).1
  have upToName := List.append_cancel_right upToLine
  have upToBlank := (append_cons_inj_of_not_mem (by simpa using plain)
    (by simpa using otherPlain) upToName).1
  exact String.toList_injective (List.append_cancel_left (List.append_cancel_right upToBlank))

/-! ## Loading a document with aliases -/

/-- Loading a text that is short enough and that is read without an error. -/
theorem load_of_content {read : Reader} {text : String} {limits : Limits} {content : Node}
    (short : text.utf8ByteSize ≤ settleLimit limits.maxInputBytes defaultMaxInputBytes)
    (clean : (read text).errors = []) (given : (read text).content = some content) :
    loadWith read text limits =
      if Diagnostic.hasErrors (located (read text) "document" content).notes then
        rejected (settleLimit limits.maxDiagnostics defaultMaxDiagnostics)
          (located (read text) "document" content).notes
      else
        loadData (settleLimit limits.maxDiagnostics defaultMaxDiagnostics)
          (located (read text) "document" content).value := by
  simp only [loadWith, Nat.not_lt.mpr short, loadParsed, clean, given]
  rfl

theorem code_truncated_ne (count : Nat) :
    (truncated count).code ≠ "IDL_DOC_ALIAS_UNSUPPORTED" := by
  change "IDL_DOC_DIAGNOSTICS_TRUNCATED" ≠ "IDL_DOC_ALIAS_UNSUPPORTED"
  decide

/-- Located data is not reported as an alias. -/
theorem code_ne_of_mem_loadData {limit : Nat} {data : Value} {diagnostic : Diagnostic}
    (member : diagnostic ∈ (loadData limit data).diagnostics) :
    diagnostic.code ≠ "IDL_DOC_ALIAS_UNSUPPORTED" := by
  rcases mem_loadData_cases member with ⟨_, _, _, rfl⟩ | ⟨_, _, rfl⟩ | ⟨count, rfl⟩
  · change "IDL_DOC_TYPE_EXPRESSION_INVALID" ≠ "IDL_DOC_ALIAS_UNSUPPORTED"
    decide
  · change "IDL_DOC_SCHEMA_INVALID" ≠ "IDL_DOC_ALIAS_UNSUPPORTED"
    decide
  · exact code_truncated_ne count

variable {read : Reader} {text : String} {limits : Limits}

/-- Where diagnostics were left out there are no definitions. -/
theorem definitions_eq_none_of_truncated (truncated : (loadWith read text limits).Truncated) :
    (loadWith read text limits).definitions = none := by
  rcases load_tells read text limits with ⟨found, errors, reported, given⟩
  rcases truncated with ⟨count, member⟩
  apply given.mpr
  rintro rfl
  rw [reported, Diagnostic.settle_nil] at member
  cases member

theorem mem_exposed_iff {uses : List AliasUse} {use : AliasUse} :
    use ∈ exposed uses ↔ use ∈ uses ∧ use.hidden = false := by
  simp [exposed]

section Content

variable {content : Node}
  (short : text.utf8ByteSize ≤ settleLimit limits.maxInputBytes defaultMaxInputBytes)
  (clean : (read text).errors = []) (given : (read text).content = some content)

include short clean given

/-- A document with an alias that is not hidden is refused, and what is reported of
it are such aliases. -/
theorem load_of_exposed {use : AliasUse}
    (member : use ∈ exposed (aliases (read text) "document" false content)) :
    loadWith read text limits =
      rejected (settleLimit limits.maxDiagnostics defaultMaxDiagnostics)
        ((exposed (aliases (read text) "document" false content)).map AliasUse.report) := by
  have noted := notes_located (read text) "document" content
  have some : (located (read text) "document" content).notes ≠ [] := by
    rw [noted]
    exact List.ne_nil_of_mem (List.mem_map_of_mem member)
  have errors := allErrors_located (read text) "document" content
  rw [load_of_content short clean given, if_pos (errors.hasErrors_iff_ne_nil.mpr some), noted]

/-- What is reported as an alias is one that is not hidden. -/
theorem exists_exposed_of_reported {diagnostic : Diagnostic}
    (member : diagnostic ∈ (loadWith read text limits).diagnostics)
    (code : diagnostic.code = "IDL_DOC_ALIAS_UNSUPPORTED") :
    ∃ use ∈ exposed (aliases (read text) "document" false content),
      use.path = diagnostic.path := by
  by_cases clear : exposed (aliases (read text) "document" false content) = []
  · have noted := notes_located (read text) "document" content
    rw [clear, List.map_nil] at noted
    rw [load_of_content short clean given, noted] at member
    exact absurd code (code_ne_of_mem_loadData member)
  · rcases List.exists_mem_of_ne_nil _ clear with ⟨first, firstMember⟩
    rw [load_of_exposed short clean given firstMember] at member
    rcases Diagnostic.mem_or_eq_of_mem_settle member with note | ⟨count, rfl⟩
    · rcases List.mem_map.mp note with ⟨use, useMember, rfl⟩
      exact ⟨use, useMember, rfl⟩
    · exact absurd code (code_truncated_ne count)

/-- An alias that is not hidden is refused: of all reports with its key, the first
one is kept, and it is about the same path. -/
theorem refuses_of_exposed {use : AliasUse}
    (unspaced : ∀ other ∈ aliases (read text) "document" false content, ' ' ∉ other.name.toList)
    (member : use ∈ exposed (aliases (read text) "document" false content)) :
    (loadWith read text limits).Refuses use := by
  have refused := load_of_exposed short clean given member
  refine ⟨by rw [refused]; rfl, fun whole => ?_⟩
  have kept : (loadWith read text limits).diagnostics = dedupe
      ((exposed (aliases (read text) "document" false content)).map AliasUse.report) := by
    rw [refused] at whole ⊢
    exact Diagnostic.settle_eq_dedupe fun count left => whole ⟨count, left⟩
  have key := Diagnostic.mem_keys_dedupe.mpr (List.mem_map_of_mem (f := Diagnostic.key)
    (List.mem_map_of_mem (f := AliasUse.report) member))
  rcases List.mem_map.mp key with ⟨diagnostic, found, same⟩
  -- what was kept for the key need not be the report of this alias
  rcases List.mem_map.mp ((Diagnostic.dedupeAfter_sublist [] _).subset found) with
    ⟨other, otherMember, rfl⟩
  rw [kept]
  refine ⟨_, found, rfl, path_eq_of_key ?_ ?_ same⟩
  · exact unspaced other (mem_exposed_iff.mp otherMember).1
  · exact unspaced use (mem_exposed_iff.mp member).1

end Content

/-- In a document that is read without an error, and whose alias names have no
blanks, an alias is refused exactly when an alias at its path is not hidden, or
when diagnostics were left out. -/
theorem load_refuses_iff (read : Reader) (text : String) (limits : Limits)
    (short : text.utf8ByteSize ≤ settleLimit limits.maxInputBytes defaultMaxInputBytes)
    (clean : (read text).errors = []) (unspaced : NamesUnspaced (read text)) :
    ∀ use ∈ documentAliases (read text), (loadWith read text limits).Refuses use ↔
      (loadWith read text limits).Truncated ∨
        ∃ other ∈ documentAliases (read text), other.hidden = false ∧ other.path = use.path := by
  intro use useMember
  unfold NamesUnspaced at unspaced
  unfold documentAliases at unspaced useMember ⊢
  cases given : (read text).content with
  | none =>
      rw [given] at useMember
      cases useMember
  | some content =>
      rw [given] at unspaced
      constructor
      · intro refuses
        by_cases left : (loadWith read text limits).Truncated
        · exact Or.inl left
        · rcases refuses.reported left with ⟨diagnostic, member, code, path⟩
          rcases exists_exposed_of_reported short clean given member code with
            ⟨other, otherMember, same⟩
          rcases mem_exposed_iff.mp otherMember with ⟨among, apart⟩
          exact Or.inr ⟨other, among, apart, same.trans path⟩
      · rintro (left | ⟨other, among, apart, path⟩)
        · exact ⟨definitions_eq_none_of_truncated left, fun whole => absurd left whole⟩
        · have refuses := refuses_of_exposed short clean given unspaced
            (mem_exposed_iff.mpr ⟨among, apart⟩)
          exact ⟨refuses.definitions, path ▸ refuses.reported⟩

/-- In a document that is read without an error, and whose alias names have no
blanks, all aliases are refused exactly when each one that is hidden in a default
value or in a pair has the path of one that is not, or when diagnostics were left
out. -/
theorem load_refuses_aliases_iff (read : Reader) (text : String) (limits : Limits)
    (short : text.utf8ByteSize ≤ settleLimit limits.maxInputBytes defaultMaxInputBytes)
    (clean : (read text).errors = []) (unspaced : NamesUnspaced (read text)) :
    (∀ use ∈ documentAliases (read text), (loadWith read text limits).Refuses use) ↔
      (loadWith read text limits).Truncated ∨
        ∀ use ∈ documentAliases (read text), use.hidden = true →
          ∃ other ∈ documentAliases (read text),
            other.hidden = false ∧ other.path = use.path := by
  have each := load_refuses_iff read text limits short clean unspaced
  constructor
  · intro refused
    by_cases left : (loadWith read text limits).Truncated
    · exact Or.inl left
    · right
      intro use member _
      exact ((each use member).mp (refused use member)).resolve_left left
  · rintro (left | twins) use member
    · exact (each use member).mpr (Or.inl left)
    · apply (each use member).mpr
      right
      cases place : use.hidden with
      | true => exact twins use member place
      | false => exact ⟨use, member, place, rfl⟩

theorem load_refuses_aliases_list :
    (documentAliases (Yaml.read "[*a, *b]")).map AliasUse.path = ["document.0", "document.1"] ∧
      ∀ use ∈ documentAliases (Yaml.read "[*a, *b]"), (load "[*a, *b]").Refuses use := by
  have facts : (Yaml.read "[*a, *b]").errors = [] ∧ NamesUnspaced (Yaml.read "[*a, *b]") ∧
      (documentAliases (Yaml.read "[*a, *b]")).map AliasUse.path = ["document.0", "document.1"] ∧
      ∀ use ∈ documentAliases (Yaml.read "[*a, *b]"), use.hidden = true →
        ∃ other ∈ documentAliases (Yaml.read "[*a, *b]"),
          other.hidden = false ∧ other.path = use.path := by
    decide +kernel
  rcases facts with ⟨clean, unspaced, paths, exposed⟩
  have refused := load_refuses_aliases_iff Yaml.read "[*a, *b]" {} (by decide) clean unspaced
  exact ⟨paths, refused.mpr (Or.inr exposed)⟩

/-- A struct whose second field has an alias for its default value. -/
def aliasedDefault : String :=
  "\x7bdefinitions: [\x7bkind: struct, name: P, fields: [
  \x7bid: 1, name: a, type: i32, default: &x 5\x7d,
  \x7bid: 2, name: b, type: i32, default: *x\x7d]\x7d]\x7d"

/-- The alias is not refused: nothing is reported, and its name reaches the
definition in a record that is the default value. -/
theorem load_aliasedDefault_accepted :
    (Yaml.read aliasedDefault).errors = [] ∧
      documentAliases (Yaml.read aliasedDefault) =
        [⟨"x", "document.definitions.0.fields.1.default", some (.ofNat 3), true⟩] ∧
      ¬ (load aliasedDefault).Refuses
        ⟨"x", "document.definitions.0.fields.1.default", some (.ofNat 3), true⟩ ∧
      (load aliasedDefault).diagnostics = [] ∧
      ((load aliasedDefault).definitions.map fun definitions =>
        definitions.flatMap fun definition =>
          match definition with
          | .struct body => body.fields.map fun field => field.defaultValue.map Value.compact
          | _ => []) = some [some "5", some "\x7b\"source\":\"x\"\x7d"] := by
  have facts : (Yaml.read aliasedDefault).errors = [] ∧
      documentAliases (Yaml.read aliasedDefault) =
        [⟨"x", "document.definitions.0.fields.1.default", some (.ofNat 3), true⟩] ∧
      (load aliasedDefault).diagnostics = [] ∧
      ((load aliasedDefault).definitions.map fun definitions =>
        definitions.flatMap fun definition =>
          match definition with
          | .struct body => body.fields.map fun field => field.defaultValue.map Value.compact
          | _ => []) = some [some "5", some "\x7b\"source\":\"x\"\x7d"] := by
    decide +kernel
  rcases facts with ⟨clean, uses, silent, defaults⟩
  refine ⟨clean, uses, ?_, silent, defaults⟩
  intro refuses
  rw [refuses.definitions] at defaults
  cases defaults

end Load

end IdlLinker
