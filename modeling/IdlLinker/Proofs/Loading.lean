import IdlLinker.Load
import IdlLinker.Load.Collected
import IdlLinker.Proofs.Diagnostics
import IdlLinker.Proofs.Documents
import IdlLinker.Proofs.Located
import IdlLinker.Proofs.Meaning

/-!
# What loading reports

Every stage of loading finds a list of errors, and there are definitions
exactly when it is empty.  What is reported is that list, settled.
-/

namespace IdlLinker.Load

open Diagnostic (AllErrors hasErrors settle)
open Yaml (Node Parsed Reader)

/-! ## Every report is an error -/

theorem allErrors_map {α : Type} {report : α → Diagnostic} (found : List α)
    (error : ∀ item, (report item).severity = .error) : AllErrors (found.map report) := by
  simp [AllErrors, error]

/-- Locating data takes notes of errors only. -/
theorem allErrors_located (document : Parsed) (path : String) (node : Node) :
    AllErrors (located document path node).notes := by
  rw [notes_located]
  exact allErrors_map _ fun _ => rfl

theorem one_le_settleLimit (limit : Option Number) {default : Nat} (floor : 1 ≤ default) :
    1 ≤ settleLimit limit default := by
  unfold settleLimit
  split
  · exact Nat.le_max_left _ _
  · exact floor

/-! ## Stages -/

/-- An outcome tells what was found: errors, which are settled, and there are
definitions exactly when there are none. -/
def Outcome.Tells (outcome : Outcome) (limit : Nat) (found : List Diagnostic) : Prop :=
  AllErrors found ∧ outcome.diagnostics = settle found limit ∧
    (outcome.definitions = none ↔ found ≠ [])

theorem tells_rejected {limit : Nat} {found : List Diagnostic} (errors : AllErrors found)
    (some : found ≠ []) : (rejected limit found).Tells limit found :=
  ⟨errors, rfl, by simp [rejected, some]⟩

@[simp]
theorem firstFound_nil_cons (stages : List (List Diagnostic)) :
    firstFound ([] :: stages) = firstFound stages := rfl

@[simp]
theorem firstFound_singleton (found : List Diagnostic) : firstFound [found] = found := by
  cases found <;> rfl

theorem firstFound_cons_of_ne_nil {found : List Diagnostic} (some : found ≠ [])
    (stages : List (List Diagnostic)) : firstFound (found :: stages) = found := by
  cases found with
  | nil => exact absurd rfl some
  | cons first rest => rfl

/-- Located data tells its issues or else the types in it that are none. -/
theorem loadData_tells (limit : Nat) (data : Value) :
    (loadData limit data).Tells limit (firstFound [issuesFound data, typesFound data]) := by
  have explained := Written.explained_checkDocument (some data)
  unfold loadData issuesFound typesFound
  dsimp only
  split
  · next document value issues =>
      have errors := Written.allErrors_readDocument document
      rw [value, issues, List.map_nil, firstFound_nil_cons, firstFound_singleton]
      refine ⟨errors, rfl, ?_⟩
      rw [← errors.hasErrors_iff_ne_nil]
      simp
  · next clean =>
      have some : (Written.checkDocument (some data)).issues.map (shapeDiagnostic data) ≠ [] := by
        rw [Ne, List.map_eq_nil_iff]
        intro none
        cases value : (Written.checkDocument (some data)).value? with
        | none => exact explained value none
        | some document => exact clean document value none
      rw [firstFound_cons_of_ne_nil some]
      exact tells_rejected (allErrors_map _ fun _ => rfl) some

/-- What is reported of located data: a text that is no type, an issue of its shape,
or that diagnostics were left out. -/
theorem mem_loadData_cases {limit : Nat} {data : Value} {diagnostic : Diagnostic}
    (member : diagnostic ∈ (loadData limit data).diagnostics) :
    (∃ path line message, diagnostic = Written.rejectedType path line message) ∨
      (∃ issue ∈ (Written.checkDocument (some data)).issues,
        diagnostic = shapeDiagnostic data issue) ∨
      ∃ count, diagnostic = Diagnostic.truncated count := by
  unfold loadData at member
  dsimp only at member
  split at member
  · next document _ _ =>
      rcases Diagnostic.mem_or_eq_of_mem_settle member with note | ⟨count, rfl⟩
      · have noted : ∀ other ∈ document.read.notes,
            ∃ path line message, other = Written.rejectedType path line message :=
          Written.forall_notes_readDocument
            (fun path line message => ⟨path, line, message, rfl⟩) document
        exact Or.inl (noted diagnostic note)
      · exact Or.inr (Or.inr ⟨count, rfl⟩)
  · rcases Diagnostic.mem_or_eq_of_mem_settle member with note | ⟨count, rfl⟩
    · rcases List.mem_map.mp note with ⟨issue, among, rfl⟩
      exact Or.inr (Or.inl ⟨issue, among, rfl⟩)
    · exact Or.inr (Or.inr ⟨count, rfl⟩)

/-- A parsed document tells its faults, or its aliases that are not hidden, or what
its data tells. -/
theorem loadParsed_tells (limit : Nat) (document : Parsed) :
    (loadParsed limit document).Tells limit (firstFound [faultsFound document,
      aliasesFound document, issuesFound (sourceData document),
      typesFound (sourceData document)]) := by
  unfold loadParsed
  split
  · next clean =>
      have faultless : faultsFound document = [] := List.map_eq_nil_iff.mpr clean
      rw [faultless, firstFound_nil_cons]
      split
      · next blank =>
          have unaliased : aliasesFound document = [] := by rw [aliasesFound, blank]
          have data : sourceData document = blankData := by rw [sourceData, blank]
          rw [unaliased, firstFound_nil_cons, data]
          exact loadData_tells limit blankData
      · next content given =>
          have errors := allErrors_located document "document" content
          have aliases : aliasesFound document = (located document "document" content).notes := by
            rw [aliasesFound, given]
          have data : sourceData document = (located document "document" content).value := by
            rw [sourceData, given]
          rw [aliases, data]
          dsimp only
          split
          · next refused =>
              have some := errors.hasErrors_iff_ne_nil.mp refused
              rw [firstFound_cons_of_ne_nil some]
              exact tells_rejected errors some
          · next passed =>
              have none := not_not.mp (mt errors.hasErrors_iff_ne_nil.mpr passed)
              rw [none, firstFound_nil_cons]
              exact loadData_tells limit _
  · next faulty =>
      have some : faultsFound document ≠ [] := by
        rw [faultsFound, Ne, List.map_eq_nil_iff]
        exact faulty
      rw [firstFound_cons_of_ne_nil some]
      exact tells_rejected (allErrors_map _ fun _ => rfl) some

/-- Whatever reads the text, and whatever the limits, loading tells what it
collects. -/
theorem load_tells_collected (read : Reader) (text : String) (limits : Limits) :
    (loadWith read text limits).Tells (settleLimit limits.maxDiagnostics defaultMaxDiagnostics)
      (collected read text limits.maxInputBytes) := by
  unfold loadWith collected tooLongFound
  dsimp only
  split
  · have room : (Diagnostic.dedupe [tooLong text.utf8ByteSize
        (settleLimit limits.maxInputBytes defaultMaxInputBytes)]).length ≤
        settleLimit limits.maxDiagnostics defaultMaxDiagnostics :=
      one_le_settleLimit limits.maxDiagnostics (by decide)
    rw [firstFound_cons_of_ne_nil (List.cons_ne_nil _ _)]
    exact ⟨by simp [AllErrors, tooLong], (Diagnostic.settle_of_length_le room).symm, by simp⟩
  · exact loadParsed_tells _ (read text)

/-- Whatever reads the text, and whatever the limits, loading finds errors or gives
definitions. -/
theorem load_tells (read : Reader) (text : String) (limits : Limits) :
    ∃ found, (loadWith read text limits).Tells
      (settleLimit limits.maxDiagnostics defaultMaxDiagnostics) found :=
  ⟨_, load_tells_collected read text limits⟩

/-- Whatever reads the text, a rejected document says so by an error, unless the
limit leaves room for the warning alone and two diagnostics or more were found. -/
theorem load_rejected_iff (read : Reader) (text : String) (limits : Limits) :
    (loadWith read text limits).definitions = none ↔
      hasErrors (loadWith read text limits).diagnostics = true ∨
        settleLimit limits.maxDiagnostics defaultMaxDiagnostics = 1 ∧ ∃ count, 2 ≤ count ∧
          (loadWith read text limits).diagnostics = [Diagnostic.truncated count] := by
  have floor := one_le_settleLimit limits.maxDiagnostics (show 1 ≤ defaultMaxDiagnostics by decide)
  rcases load_tells read text limits with ⟨found, errors, reported, given⟩
  rw [given, reported, errors.hasErrors_settle_iff floor]
  constructor
  · intro some
    by_cases alone : settleLimit limits.maxDiagnostics defaultMaxDiagnostics = 1 ∧
        2 ≤ (Diagnostic.dedupe found).length
    · refine .inr ⟨alone.1, _, alone.2, ?_⟩
      rw [alone.1, Diagnostic.settle_one alone.2]
    · exact .inl ⟨some, alone⟩
  · rintro (⟨some, _⟩ | ⟨_, count, _, warning⟩)
    · exact some
    · rintro rfl
      cases warning

/-- At a limit of one the only place goes to the warning: two unsupported
aliases are rejected without an error. -/
theorem load_twoAliases_silent :
    ¬((load "[*a,*b]" { maxDiagnostics := some (.ofNat 1) }).definitions = none ↔
      hasErrors (load "[*a,*b]" { maxDiagnostics := some (.ofNat 1) }).diagnostics = true) := by
  have rejected : (load "[*a,*b]" { maxDiagnostics := some (.ofNat 1) }).definitions = none :=
    Option.isNone_iff_eq_none.mp (by decide +kernel)
  have silent :
      hasErrors (load "[*a,*b]" { maxDiagnostics := some (.ofNat 1) }).diagnostics = false := by
    decide +kernel
  simp [rejected, silent]

end IdlLinker.Load
