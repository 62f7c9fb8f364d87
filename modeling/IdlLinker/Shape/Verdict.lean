import IdlLinker.Value

/-!
# Verdicts

Checking data against a shape gives a value, issues, or both.  A value with
issues has the right types and breaks some rule; no value means that a type
was wrong.  Verdicts on the parts of a whole are combined without stopping, so
every issue is reported, in order.

This is how parsing with a schema of zod 3 ends: valid, dirty or aborted.  The
codes and texts of flaws are those of its issues with the default error map.
-/

namespace IdlLinker

/-- What is wrong with a piece of data. -/
inductive Flaw
  | missing
  | wrongKind (expected received : Value.Kind)
  | notInteger
  | notPositive
  | emptyText
  | notIdentifier
  | notServiceName
  | notLiteral (expected : String)
  | unknownKeys (keys : List String)
  | unknownDefinitionKind (known : List String)
  | noAlternative
  deriving DecidableEq, Repr

namespace Flaw

/-- The stable code of a flaw. -/
def code : Flaw → String
  | missing => "invalid_type"
  | wrongKind .. => "invalid_type"
  | notInteger => "invalid_type"
  | notPositive => "too_small"
  | emptyText => "too_small"
  | notIdentifier => "invalid_string"
  | notServiceName => "invalid_string"
  | notLiteral _ => "invalid_literal"
  | unknownKeys _ => "unrecognized_keys"
  | unknownDefinitionKind _ => "invalid_union_discriminator"
  | noAlternative => "invalid_union"

/-- A word in single quotes. -/
def inQuotes (word : String) : String := "'" ++ word ++ "'"

/-- The text of a flaw. -/
def message : Flaw → String
  | missing => "Required"
  | wrongKind expected received =>
    "Expected " ++ expected.word ++ ", received " ++ received.word
  | notInteger => "Expected integer, received float"
  | notPositive => "Number must be greater than 0"
  | emptyText => "String must contain at least 1 character(s)"
  | notIdentifier => "expected an identifier"
  | notServiceName => "expected a service name"
  | notLiteral expected => "Invalid literal value, expected \"" ++ expected ++ "\""
  | unknownKeys keys =>
    "Unrecognized key(s) in object: " ++ ", ".intercalate (keys.map inQuotes)
  | unknownDefinitionKind known =>
    "Invalid discriminator value. Expected " ++ " | ".intercalate (known.map inQuotes)
  | noAlternative => "Invalid input"

end Flaw

/-- A step from a piece of data to a part of it. -/
inductive PathStep
  | key (name : String)
  | index (position : Nat)
  deriving DecidableEq, Repr

/-- The text of a step in a dotted path. -/
def PathStep.text : PathStep → String
  | key name => name
  | index position => toString position

/-- The text of a step is a word or a number. -/
def PathStep.Plain : PathStep → Prop
  | key name => name.toList.all Char.isAlpha = true ∧ name ≠ ""
  | index _ => True

instance : DecidablePred PathStep.Plain
  | .key name => inferInstanceAs (Decidable (name.toList.all Char.isAlpha = true ∧ name ≠ ""))
  | .index _ => inferInstanceAs (Decidable True)

/-- A flaw and where it is. -/
structure Issue where
  flaw : Flaw
  path : List PathStep := []
  deriving DecidableEq, Repr

/-- What checking a piece of data gives. -/
structure Verdict (α : Type) where
  value? : Option α
  issues : List Issue := []

namespace Verdict

variable {α β : Type}

/-- Data without a flaw. -/
def valid (value : α) : Verdict α := ⟨some value, []⟩

/-- Data of a wrong type. -/
def refused (flaw : Flaw) : Verdict α := ⟨none, [⟨flaw, []⟩]⟩

/-- Data of the right type that breaks rules. -/
def flawed (value : α) (flaws : List Flaw) : Verdict α :=
  ⟨some value, flaws.map fun flaw => ⟨flaw, []⟩⟩

/-- Change the value of a verdict. -/
protected def map (change : α → β) (verdict : Verdict α) : Verdict β :=
  ⟨verdict.value?.map change, verdict.issues⟩

/-- Two verdicts side by side: a value needs both values, and the issues of
both are kept. -/
protected def seq (change : Verdict (α → β)) (verdict : Verdict α) : Verdict β :=
  ⟨change.value?.bind fun f => verdict.value?.map f, change.issues ++ verdict.issues⟩

instance : Applicative Verdict where
  pure := valid
  seq change verdict := Verdict.seq change (verdict ())

/-- Nothing is wrong. -/
def isValid (verdict : Verdict α) : Bool :=
  verdict.value?.isSome && verdict.issues.isEmpty

/-- The verdict on a part, as a verdict on the whole. -/
def under (step : PathStep) (verdict : Verdict α) : Verdict α :=
  { verdict with issues := verdict.issues.map fun issue =>
      { issue with path := step :: issue.path } }

/-- Add an issue of the whole after those of its parts. -/
def withFlaw (verdict : Verdict α) (flaw : Flaw) : Verdict α :=
  { verdict with issues := verdict.issues ++ [⟨flaw, []⟩] }

/-- The better of two verdicts: one that is valid, otherwise one that has a
value, the first of two equally good ones. -/
def orElse (first second : Verdict α) : Verdict α :=
  if first.isValid then first
  else if second.isValid then second
  else if first.value?.isSome then first
  else if second.value?.isSome then second
  else refused .noAlternative

/-- Verdicts on the items of a list, counted from a position. -/
def items (check : Value → Verdict α) : (position : Nat) → List Value → Verdict (List α)
  | _, [] => valid []
  | position, item :: rest =>
    Verdict.seq ((check item).under (.index position) |>.map List.cons)
      (items check (position + 1) rest)

end Verdict

end IdlLinker
