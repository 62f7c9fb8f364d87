import IdlLinker.Name
import IdlLinker.Shape.Verdict

/-!
# Shapes

The shapes that data is checked against.  A check is given the data or nothing
at all where a key is absent; a default is used for absent data only.

The checks are put together as the schemas of zod 3 are, and stand for what is
documented of these:

* `text` is `z.string()`, and its rules are the checks of it, such as `regex` and
  `min(1)`: data of another type is refused and no rule is tried on it, otherwise
  every rule is tried and each that fails leaves an issue.
* `number` is `z.number()` with `int` and `positive` as rules.  Not-a-number is a
  type of its own and is refused; the infinite numbers are numbers.
* `boolean` is `z.boolean()` and `literal` is `z.literal`.  Neither converts.
* `optional` is `optional()`: absent data is let through, null is not.
* `withDefault` is `default`: it takes the place of absent data only, and is not
  checked.
* `list` is `z.array`: every item is checked, and the issues of all items are kept
  in order, under the index of the item.
* `record` is `z.object` with `strict`: every key of the shape is checked in the
  order of the shape, present or not, and what other keys the data has is one
  issue after those of the parts.  Lists, null and data of other kinds are told by
  their own type.
* `Verdict.orElse` is `z.union` of two: the first that is valid is taken, else the
  first whose types are right, with its issues, and else there is one issue for
  the whole.
* `constant` is the recursive `z.union` of texts, numbers, booleans, `z.array` and
  `z.record` of constants.  None of its parts has rules, so it is valid or has the
  one issue of a union.  What `z.record` makes has no key `__proto__`.
-/

namespace IdlLinker

/-- A check of data that may be absent. -/
abbrev Check (α : Type) := Option Value → Verdict α

namespace Shape

variable {α : Type}

/-- Data of another kind than expected. -/
def wrongKind (expected : Value.Kind) : Option Value → Verdict α
  | none => .refused .missing
  | some value => .refused (.wrongKind expected value.kind)

/-- A text with rules of its own. -/
def text (rules : String → List Flaw) : Check String
  | some (.text value) => .flawed value (rules value)
  | other => wrongKind .string other

/-- The flaw of a text that fails a test. -/
def demand (holds : Bool) (flaw : Flaw) : List Flaw := if holds then [] else [flaw]

/-- An identifier. -/
def identifier : Check String :=
  text fun value => demand (Name.isIdentifier value) .notIdentifier

/-- An identifier or two of them joined by a dot. -/
def serviceName : Check String :=
  text fun value => demand (Name.isQualified value) .notServiceName

/-- A text that is not empty. -/
def typeText : Check String :=
  text fun value => demand (!value.isEmpty) .emptyText

/-- A number with rules of its own. -/
def number (rules : Number → List Flaw) : Check Number
  | some (.number .nan) => .refused (.wrongKind .number .nan)
  | some (.number value) => .flawed value (rules value)
  | other => wrongKind .number other

/-- An integer. -/
def integer : Check Number :=
  number fun value => demand value.isInteger .notInteger

/-- A line: a positive integer. -/
def line : Check Number :=
  number fun value =>
    demand value.isInteger .notInteger ++ demand value.isPositive .notPositive

/-- A boolean. -/
def boolean : Check Bool
  | some (.boolean value) => .valid value
  | other => wrongKind .boolean other

/-- The one text allowed. -/
def literal (expected : String) : Check Unit
  | some (.text value) =>
    if value = expected then .valid () else .refused (.notLiteral expected)
  | _ => .refused (.notLiteral expected)

/-- Data that may be absent. -/
def optional (check : Check α) : Check (Option α)
  | none => .valid none
  | value => (check value).map some

/-- Data with a default where it is absent. -/
def withDefault (default : α) (check : Check α) : Check α
  | none => .valid default
  | value => check value

/-- A list of data of one shape. -/
def list (check : Check α) : Check (List α)
  | some (.list values) => Verdict.items (fun value => check (some value)) 0 values
  | other => wrongKind .array other

/-- A record: its parts are checked from its entries, and then keys that are
not known are reported together. -/
def record (keys : List String) (parts : List (String × Value) → Verdict α) : Check α
  | some (.record entries) =>
    let unknown := (entries.map (·.1)).filter fun key => !keys.contains key
    let verdict := parts entries
    if unknown.isEmpty then verdict else verdict.withFlaw (.unknownKeys unknown)
  | other => wrongKind .object other

/-- The part of a record under a key. -/
def part (key : String) (check : Check α) (entries : List (String × Value)) : Verdict α :=
  (check (Record.get? entries key)).under (.key key)

/-- The key that is left out of constants. -/
def droppedKey : String := "__proto__"

mutual

/-- A constant, or nothing where null, not-a-number or data of another kind occurs
in it. -/
def constant? : Value → Option Value
  | .null => none
  | .number .nan => none
  | .other _ => none
  | .list items => (constantItems? items).map .list
  | .record entries => (constantEntries? entries).map .record
  | value => some value

/-- The constants of a list. -/
def constantItems? : List Value → Option (List Value)
  | [] => some []
  | item :: rest => do
    let item ← constant? item
    let rest ← constantItems? rest
    return item :: rest

/-- The constants of a record. -/
def constantEntries? : List (String × Value) → Option (List (String × Value))
  | [] => some []
  | (key, value) :: rest => do
    let value ← constant? value
    let rest ← constantEntries? rest
    return if key = droppedKey then rest else (key, value) :: rest

end

/-- A constant. -/
def constant : Check Value
  | none => .refused .noAlternative
  | some value =>
    match constant? value with
    | some constant => .valid constant
    | none => .refused .noAlternative

end Shape

end IdlLinker
