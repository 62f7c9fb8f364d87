import IdlLinker.Proofs.Mappings

/-!
# Lines of loaded definitions

The lines of a loaded definition lead back to the text.  Definitions, fields,
functions and items are the mappings and bare names of the document, one for
one and in order, and each has the line on which its own node starts, unless
the mapping says another one.  Types and parents are on the line of what they
belong to, and default values get no lines.
-/

namespace IdlLinker.Load

open Yaml (Parsed Reader)

/-- Definitions lead back to a document.  They stand at its nodes, one by one and
in order, with everything in them and with its lines.  The document has no other
mappings but its root: each one outside of default values declares something,
once.  A default value is the data of its node, and where nodes are read plainly
a record in it has a line only where the mapping writes one. -/
structure Provenance (document : Parsed) (definitions : List Definition) : Prop where
  stands : List.Forall₂ (DefinitionAt document) (definitionNodes document) definitions
  declared : (documentMappings document).Perm (document.content.toList ++
    (documentNamespaces document).flatten.filter isMapping)
  unstamped : ∀ keyOf, document.ReadsPlainly keyOf →
    ∀ written, PlainAt keyOf written (trimmed (document.plain written))

/-- The definitions of a text that is loaded lead back to it, whatever reads the
text. -/
theorem loaded_lines (read : Reader) (text : String) (limits : Limits)
    (definitions : List Definition)
    (loaded : (loadWith read text limits).definitions = some definitions) :
    Provenance (read text) definitions where
  stands := forall₂_definitionAt loaded
  declared := documentMappings_perm loaded
  unstamped _ plainly written := plainAt_trimmed plainly written

/-- The lines of a definition and of its fields or items. -/
def ownLines (definition : Definition) : List Number :=
  definition.line ::
    match definition with
    | .struct body => body.fields.map (·.line)
    | .enum body => body.items.map (·.line)
    | _ => []

/-- A struct with a field that says its own line and has a mapping for its default
value, and an enum with bare items on two lines. -/
def spreadText : String :=
  "\x7bdefinitions: [\x7bkind: struct, name: P, fields: [
  \x7bname: a, type: i32, default: \x7bx: 2\x7d, line: 40\x7d]\x7d,
  \x7bkind: enum, name: E, items: [A,
  B]\x7d]\x7d"

theorem loaded_lines_spreadText : ∃ definitions,
    (load spreadText).definitions = some definitions ∧
      definitions.map ownLines = [[.ofNat 1, .ofNat 40], [.ofNat 3, .ofNat 3, .ofNat 4]] ∧
      (Yaml.read spreadText).ReadsPlainly Yaml.Node.plainKey ∧
      Provenance (Yaml.read spreadText) definitions := by
  have lines : ((load spreadText).definitions.map fun definitions => definitions.map ownLines) =
      some [[.ofNat 1, .ofNat 40], [.ofNat 3, .ofNat 3, .ofNat 4]] := by
    decide +kernel
  rcases Option.map_eq_some_iff.mp lines with ⟨definitions, loaded, own⟩
  exact ⟨definitions, loaded, own, Yaml.readsPlainly_read spreadText,
    loaded_lines Yaml.read spreadText {} definitions loaded⟩

end IdlLinker.Load
