import IdlLinker.Proofs.Aliases
import IdlLinker.Proofs.Ancestry
import IdlLinker.Proofs.ErrorLines
import IdlLinker.Proofs.Nearest
import IdlLinker.Proofs.Precedence
import IdlLinker.Proofs.Provenance
import IdlLinker.Proofs.Qualified
import IdlLinker.Proofs.Rejections
import IdlLinker.Proofs.Roots
import IdlLinker.Number.Reading
import IdlLinker.Proofs.Numerals
import IdlLinker.Proofs.Neighbours
import IdlLinker.Proofs.NumberTexts
import IdlLinker.Diagnostic.Firsts
import IdlLinker.Proofs.Firsts
import IdlLinker.Diagnostic.Limit
import IdlLinker.Load.Collected
import IdlLinker.Proofs.Truncation
