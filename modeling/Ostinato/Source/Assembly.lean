import Ostinato.Source.Decode
import Ostinato.Source.Listing

/-!
# Assembly

The instructions of a program text and the faults found in it, in the order of the text.
-/

namespace Ostinato

/-- A fault and the place where it was found. -/
structure Diagnostic where
  warning : Warning
  span : Span
  number : Nat
deriving DecidableEq

/-- A program and the faults found in its text. -/
structure Assembly where
  program : Program
  diagnostics : List Diagnostic

/-- The declarations of names that are among the given ones or were declared further up. -/
def duplicates (seen : List String) : List Declaration → List Diagnostic
  | [] => []
  | d :: rest =>
    if seen.contains d.name then ⟨.duplicateLabel d.name, d.span, d.number⟩ :: duplicates seen rest
    else duplicates (d.name :: seen) rest

namespace Listing

def lineDiagnostics (listing : Listing) (line : Line) : List Diagnostic :=
  (decode listing.label? line.text).2.map fun warning => ⟨warning, line.span, line.number⟩

/-- All faults, in the order of the text. -/
def diagnostics (listing : Listing) : List Diagnostic :=
  (duplicates [] listing.declarations ++ listing.lines.flatMap listing.lineDiagnostics).mergeSort
    fun a b => a.span.start ≤ b.span.start

/-- The instructions, with the labels replaced by the indices that they are bound to. -/
def program (listing : Listing) : Program :=
  (listing.lines.map fun line => (decode listing.label? line.text).1).toArray

def assemble (listing : Listing) : Assembly :=
  ⟨listing.program, listing.diagnostics⟩

end Listing

/-- The program of a text and the faults found in it. -/
def compile (source : String) : Assembly :=
  (Listing.parse source).assemble

end Ostinato
