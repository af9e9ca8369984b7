import Quotation.Text.Blank
import Quotation.Text.Digit

/-!
# References that look like paths

Bracketed prose, footnote numbers and check boxes look like markers too. A reference is taken for a path if it has no blanks and either holds a slash or ends in something like a file extension.
-/

namespace Quotation.Citation

/-- The text before and after the last full stop. -/
def extension? (ref : Text) : Option (Text × Text) :=
  (Text.cut '.' ref.reverse).map fun (ext, stem) => (stem.reverse, ext.reverse)

def looksLikePath (ref : Text) : Bool :=
  let ref := Text.trim ref
  if ref = [] || ref.any Text.isBlank then false
  else if '/' ∈ ref || '\\' ∈ ref then true
  else match extension? ref with
    | some (stem, ext) => stem ≠ [] && ext ≠ [] && !ext.all Text.isDigit
    | none => false

end Quotation.Citation
