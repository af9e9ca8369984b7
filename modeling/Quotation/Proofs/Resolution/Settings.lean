import Quotation.Proofs.Resolution.Met

/-!
# What a setting changes

Two configurations may differ in a setting that counts at single steps only. A relation between what they do at these steps then holds between what they make of lines, of quotes and of whole files (`Carries.resolveSource`), if it goes through one step after the other.
-/

namespace Quotation

open Outcome Traced

/-- A compatible relation that holds at each step of resolving under two configurations, where these agree on how files are read and quotes laid out. -/
structure Carries (R : (α : Type) → Traced α → Traced α → Prop) (t : Tree) (config config' : Config) : Prop
    extends Compatible R where
  encoding : config'.encoding = config.encoding
  recursive : config'.recursive = config.recursive
  layOut : config'.layOut = config.layOut
  lift : ∀ {α : Type} (outcome : Except Failure α), R α (lift outcome) (lift outcome)
  left : ∀ marker, R Unit (note (.left marker)) (note (.left marker))
  cited : ∀ marker target, R Unit (note (.cited marker target)) (note (.cited marker target))
  entered : ∀ target depth, R Unit (note (.entered target depth)) (note (.entered target depth))
  dangling : ∀ (descend further : Descent) (ctx : Context) (body : Text) (c : Citation), Citation.parse body = .ok c →
    R Text (resolveReading t config' further ctx (Segment.marker body).toText (.dangling c))
      (resolveReading t config descend ctx (Segment.marker body).toText (.dangling c))

variable {R : (α : Type) → Traced α → Traced α → Prop} {t : Tree} {config config' : Config} {descend further : Descent}
  {ctx : Context} {body : Text} {reading : Reading}

namespace Carries

theorem resolveReading (h : Carries R t config config')
    (hdescend : ∀ marker ctx quote, R Text (further marker ctx quote) (descend marker ctx quote))
    (hreading : reading.Describes t ctx body) :
    R Text (Quotation.resolveReading t config' further ctx (Segment.marker body).toText reading)
      (Quotation.resolveReading t config descend ctx (Segment.marker body).toText reading) := by
  cases reading with
  | prose => exact h.bind (h.left _) fun _ _ _ => h.pure _
  | faulty token reason => exact h.lift _
  | dangling c => exact h.dangling descend further ctx body c hreading.1
  | found c target =>
    rw [Quotation.resolveReading, Quotation.resolveReading, h.encoding, h.layOut]
    refine h.bind (h.cited _ target) fun _ _ _ => h.bind (h.lift _) fun quote _ _ => ?_
    dsimp only
    split
    · exact h.bind (hdescend _ (ctx.nested target) quote) fun resolved _ _ => h.lift _
    · exact h.lift _

theorem resolveLines (h : Carries R t config config')
    (hdescend : ∀ marker ctx quote, R Text (further marker ctx quote) (descend marker ctx quote)) (ctx : Context) (lines : List Text) :
    R (List Text) (lines.mapM (resolveLine t config' further ctx)) (lines.mapM (resolveLine t config descend ctx)) := by
  refine h.mapM_resolveLine fun body _ _ => h.bind (h.lift _) fun reading hreading _ => ?_
  exact h.resolveReading hdescend (Reading.describes_of_ofBody (mapError_eq_ok_iff.1 hreading))

theorem resolveQuote_succ (h : Carries R t config config') {less more : Nat}
    (hquote : ∀ marker ctx quote, R Text (resolveQuote t config' more marker ctx quote) (resolveQuote t config less marker ctx quote))
    (marker : Text) (ctx : Context) (quote : Text) :
    R Text (resolveQuote t config' (more + 1) marker ctx quote) (resolveQuote t config (less + 1) marker ctx quote) :=
  h.bind (h.entered ctx.citingFile ctx.depth) fun _ _ _ => h.map (h.resolveLines hquote ctx _) (Text.join '\n')

theorem resolveSource (h : Carries R t config config')
    (hquote : ∀ marker ctx quote, R Text (resolveNested t config' marker ctx quote) (resolveNested t config marker ctx quote))
    (base source : Path) : R (List Text × List Text) (resolveSource t config' base source) (resolveSource t config base source) := by
  rw [Quotation.resolveSource, Quotation.resolveSource, h.encoding, h.recursive]
  exact h.bind (h.lift _) fun lines _ _ => h.bind (h.resolveLines hquote _ lines) fun resolved _ _ => h.pure _

end Carries

end Quotation
