import Quotation.Resolution.Document

/-!
# Log records

What a run tells about its progress. The records of a single file are read off its trace.
-/

namespace Quotation

inductive Level where
  | debug
  | info
  | warning
  deriving DecidableEq, Repr

def Level.name : Level → String
  | .debug => "DEBUG"
  | .info => "INFO"
  | .warning => "WARNING"

structure LogRecord where
  level : Level
  message : String
  deriving DecidableEq, Repr

def Event.logRecord? : Event → Option LogRecord
  | .unresolved marker => some ⟨.debug, s!"No file for {String.ofList marker}, leaving marker in place"⟩
  | .entered target depth => some ⟨.debug, s!"Resolving nested citations in {target.render} (depth {depth})"⟩
  | .left _ => none
  | .cited _ _ => none

def Traced.log {α : Type} (x : Traced α) : List LogRecord := x.events.filterMap Event.logRecord?

end Quotation
