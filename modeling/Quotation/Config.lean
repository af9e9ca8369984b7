import Quotation.Fault
import Quotation.Path
import Quotation.Text.Margin
import Quotation.Text.Xml

/-!
# Configuration

How citations are resolved and how quoted text is laid out. A margin that is too wide is a fault, whatever the quote holds; the layout itself is a function of the text (`Config.laidOut`).
-/

namespace Quotation

structure Config where
  /-- Where resolved files go; without it they take the place of the files they come from. -/
  outputDir : Option Path := none
  /-- Whether citations inside quoted text are resolved too. -/
  recursive : Bool := false
  /-- How deep quotes may be nested. -/
  maxDepth : Int := 10
  /-- Whether a citation of a missing file is an error. -/
  failOnUnresolved : Bool := false
  outdent : Bool := false
  indent : Int := 0
  escapeXml : Bool := false
  /-- The name of the charset that files are read and written in, if it was given one. -/
  encoding : Option Text := some "utf-8".toList
  /-- Whether a run goes on after a file with errors. -/
  keepGoing : Bool := false
  deriving DecidableEq, Repr

namespace Config

/-- The quote with its margin taken off, a new one put before it, and reserved characters escaped, each as configured. -/
def laidOut (config : Config) (quote : Text) : Text :=
  let outdented := if config.outdent then Text.outdent quote else quote
  let indented := if 0 < config.indent then Text.indent config.indent.toNat outdented else outdented
  if config.escapeXml then Text.Xml.escape indented else indented

/-- Whether the new margin can be made. -/
def checkMargin (config : Config) : Except Fault Unit :=
  if Text.countableMargin < config.indent then .error .marginUncountable
  else if Text.storableMargin < config.indent then .error .marginTooWide
  else .ok ()

/-- Lays a quote out, if the new margin can be made. -/
def layOut (config : Config) (quote : Text) : Except Fault Text :=
  config.checkMargin.map fun _ => config.laidOut quote

theorem layOut_of_le {config : Config} (h : config.indent ≤ Text.storableMargin) (quote : Text) :
    config.layOut quote = .ok (config.laidOut quote) := by
  have countable : ¬ (Text.countableMargin : Int) < config.indent := by
    simp only [Text.countableMargin, Text.storableMargin] at *
    omega
  rw [layOut, checkMargin, if_neg countable, if_neg (Int.not_lt.2 h)]
  rfl

end Config

end Quotation
