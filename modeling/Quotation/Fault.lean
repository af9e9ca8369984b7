import Quotation.Charset.Narrow
import Quotation.Text.Digit

/-!
# Faults

A fault concerns no citation in particular and ends a run, whatever it was doing: a path that cannot be one, a file system that refuses an operation, a charset that is not known or does not fit, a number or a margin beyond all bounds, a setting that was left without a value.
-/

namespace Quotation

/-- What the file system has against an operation. -/
inductive OsError where
  | notFound
  | busy
  | exists
  | notDirectory
  | isDirectory
  | nameTooLong
  deriving DecidableEq, Repr

namespace OsError

def number : OsError → Nat
  | .notFound => 2
  | .busy => 16
  | .exists => 17
  | .notDirectory => 20
  | .isDirectory => 21
  | .nameTooLong => 36

def words : OsError → String
  | .notFound => "No such file or directory"
  | .busy => "Device or resource busy"
  | .exists => "File exists"
  | .notDirectory => "Not a directory"
  | .isDirectory => "Is a directory"
  | .nameTooLong => "File name too long"

def message (e : OsError) : String := s!"[Errno {e.number}] {e.words}"

end OsError

/-- What ends a run, whatever it was doing. -/
inductive Fault where
  /-- A path holds the null character. -/
  | nullInPath
  | os (e : OsError)
  | decoding (e : Charset.DecodeError)
  | encoding (e : Charset.EncodeError)
  | noByteOrderMark
  | unknownCharset (name : Text)
  /-- The name of a charset holds the null character. -/
  | nullInCharset
  | tooManyDigits (count : Nat)
  /-- A margin whose width cannot be counted. -/
  | marginUncountable
  /-- A margin that there is no room for. -/
  | marginTooWide
  /-- A value that is needed was left out. -/
  | noValue
  /-- A file was to be copied onto itself. -/
  | sameFile
  deriving DecidableEq, Repr

/-- The fault in words, if there is anything to say. -/
def Fault.message? : Fault → Option String
  | .nullInPath => some "embedded null byte"
  | .os e => some e.message
  | .decoding e => some e.message
  | .encoding e => some e.message
  | .noByteOrderMark => some "UTF-16 stream does not start with BOM"
  | .unknownCharset name => some s!"unknown encoding: {String.ofList name}"
  | .nullInCharset => some "embedded null character"
  | .tooManyDigits count =>
    some s!"Exceeds the limit ({Text.digitLimit} digits) for integer string conversion: value has {count} digits; use sys.set_int_max_str_digits() to increase the limit"
  | .marginUncountable | .marginTooWide | .noValue | .sameFile => none

end Quotation
