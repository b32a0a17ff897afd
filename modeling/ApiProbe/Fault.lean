import ApiProbe.Text.Literal
import ApiProbe.Text.Utf8

/-!
Faults: failures that no command of a script is charged with. They pass through a run unrecorded.
-/
namespace ApiProbe

inductive Fault where
  /-- A whole number is written with more digits than the limit. -/
  | numeralTooLong (digits : Nat)
  /-- A whole number has too many digits to be written. -/
  | unprintable
  /-- A text that should be a whole number is none. -/
  | malformedNumeral (text : String)
  | intTooLarge
  | quotientTooLarge
  | repetitionTooLarge
  | mixedFlags
  | notUtf8 (error : Utf8.DecodeError)
  /-- A byte that stands where only ASCII characters may. -/
  | notAscii (byte : UInt8) (position : Nat)
  /-- Bytes of a character set that cannot be decoded. -/
  | undecodable (message : String)
  /-- A value of a kind that is not supported where it stands. -/
  | unsuitable (message : String)
  /-- An argument that makes no sense where it stands. -/
  | invalid (message : String)
  | indexOutOfRange
  | missingPath (path : String)

def Fault.message : Fault → String
  | .numeralTooLong digits =>
    s!"Exceeds the limit (4300 digits) for integer string conversion: value has {digits} digits; " ++
      "use sys.set_int_max_str_digits() to increase the limit"
  | .unprintable =>
    "Exceeds the limit (4300 digits) for integer string conversion; " ++
      "use sys.set_int_max_str_digits() to increase the limit"
  | .malformedNumeral text => s!"invalid literal for int() with base 10: {Text.literal text}"
  | .intTooLarge => "int too large to convert to float"
  | .quotientTooLarge => "integer division result too large for a float"
  | .repetitionTooLarge => "the repetition number is too large"
  | .mixedFlags => "ASCII and UNICODE flags are incompatible"
  | .notUtf8 error => error.message
  | .notAscii byte position =>
    let place := "byte 0x" ++ String.ofList (Text.hex 2 byte.toNat) ++ s!" in position {position}"
    s!"'ascii' codec can't decode {place}: ordinal not in range(128)"
  | .undecodable message => message
  | .unsuitable message => message
  | .invalid message => message
  | .indexOutOfRange => "deque index out of range"
  | .missingPath path => s!"no such file or directory: {path}"

/-- Whether the fault is one of a text or an argument, rather than of a type, a range or a path. -/
def Fault.isInvalid : Fault → Bool
  | .intTooLarge | .quotientTooLarge | .repetitionTooLarge => false
  | .unsuitable _ | .indexOutOfRange | .missingPath _ => false
  | _ => true

end ApiProbe
