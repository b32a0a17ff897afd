import ApiProbe.Text.Quoted

/-!
UTF-8. A decoder steps over one encoded character, or over the longest front of a malformed one; a
strict reading stops there, a lenient one puts the replacement character.
-/
namespace ApiProbe.Utf8

inductive Reason where
  | invalidStart
  | invalidContinuation
  | unexpectedEnd
  deriving DecidableEq

def Reason.message : Reason → String
  | .invalidStart => "invalid start byte"
  | .invalidContinuation => "invalid continuation byte"
  | .unexpectedEnd => "unexpected end of data"

/-- The malformed bytes from `start` on, `length` of them, the first of which is `byte`. -/
structure DecodeError where
  start : Nat
  length : Nat
  byte : UInt8
  reason : Reason
  deriving DecidableEq

def DecodeError.message (e : DecodeError) : String :=
  let place :=
    if e.length == 1 then
      "byte 0x" ++ String.ofList (Text.hex 2 e.byte.toNat) ++ s!" in position {e.start}"
    else
      s!"bytes in position {e.start}-{e.start + e.length - 1}"
  s!"'utf-8' codec can't decode {place}: {e.reason.message}"

/-- What stands at the front of a text of bytes: a character, or bytes that encode none. Both
constructors count the bytes after the first. -/
inductive Step where
  | char (c : Char) (more : Nat)
  | malformed (reason : Reason) (more : Nat)

def isContinuation (b : UInt8) : Bool :=
  0x80 ≤ b && b ≤ 0xBF

/-- The bytes that may follow the first byte of a character of three or four bytes. -/
def isSecond (first second : UInt8) : Bool :=
  isContinuation second &&
    (if first == 0xE0 then 0xA0 ≤ second
     else if first == 0xED then second ≤ 0x9F
     else if first == 0xF0 then 0x90 ≤ second
     else if first == 0xF4 then second ≤ 0x8F
     else true)

def low (b : UInt8) : Nat :=
  b.toNat % 64

def step (first : UInt8) (rest : List UInt8) : Step :=
  if first < 0x80 then .char (Char.ofNat first.toNat) 0
  else if first < 0xC2 then .malformed .invalidStart 0
  else if first < 0xE0 then
    match rest with
    | [] => .malformed .unexpectedEnd 0
    | b :: _ =>
      if isContinuation b then .char (Char.ofNat (first.toNat % 32 * 64 + low b)) 1
      else .malformed .invalidContinuation 0
  else if first < 0xF0 then
    match rest with
    | [] => .malformed .unexpectedEnd 0
    | b :: after =>
      if !isSecond first b then .malformed .invalidContinuation 0
      else
        match after with
        | [] => .malformed .unexpectedEnd 1
        | c :: _ =>
          if isContinuation c then
            .char (Char.ofNat ((first.toNat % 16 * 64 + low b) * 64 + low c)) 2
          else .malformed .invalidContinuation 1
  else if first < 0xF5 then
    match rest with
    | [] => .malformed .unexpectedEnd 0
    | b :: after =>
      if !isSecond first b then .malformed .invalidContinuation 0
      else
        match after with
        | [] => .malformed .unexpectedEnd 1
        | c :: after =>
          if !isContinuation c then .malformed .invalidContinuation 1
          else
            match after with
            | [] => .malformed .unexpectedEnd 2
            | d :: _ =>
              if isContinuation d then
                .char (Char.ofNat (((first.toNat % 8 * 64 + low b) * 64 + low c) * 64 + low d)) 3
              else .malformed .invalidContinuation 2
  else .malformed .invalidStart 0

/-- The characters up to the first malformed byte, and what is wrong there. -/
def decodeFrom (position : Nat) : List UInt8 → List Char × Option DecodeError
  | [] => ([], none)
  | b :: rest =>
    match step b rest with
    | .char c more =>
      let (cs, error) := decodeFrom (position + 1 + more) (rest.drop more)
      (c :: cs, error)
    | .malformed reason more => ([], some ⟨position, more + 1, b, reason⟩)
  termination_by bytes => bytes.length
  decreasing_by
    simp only [List.length_cons, List.length_drop]
    omega

def decode (bytes : List UInt8) : Except DecodeError String :=
  match decodeFrom 0 bytes with
  | (cs, none) => .ok (String.ofList cs)
  | (_, some error) => .error error

def decodeLenientChars : List UInt8 → List Char
  | [] => []
  | b :: rest =>
    match step b rest with
    | .char c more => c :: decodeLenientChars (rest.drop more)
    | .malformed _ more => '\uFFFD' :: decodeLenientChars (rest.drop more)
  termination_by bytes => bytes.length
  decreasing_by
    all_goals
      simp only [List.length_cons, List.length_drop]
      omega

/-- The text with a replacement character for each malformed front. -/
def decodeLenient (bytes : List UInt8) : String :=
  String.ofList (decodeLenientChars bytes)

def encode (s : String) : List UInt8 :=
  s.toUTF8.toList

end ApiProbe.Utf8
