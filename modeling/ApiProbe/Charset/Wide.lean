/-!
UTF-16 and UTF-32. A replacement character stands for every unit that encodes no character and for
bytes left over at the end.
-/
namespace ApiProbe.Charset

inductive ByteOrder where
  | little
  | big
  deriving DecidableEq

def ByteOrder.read : ByteOrder → List UInt8 → Nat
  | .little, bytes => bytes.foldr (fun b n => b.toNat + n * 256) 0
  | .big, bytes => bytes.foldl (fun n b => n * 256 + b.toNat) 0

def replacement : Char := '\uFFFD'

def isHigh (n : Nat) : Bool :=
  0xD800 ≤ n && n ≤ 0xDBFF

def isLow (n : Nat) : Bool :=
  0xDC00 ≤ n && n ≤ 0xDFFF

/-- The characters of UTF-16. A high surrogate that the end cuts off takes the rest with it. -/
def utf16Chars (order : ByteOrder) : List UInt8 → List Char
  | [] => []
  | [_] => [replacement]
  | a :: b :: rest =>
    let unit := order.read [a, b]
    if isHigh unit then
      match rest with
      | c :: d :: more =>
        let next := order.read [c, d]
        if isLow next then
          Char.ofNat (0x10000 + (unit - 0xD800) * 1024 + (next - 0xDC00)) :: utf16Chars order more
        else
          replacement :: utf16Chars order (c :: d :: more)
      | _ => [replacement]
    else if isLow unit then replacement :: utf16Chars order rest
    else Char.ofNat unit :: utf16Chars order rest

def utf32Chars (order : ByteOrder) : List UInt8 → List Char
  | [] => []
  | a :: b :: c :: d :: rest =>
    let n := order.read [a, b, c, d]
    (if n.isValidChar then Char.ofNat n else replacement) :: utf32Chars order rest
  | _ => [replacement]

/-- UTF-16 in the order that a mark in front says, little end first without one. -/
def decodeUtf16 (bytes : List UInt8) : String :=
  String.ofList (match bytes with
    | 0xFF :: 0xFE :: rest => utf16Chars .little rest
    | 0xFE :: 0xFF :: rest => utf16Chars .big rest
    | bytes => utf16Chars .little bytes)

/-- UTF-32 in the order that a mark in front says, little end first without one. -/
def decodeUtf32 (bytes : List UInt8) : String :=
  String.ofList (match bytes with
    | 0xFF :: 0xFE :: 0 :: 0 :: rest => utf32Chars .little rest
    | 0 :: 0 :: 0xFE :: 0xFF :: rest => utf32Chars .big rest
    | bytes => utf32Chars .little bytes)

end ApiProbe.Charset
