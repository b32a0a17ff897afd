import ApiProbe.Json.StringText
import ApiProbe.Proofs.Number.Decimal

/-!
# JSON documents as they are written

A document is a value with all that a reader passes over: the layout around its tokens, the escapes in
its strings, the form of its numbers. What no document holds cannot be built.
-/

namespace ApiProbe.Json

open Text (isAsciiDigit)

def spaceChars : List Char :=
  [' ', '\t', '\n', '\r']

/-- Blanks and line ends, as they may stand around the tokens of a document. -/
structure Space where
  chars : List Char
  blank : ∀ c ∈ chars, c ∈ spaceChars

/-- A number: perhaps a sign, digits that do not start with a zero unless it is the only one, perhaps a
fraction and an exponent. -/
structure Number where
  negative : Bool
  decimal : Numeral.Decimal
  whole_ne_nil : decimal.whole ≠ []
  whole : ∀ c ∈ decimal.whole, isAsciiDigit c = true
  leading : decimal.whole.head? = some '0' → decimal.whole = ['0']
  fraction : ∀ c ∈ decimal.fraction, isAsciiDigit c = true
  exponent : ∀ e ∈ decimal.exponent, e.WellFormed

def Number.chars (n : Number) : List Char :=
  if n.negative then '-' :: n.decimal.chars else n.decimal.chars

def isHexDigit (c : Char) : Bool :=
  ('0' ≤ c && c ≤ '9') || ('a' ≤ c && c ≤ 'f') || ('A' ≤ c && c ≤ 'F')

/-- The characters that a backslash may stand in front of, but for the one of a code. -/
def escapeLetters : List Char :=
  ['"', '\\', '/', 'b', 'f', 'n', 'r', 't']

/-- A piece of a string: a character as it is, or an escape by a letter or by a code. -/
inductive Piece where
  | plain (c : Char) (h : 32 ≤ c.toNat ∧ c ≠ '"' ∧ c ≠ '\\')
  | letter (c : Char) (h : c ∈ escapeLetters)
  | code (digits : List Char) (hlength : digits.length = 4)
      (hdigits : ∀ c ∈ digits, isHexDigit c = true)

def Piece.chars : Piece → List Char
  | plain c _ => [c]
  | letter c _ => ['\\', c]
  | code digits .. => '\\' :: 'u' :: digits

/-- A string between its quotes. -/
def quotedPieces (pieces : List Piece) : List Char :=
  '"' :: (pieces.flatMap Piece.chars ++ ['"'])

/-- The number that the digits of an escape by code stand for. -/
def codeUnit (digits : List Char) : Nat :=
  (hex4? digits).getD 0

/-- The characters that pieces stand for. Two codes of surrogates in a row make one character. -/
def decode : List Piece → List Char
  | [] => []
  | .plain c _ :: pieces => c :: decode pieces
  | .letter c _ :: pieces => (escaped? c).getD c :: decode pieces
  | .code high _ _ :: .code low hlength hdigits :: pieces =>
    if isHighSurrogate (codeUnit high) && isLowSurrogate (codeUnit low) then
      Char.ofNat (0x10000 + (codeUnit high - 0xD800) * 1024 + (codeUnit low - 0xDC00)) ::
        decode pieces
    else
      unitChar (codeUnit high) :: decode (.code low hlength hdigits :: pieces)
  | .code digits _ _ :: pieces => unitChar (codeUnit digits) :: decode pieces

/-- The name of a member with its colon and the layout on both sides of that. -/
structure Key where
  pieces : List Piece
  before : Space
  after : Space

namespace Key

def chars (key : Key) : List Char :=
  quotedPieces key.pieces ++ key.before.chars ++ ':' :: key.after.chars

def name (key : Key) : String :=
  String.ofList (decode key.pieces)

/-- No line feed stands next to the colon. -/
def OneLine (key : Key) : Prop :=
  '\n' ∉ key.before.chars ∧ '\n' ∉ key.after.chars

end Key

/-- Something with the layout on both sides of it. -/
structure Spaced (α : Type) where
  before : Space
  item : α
  after : Space

/-- Something else with the same layout. -/
def Spaced.map {α β : Type} (f : α → β) (s : Spaced α) : Spaced β :=
  ⟨s.before, f s.item, s.after⟩

/-- A value as it is written. Brackets have a layout behind the opening one, for they may be empty. -/
inductive Phrase where
  | null
  | bool (b : Bool)
  | number (n : Number)
  | string (pieces : List Piece)
  | array (space : Space) (items : List (Spaced Phrase))
  | object (space : Space) (members : List (Spaced (Key × Phrase)))

namespace Phrase

mutual

def chars : Phrase → List Char
  | null => "null".toList
  | bool b => if b then "true".toList else "false".toList
  | number n => n.chars
  | string pieces => quotedPieces pieces
  | array space items => '[' :: (space.chars ++ [','].intercalate (itemTexts items) ++ [']'])
  | object space members =>
    '\x7b' :: (space.chars ++ [','].intercalate (memberTexts members) ++ ['\x7d'])

def itemTexts : List (Spaced Phrase) → List (List Char)
  | [] => []
  | ⟨before, p, after⟩ :: items => (before.chars ++ p.chars ++ after.chars) :: itemTexts items

def memberTexts : List (Spaced (Key × Phrase)) → List (List Char)
  | [] => []
  | ⟨before, (key, p), after⟩ :: members =>
    (before.chars ++ (key.chars ++ p.chars) ++ after.chars) :: memberTexts members

end

mutual

/-- The members of every object in the value have the property. -/
def Everywhere (P : List Key → Prop) : Phrase → Prop
  | array _ items => EverywhereItems P items
  | object _ members => P (members.map (·.item.1)) ∧ EverywhereMembers P members
  | _ => True

def EverywhereItems (P : List Key → Prop) : List (Spaced Phrase) → Prop
  | [] => True
  | ⟨_, p, _⟩ :: items => p.Everywhere P ∧ EverywhereItems P items

def EverywhereMembers (P : List Key → Prop) : List (Spaced (Key × Phrase)) → Prop
  | [] => True
  | ⟨_, (_, p), _⟩ :: members => p.Everywhere P ∧ EverywhereMembers P members

end

/-- No object repeats a name. -/
def DistinctNames (p : Phrase) : Prop :=
  p.Everywhere fun keys => (keys.map Key.name).Nodup

/-- Every colon is on one line with its name and its value. -/
def OneLineColons (p : Phrase) : Prop :=
  p.Everywhere fun keys => ∀ key ∈ keys, key.OneLine

/-- A property holds of every value if it passes from the parts of a value to the value. -/
@[induction_eliminator]
theorem induct {P : Phrase → Prop} (null : P .null) (bool : ∀ b, P (.bool b))
    (number : ∀ n, P (.number n)) (string : ∀ pieces, P (.string pieces))
    (array : ∀ space items, (∀ s ∈ items, P s.item) → P (.array space items))
    (object : ∀ space members, (∀ m ∈ members, P m.item.2) → P (.object space members))
    (p : Phrase) : P p :=
  Phrase.rec (motive_1 := P) (motive_2 := fun items => ∀ s ∈ items, P s.item)
    (motive_3 := fun members => ∀ m ∈ members, P m.item.2) (motive_4 := fun s => P s.item)
    (motive_5 := fun m => P m.item.2) (motive_6 := fun m => P m.2)
    null bool number string array object
    (fun _ h => nomatch h) (fun _ _ hs hitems => List.forall_mem_cons.mpr ⟨hs, hitems⟩)
    (fun _ h => nomatch h) (fun _ _ hm hmembers => List.forall_mem_cons.mpr ⟨hm, hmembers⟩)
    (fun _ _ _ hp => hp) (fun _ _ _ hp => hp) (fun _ _ hp => hp) p

end Phrase

/-- Things with commas between them, each with its layout. -/
def listing {α : Type} (text : α → List Char) (items : List (Spaced α)) : List Char :=
  [','].intercalate (items.map fun s => s.before.chars ++ text s.item ++ s.after.chars)

section Listing

variable {α : Type} {text : α → List Char}

theorem listing_nil : listing text [] = [] :=
  rfl

theorem listing_singleton (s : Spaced α) :
    listing text [s] = s.before.chars ++ (text s.item ++ s.after.chars) := by
  rw [listing, List.map_singleton, List.intercalate_singleton, List.append_assoc]

theorem listing_cons_cons (s t : Spaced α) (items : List (Spaced α)) :
    listing text (s :: t :: items) = s.before.chars ++
      (text s.item ++ (s.after.chars ++ ',' :: listing text (t :: items))) := by
  rw [listing, List.map_cons, List.map_cons, List.intercalate_cons_cons, List.append_assoc,
    List.append_assoc, List.append_assoc]
  rfl

theorem listing_map {β : Type} (f : β → α) (items : List (Spaced β)) :
    listing text (items.map (Spaced.map f)) = listing (fun b => text (f b)) items := by
  rw [listing, List.map_map]
  rfl

theorem exists_listing_eq (text : α → List Char) (s : Spaced α) (items : List (Spaced α))
    (rest : List Char) :
    ∃ cs, listing text (s :: items) ++ rest = s.before.chars ++ (text s.item ++ cs) := by
  cases items with
  | nil => exact ⟨_, by rw [listing_singleton, List.append_assoc, List.append_assoc]⟩
  | cons t items => exact ⟨_, by rw [listing_cons_cons, List.append_assoc, List.append_assoc]⟩

end Listing

namespace Phrase

def memberChars (member : Key × Phrase) : List Char :=
  member.1.chars ++ member.2.chars

theorem chars_array (space : Space) (items : List (Spaced Phrase)) :
    (array space items).chars = '[' :: (space.chars ++ (listing chars items ++ [']'])) := by
  have htexts : itemTexts items
      = items.map fun s => s.before.chars ++ s.item.chars ++ s.after.chars := by
    induction items with
    | nil => rfl
    | cons s items ih => rw [itemTexts, ih, List.map_cons]
  rw [chars, htexts, listing, List.append_assoc]

theorem chars_object (space : Space) (members : List (Spaced (Key × Phrase))) :
    (object space members).chars
      = '\x7b' :: (space.chars ++ (listing memberChars members ++ ['\x7d'])) := by
  have htexts : memberTexts members
      = members.map fun m => m.before.chars ++ memberChars m.item ++ m.after.chars := by
    induction members with
    | nil => rfl
    | cons m members ih => rw [memberTexts, ih, List.map_cons, memberChars]
  rw [chars, htexts, listing, List.append_assoc]

end Phrase

/-- A whole document. -/
def Spaced.text (doc : Spaced Phrase) : String :=
  String.ofList (doc.before.chars ++ doc.item.chars ++ doc.after.chars)

end ApiProbe.Json
