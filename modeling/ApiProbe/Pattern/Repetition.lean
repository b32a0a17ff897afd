import ApiProbe.Pattern.Escape

/-!
Sets between brackets, and how often the node in front is repeated.
-/
namespace ApiProbe.Pattern

def readSetItem (t : Token) : Reading SetItem :=
  if t.escaped then readSetEscape t.char else return .char t.char.toNat

/-- The rest of a set up to its bracket; the bracket is a member if it comes first. -/
def readSet (start : Nat) (items : List SetItem) : Nat → Reading (List SetItem)
  | 0 => failAt .unterminatedSet start
  | fuel + 1 => do
    match ← take with
    | none => failAt .unterminatedSet start
    | some t =>
      if t == plain ']' && !items.isEmpty then
        return items
      else
        let item ← readSetItem t
        if ← eat '-' then
          match ← take with
          | none => failAt .unterminatedSet start
          | some last =>
            if last == plain ']' then
              return items ++ [item, .char '-'.toNat]
            else
              let lastItem ← readSetItem last
              let offset := t.chars.length + 1 + last.chars.length
              match item, lastItem with
              | .char lo, .char hi =>
                if hi < lo then refuse (.badRange t.text last.text) offset
                else readSet start (items ++ [.range lo hi]) fuel
              | _, _ => refuse (.badRange t.text last.text) offset
        else
          readSet start (items ++ [item]) fuel

/-- Numbers of repetitions stay below this bound. -/
def repeatLimit : Nat := 4294967295

def readCount (digits : List Char) : Reading (Option Nat) := do
  if digits.isEmpty then
    return none
  else if Numeral.digitLimit < digits.length then
    fun _ => .error (.numeralTooLong digits.length)
  else if repeatLimit ≤ ofBase 10 digits then
    fun _ => .error .repetitionTooLarge
  else
    return some (ofBase 10 digits)

/-- The counts of a repetition after its brace, or nothing if the brace is an ordinary character. -/
def readCounts : Reading (Option (Nat × Option Nat)) := do
  let saved ← get
  if ← nextIs (· == '\x7d') then
    return none
  else
    let lo ← takeSome Text.isAsciiDigit (← restLength)
    let hi ← if ← eat ',' then takeSome Text.isAsciiDigit (← restLength) else pure lo
    if ← eat '\x7d' then
      let min ← readCount lo
      let max ← readCount hi
      match max with
      | some m =>
        if m < min.getD 0 then failAt .emptyRepeat (position saved)
        else return some (min.getD 0, max)
      | none => return some (min.getD 0, max)
    else
      set saved
      return none

def readQuantifier (c : Char) : Reading (Option (Nat × Option Nat)) :=
  if c == '?' then return some (0, some 1)
  else if c == '*' then return some (0, none)
  else if c == '+' then return some (1, none)
  else readCounts

def readMode : Reading Mode := do
  if ← eat '?' then
    return .lazy
  else if ← eat '+' then
    return .possessive
  else
    return .greedy

/-- Repeats the last node read; `start` is where the quantifier stands. -/
def repeatLast (start : Nat) (counts : Nat × Option Nat) (done : List Node) :
    Reading (List Node) := do
  match done with
  | [] | .anchor _ :: _ => failAt .nothingToRepeat start
  | .repeated .. :: _ => failAt .multipleRepeat start
  | node :: before => return .repeated (← readMode) counts.1 counts.2 [node] :: before

end ApiProbe.Pattern
