import ApiProbe.Pattern.Scanner
import ApiProbe.Text.Letter

/-!
Flags, for a whole pattern or for the inside of a group.
-/
namespace ApiProbe.Pattern

inductive Flag where
  | ignoreCase
  | locale
  | multiline
  | dotAll
  | verbose
  | ascii
  | template
  | unicode
  deriving DecidableEq

def flag? : Char → Option Flag
  | 'i' => some .ignoreCase
  | 'L' => some .locale
  | 'm' => some .multiline
  | 's' => some .dotAll
  | 'x' => some .verbose
  | 'a' => some .ascii
  | 't' => some .template
  | 'u' => some .unicode
  | _ => none

def Flags.insert (flags : Flags) : Flag → Flags
  | .ignoreCase => { flags with ignoreCase := true }
  | .locale => flags
  | .multiline => { flags with multiline := true }
  | .dotAll => { flags with dotAll := true }
  | .verbose => { flags with verbose := true }
  | .ascii => { flags with ascii := true }
  | .template => { flags with template := true }
  | .unicode => { flags with unicode := true }

def Flags.union (a b : Flags) : Flags :=
  { ignoreCase := a.ignoreCase || b.ignoreCase
    multiline := a.multiline || b.multiline
    dotAll := a.dotAll || b.dotAll
    verbose := a.verbose || b.verbose
    ascii := a.ascii || b.ascii
    unicode := a.unicode || b.unicode
    template := a.template || b.template }

def Flags.meets (a b : Flags) : Bool :=
  (a.ignoreCase && b.ignoreCase) || (a.multiline && b.multiline) || (a.dotAll && b.dotAll) ||
    (a.verbose && b.verbose)

/-- A character that stands where a flag should. -/
def refuseFlag {α : Type} (t : Token) (otherwise : String) : Reading α :=
  refuse (if !t.escaped && Text.isLetter t.char then .unknownFlag else .missing otherwise)
    t.chars.length

/-- The flags turned on, from `c` on, and the character that ends them. -/
def readFlagsOn (flags : Flags) (c : Char) : Nat → Reading (Flags × Char)
  | 0 => refuse (.missing "-, : or )") 0
  | fuel + 1 => do
    match flag? c with
    | none => refuse .unknownFlag 1
    | some .locale =>
      refuse (.badFlags "cannot use 'L' flag with a str pattern") 0
    | some flag =>
      let flags := flags.insert flag
      if (flag == .ascii || flag == .unicode) && flags.ascii && flags.unicode then
        refuse (.badFlags "flags 'a', 'u' and 'L' are incompatible") 0
      else
        match ← take with
        | none => refuse (.missing "-, : or )") 0
        | some t =>
          if !t.escaped && (t.char == ')' || t.char == '-' || t.char == ':') then
            return (flags, t.char)
          else if !t.escaped && (flag? t.char).isSome then
            readFlagsOn flags t.char fuel
          else
            refuseFlag t "-, : or )"

/-- The flags turned off, from `c` on, up to the colon. -/
def readFlagsOff (flags : Flags) (c : Char) : Nat → Reading Flags
  | 0 => refuse (.missing ":") 0
  | fuel + 1 => do
    match flag? c with
    | none => refuse .unknownFlag 1
    | some .ascii | some .unicode | some .locale =>
      refuse (.badFlags "cannot turn off flags 'a', 'u' and 'L'") 0
    | some flag =>
      let flags := flags.insert flag
      match ← take with
      | none => refuse (.missing ":") 0
      | some t =>
        if t == plain ':' then return flags
        else if !t.escaped && (flag? t.char).isSome then readFlagsOff flags t.char fuel
        else refuseFlag t ":"

/-- Flags of the whole pattern, or the flags a group turns on and off. -/
inductive FlagGroup where
  | whole
  | scoped (turnOn turnOff : Flags)

def readFlags (c : Char) : Reading FlagGroup := do
  let fuel ← restLength
  let (on, stop) ← if c == '-' then pure (({} : Flags), '-') else readFlagsOn {} c fuel
  if stop == ')' then
    modify fun r => { r with flags := r.flags.union on }
    return .whole
  else if on.template then
    refuse (.badFlags "cannot turn on global flag") 1
  else if stop == ':' then
    return .scoped on {}
  else
    match ← take with
    | none => refuse (.missing "flag") 0
    | some t =>
      if !t.escaped && (flag? t.char).isSome then
        let off ← readFlagsOff {} t.char fuel
        if off.template then refuse (.badFlags "cannot turn off global flag") 1
        else if on.meets off then refuse (.badFlags "flag turned on and off") 1
        else return .scoped on off
      else
        refuseFlag t "flag"

end ApiProbe.Pattern
