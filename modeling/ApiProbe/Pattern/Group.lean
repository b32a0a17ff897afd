import ApiProbe.Pattern.Escape
import ApiProbe.Pattern.Flag
import ApiProbe.Text.Identifier

/-!
Groups: what opens one, the names and numbers they go by, and comments.
-/
namespace ApiProbe.Pattern

def checkName (name : String) (offset : Nat) : Reading Unit := do
  if Text.isIdentifier name.toList then return ()
  else refuse (.badGroupName name) (name.length + offset)

def readCondition : Reading Nat := do
  let name ← readName ')' "group name"
  let offset := name.length + 1
  let group ←
    if Text.isIdentifier name.toList then
      match (← get).names.lookup name with
      | some group => pure group
      | none => refuse (.unknownGroupName name) offset
    else
      match Numeral.readInt name with
      | .ok (.ofNat n) =>
        if n == 0 then refuse .badGroupNumber offset
        else if 1073741823 ≤ n then refuse (.invalidReference n) offset
        else
          modify fun r =>
            if (r.conditions.lookup n).isSome then r
            else { r with conditions := r.conditions ++ [(n, position r - offset)] }
          pure n
      | _ => refuse (.badGroupName name) offset
  checkLookbehind group
  return group

def openGroup (name : Option String) : Reading Nat := do
  let r ← get
  let group := r.widths.length
  match name with
  | none =>
    set { r with widths := r.widths ++ [none] }
    return group
  | some n =>
    match r.names.lookup n with
    | some earlier => refuse (.redefinedGroup n group earlier) (n.length + 1)
    | none =>
      set { r with widths := r.widths ++ [none], names := r.names ++ [(n, group)] }
      return group

def closeGroup (group : Nat) (body : List Node) : Reading Unit :=
  modify fun r => { r with widths := r.widths.set group (some (widthOfAll r.widths body)) }

def expectClose (start : Nat) : Reading Unit := do
  if ← eat ')' then return () else failAt (.missing "), unterminated subpattern") start

def skipComment (start : Nat) : Nat → Reading Unit
  | 0 => return ()
  | fuel + 1 => do
    match ← peek with
    | none => failAt (.missing "), unterminated comment") start
    | some _ =>
      if (← take) == some (plain ')') then return () else skipComment start fuel

def skipLine : Nat → Reading Unit
  | 0 => return ()
  | fuel + 1 => do
    match ← take with
    | none => return ()
    | some t => if t == plain '\n' then return () else skipLine fuel

def isVerboseBlank (c : Char) : Bool :=
  c == ' ' || (9 ≤ c.toNat && c.toNat ≤ 13)

inductive Opening where
  | node (node : Node)
  | nothing
  | capture (name : Option String)
  | plainGroup (turnOn turnOff : Flags)
  | atomic
  | look (ahead wanted : Bool)
  | condition (group : Nat)
  | flags

def readNamedReference : Reading Node := do
  let name ← readName ')' "group name"
  checkName name 1
  match (← get).names.lookup name with
  | none => refuse (.unknownGroupName name) (name.length + 1)
  | some group =>
    if !checkGroup (← get) group then refuse .openGroup (name.length + 1)
    else
      checkLookbehind group
      return .backref group

def readLookbehind : Reading Opening := do
  match ← take with
  | none => refuse .unexpectedEnd 0
  | some t =>
    if t == plain '=' then return .look false true
    else if t == plain '!' then return .look false false
    else refuse (.unknownExtension ("?<" ++ t.text)) (t.chars.length + 2)

def readNamedExtension : Reading Opening := do
  if ← eat '<' then
    let name ← readName '>' "group name"
    checkName name 1
    return .capture (some name)
  else if ← eat '=' then
    return .node (← readNamedReference)
  else
    match ← take with
    | none => refuse .unexpectedEnd 0
    | some t => refuse (.unknownExtension ("?P" ++ t.text)) (t.chars.length + 2)

/-- The part of a group between its parenthesis at `start` and its contents. -/
def readOpening (start : Nat) : Reading Opening := do
  if !(← eat '?') then
    return .capture none
  else
    match ← take with
    | none => refuse .unexpectedEnd 0
    | some t =>
      if t.escaped then refuse (.unknownExtension ("?" ++ t.text)) (t.chars.length + 1)
      else if t.char == 'P' then readNamedExtension
      else if t.char == ':' then return .plainGroup {} {}
      else if t.char == '#' then
        skipComment start (← restLength)
        return .nothing
      else if t.char == '=' then return .look true true
      else if t.char == '!' then return .look true false
      else if t.char == '<' then readLookbehind
      else if t.char == '(' then return .condition (← readCondition)
      else if t.char == '>' then return .atomic
      else if t.char == '-' || (flag? t.char).isSome then
        match ← readFlags t.char with
        | .whole => return .flags
        | .scoped on off => return .plainGroup on off
      else refuse (.unknownExtension ("?" ++ t.text)) (t.chars.length + 1)

end ApiProbe.Pattern
