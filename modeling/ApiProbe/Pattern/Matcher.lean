import ApiProbe.Pattern.Character
import ApiProbe.Pattern.Reader

/-!
Searching a text for a match of a pattern, by backtracking. A node is run with what has to match
after it; groups, references and conditions see the captures on the way there.
-/
namespace ApiProbe.Pattern

/-- A place in the text, with what the groups have captured. The latest capture comes first. -/
structure Spot where
  position : Nat
  captures : List (Nat × Nat × Nat)

/-- What has to match from a place on: the place where it ends, if it does. -/
abbrev Next := Spot → Option Spot

def Flags.enter (flags on off : Flags) : Flags :=
  let typed := on.ascii || on.unicode
  { ignoreCase := (flags.ignoreCase || on.ignoreCase) && !off.ignoreCase
    multiline := (flags.multiline || on.multiline) && !off.multiline
    dotAll := (flags.dotAll || on.dotAll) && !off.dotAll
    verbose := (flags.verbose || on.verbose) && !off.verbose
    ascii := (flags.ascii && !typed) || on.ascii
    unicode := (flags.unicode && !typed) || on.unicode
    template := flags.template }

def Mode.operator : Mode → String
  | .greedy => "MAX_REPEAT"
  | .lazy => "MIN_REPEAT"
  | .possessive => "POSSESSIVE_REPEAT"

def lookbehindLimit : Nat := 4294967295

mutual

/-- Whether a node that was read can be run: a look-behind needs one width. -/
def Node.check (source : Source) : Node → Except Refusal Unit
  | .branch options => checkOptions source options
  | .group _ _ _ body => checkAll source body
  | .repeated mode _ _ body =>
    if source.flags.template then .error (.templateOperator mode.operator)
    else checkAll source body
  | .atomic body => checkAll source body
  | .look ahead _ body =>
    let width := widthOfAll source.widths body
    if !ahead && lookbehindLimit < width.min then .error .longLookbehind
    else if !ahead && width.min != width.max then .error .variableLookbehind
    else checkAll source body
  | .conditional _ yes no => do checkAll source yes; checkAll source no
  | _ => .ok ()

def checkAll (source : Source) : List Node → Except Refusal Unit
  | [] => .ok ()
  | node :: nodes => do node.check source; checkAll source nodes

def checkOptions (source : Source) : List (List Node) → Except Refusal Unit
  | [] => .ok ()
  | option :: options => do checkAll source option; checkOptions source options

end

def compile (pattern : String) : Except Refusal Source := do
  let source ← read pattern
  checkAll source source.nodes
  return source

namespace Run

def charAt (text : Array Char) (position : Nat) : Option Char :=
  text[position]?

def anchorHolds (text : Array Char) (flags : Flags) (position : Nat) : Anchor → Bool
  | .textStart => position == 0
  | .textEnd => position == text.size
  | .lineStart =>
    position == 0 || (flags.multiline && text[position - 1]? == some '\n')
  | .lineEnd =>
    position == text.size ||
      (text[position]? == some '\n' && (flags.multiline || position + 1 == text.size))
  | .boundary => text.size != 0 && before != after
  | .notBoundary => text.size != 0 && before == after
  where
    isWord (c : Option Char) : Bool := (c.map (isWordChar flags)).getD false
    before : Bool := if position == 0 then false else isWord text[position - 1]?
    after : Bool := isWord text[position]?

/-- Runs a step up to `max` times and at least `min` times, more often rather than less. A step that
moves nothing is not repeated beyond `min`. -/
def greedy (min : Nat) (max : Option Nat) (step : Next → Next) (next : Next) :
    Nat → Nat → Option Nat → Next
  | 0, _, _, spot => next spot
  | fuel + 1, count, last, spot =>
    if count < min then
      step (greedy min max step next fuel (count + 1) last) spot
    else if (max.map (decide <| count < ·)).getD true && last != some spot.position then
      match step (greedy min max step next fuel (count + 1) (some spot.position)) spot with
      | some stop => some stop
      | none => next spot
    else
      next spot

/-- As `greedy`, but less often rather than more. -/
def lazy (min : Nat) (max : Option Nat) (step : Next → Next) (next : Next) :
    Nat → Nat → Option Nat → Next
  | 0, _, _, spot => next spot
  | fuel + 1, count, last, spot =>
    if count < min then
      step (lazy min max step next fuel (count + 1) last) spot
    else
      match next spot with
      | some stop => some stop
      | none =>
        if (max.map (decide <| count < ·)).getD true && last != some spot.position then
          step (lazy min max step next fuel (count + 1) (some spot.position)) spot
        else
          none

/-- Runs a step as often as it matches, each time in its first way only. -/
def possessive (min : Nat) (max : Option Nat) (step : Next → Next) :
    Nat → Nat → Spot → Option Spot
  | 0, _, spot => some spot
  | fuel + 1, count, spot =>
    if count < min then
      match step some spot with
      | some stop => possessive min max step fuel (count + 1) stop
      | none => none
    else if (max.map (decide <| count < ·)).getD true then
      match step some spot with
      | some stop =>
        if stop.position == spot.position then some stop
        else possessive min max step fuel (count + 1) stop
      | none => some spot
    else
      some spot

def sameText (text : Array Char) (flags : Flags) (start position : Nat) : Nat → Bool
  | 0 => true
  | count + 1 =>
    match text[start]?, text[position]? with
    | some a, some b =>
      (if flags.ignoreCase then foldCode flags a.toNat == foldCode flags b.toNat else a == b) &&
        sameText text flags (start + 1) (position + 1) count
    | _, _ => false

mutual

def node (text : Array Char) (widths : List (Option Width)) (flags : Flags) :
    Node → Next → Next
  | .anchor anchor, next, spot =>
    if anchorHolds text flags spot.position anchor then next spot else none
  | .branch options, next, spot => branch text widths flags options next spot
  | .group index on off body, next, spot =>
    let close : Next := fun stop =>
      match index with
      | none => next stop
      | some group =>
        next { stop with captures := (group, spot.position, stop.position) :: stop.captures }
    sequence text widths (flags.enter on off) body close spot
  | .repeated mode min max body, next, spot =>
    let step : Next → Next := sequence text widths flags body
    let fuel := min + (text.size - spot.position) + 2
    match mode with
    | .greedy => greedy min max step next fuel 0 none spot
    | .lazy => lazy min max step next fuel 0 none spot
    | .possessive =>
      match possessive min max step fuel 0 spot with
      | some stop => next stop
      | none => none
  | .atomic body, next, spot =>
    match sequence text widths flags body some spot with
    | some stop => next stop
    | none => none
  | .look ahead wanted body, next, spot =>
    let width := if ahead then 0 else (widthOfAll widths body).min
    let found :=
      if spot.position < width then none
      else sequence text widths flags body some { spot with position := spot.position - width }
    match found, wanted with
    | some stop, true => next { stop with position := spot.position }
    | none, false => next spot
    | _, _ => none
  | .backref group, next, spot =>
    match spot.captures.lookup group with
    | none => none
    | some (first, last) =>
      if sameText text flags first spot.position (last - first) then
        next { spot with position := spot.position + (last - first) }
      else
        none
  | .conditional group yes no, next, spot =>
    if (spot.captures.lookup group).isSome then sequence text widths flags yes next spot
    else sequence text widths flags no next spot
  | single, next, spot =>
    match text[spot.position]? with
    | some c =>
      if matchesChar flags c single then next { spot with position := spot.position + 1 } else none
    | none => none

def sequence (text : Array Char) (widths : List (Option Width)) (flags : Flags) :
    List Node → Next → Next
  | [], next, spot => next spot
  | n :: nodes, next, spot =>
    node text widths flags n (sequence text widths flags nodes next) spot

def branch (text : Array Char) (widths : List (Option Width)) (flags : Flags) :
    List (List Node) → Next → Next
  | [], _, _ => none
  | option :: options, next, spot =>
    match sequence text widths flags option next spot with
    | some stop => some stop
    | none => branch text widths flags options next spot

end

end Run

def Source.found (source : Source) (text : String) : Bool :=
  let chars := text.toList.toArray
  (List.range (chars.size + 1)).any fun position =>
    (Run.sequence chars source.widths source.flags source.nodes some ⟨position, []⟩).isSome

/-- Whether some part of the text matches the pattern; a pattern that is refused matches nothing. -/
def found (pattern text : String) : Bool :=
  match compile pattern with
  | .ok source => source.found text
  | .error _ => false

end ApiProbe.Pattern
