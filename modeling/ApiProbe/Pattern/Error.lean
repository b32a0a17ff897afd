import ApiProbe.Text.Literal

/-!
What can be wrong with a regular expression, and the words for it.
-/
namespace ApiProbe.Pattern

inductive Cause where
  | badEscapeAtEnd
  | incompleteEscape (escape : String)
  | badEscape (escape : String)
  | octalEscape (escape : String)
  | missing (what : String)
  | undefinedCharacter (name : String)
  | openGroup
  | lookbehindGroup
  | invalidReference (group : Nat)
  | badGroupName (name : String)
  | unknownGroupName (name : String)
  | redefinedGroup (name : String) (group earlier : Nat)
  | badGroupNumber
  | unterminatedSet
  | badRange (first last : String)
  | nothingToRepeat
  | multipleRepeat
  | emptyRepeat
  | unexpectedEnd
  | unknownExtension (extension : String)
  | tooManyBranches
  | lateFlags
  | unknownFlag
  | badFlags (what : String)
  | unbalanced

def Cause.message : Cause → String
  | .badEscapeAtEnd => "bad escape (end of pattern)"
  | .incompleteEscape escape => s!"incomplete escape {escape}"
  | .badEscape escape => s!"bad escape {escape}"
  | .octalEscape escape => s!"octal escape value {escape} outside of range 0-0o377"
  | .missing what => s!"missing {what}"
  | .undefinedCharacter name => s!"undefined character name {Text.literal name}"
  | .openGroup => "cannot refer to an open group"
  | .lookbehindGroup => "cannot refer to group defined in the same lookbehind subpattern"
  | .invalidReference group => s!"invalid group reference {group}"
  | .badGroupName name => s!"bad character in group name {Text.literal name}"
  | .unknownGroupName name => s!"unknown group name {Text.literal name}"
  | .redefinedGroup name group earlier =>
    s!"redefinition of group name {Text.literal name} as group {group}; was group {earlier}"
  | .badGroupNumber => "bad group number"
  | .unterminatedSet => "unterminated character set"
  | .badRange first last => s!"bad character range {first}-{last}"
  | .nothingToRepeat => "nothing to repeat"
  | .multipleRepeat => "multiple repeat"
  | .emptyRepeat => "min repeat greater than max repeat"
  | .unexpectedEnd => "unexpected end of pattern"
  | .unknownExtension extension => s!"unknown extension {extension}"
  | .tooManyBranches => "conditional backref with more than two branches"
  | .lateFlags => "global flags not at the start of the expression"
  | .unknownFlag => "unknown flag"
  | .badFlags what => s!"bad inline flags: {what}"
  | .unbalanced => "unbalanced parenthesis"

/-- Why a pattern is refused. The last three are no faults of its syntax. -/
inductive Refusal where
  | syntaxAt (cause : Cause) (position : Nat)
  | variableLookbehind
  | longLookbehind
  | templateOperator (name : String)
  | repetitionTooLarge
  | numeralTooLong (digits : Nat)
  | mixedFlags

/-- The place of a position, with line and column if the pattern has more than one line. -/
def placeText (pattern : List Char) (position : Nat) : String :=
  let before := pattern.take position
  let place := s!" at position {position}"
  if pattern.contains '\n' then
    let line := before.count '\n' + 1
    let column := (before.reverse.takeWhile (· != '\n')).length + 1
    place ++ s!" (line {line}, column {column})"
  else
    place

/-- The text of a fault of the pattern itself; there is none for the other refusals. -/
def Refusal.message? (pattern : String) : Refusal → Option String
  | .syntaxAt cause position => some (cause.message ++ placeText pattern.toList position)
  | .variableLookbehind => some "look-behind requires fixed-width pattern"
  | .longLookbehind => some "looks too much behind"
  | .templateOperator name => some s!"internal: unsupported template operator {name}"
  | .repetitionTooLarge | .numeralTooLong _ | .mixedFlags => none

end ApiProbe.Pattern
