import ApiProbe.Number.Power

/-!
Regular expressions: their nodes, and the widths of the texts they match.
-/
namespace ApiProbe.Pattern

inductive Category where
  | digit
  | space
  | word
  deriving DecidableEq

/-- A part of a character set; characters stand as code points. -/
inductive SetItem where
  | char (code : Nat)
  | range (first last : Nat)
  | category (category : Category) (negated : Bool)
  deriving DecidableEq

inductive Anchor where
  | lineStart
  | lineEnd
  | textStart
  | textEnd
  | boundary
  | notBoundary
  deriving DecidableEq

/-- The options of a pattern or of a group; the set on a pattern is that of its front. -/
structure Flags where
  ignoreCase : Bool := false
  multiline : Bool := false
  dotAll : Bool := false
  verbose : Bool := false
  ascii : Bool := false
  unicode : Bool := false
  template : Bool := false
  deriving DecidableEq

inductive Mode where
  | greedy
  | lazy
  | possessive
  deriving DecidableEq

inductive Node where
  | char (code : Nat)
  | dot
  | set (negated : Bool) (items : List SetItem)
  | anchor (anchor : Anchor)
  | branch (options : List (List Node))
  | group (index : Option Nat) (turnOn turnOff : Flags) (body : List Node)
  | repeated (mode : Mode) (min : Nat) (max : Option Nat) (body : List Node)
  | atomic (body : List Node)
  | look (ahead wanted : Bool) (body : List Node)
  | backref (group : Nat)
  | conditional (group : Nat) (yes no : List Node)

structure Width where
  min : Nat
  max : Nat
  deriving DecidableEq

/-- Widths are counted up to here. -/
def widthLimit : Nat := twoTo 64

namespace Width

def zero : Width :=
  ⟨0, 0⟩

def one : Width :=
  ⟨1, 1⟩

def add (a b : Width) : Width :=
  ⟨a.min + b.min, a.max + b.max⟩

def join (a b : Width) : Width :=
  ⟨Nat.min a.min b.min, Nat.max a.max b.max⟩

def clip (a : Width) : Width :=
  ⟨Nat.min a.min widthLimit, Nat.min a.max widthLimit⟩

/-- The width of `least` to `most` matches in a row. -/
def times (a : Width) (least : Nat) : Option Nat → Width
  | some most => ⟨a.min * least, a.max * most⟩
  | none => ⟨a.min * least, if a.max == 0 then 0 else widthLimit⟩

end Width

mutual

/-- The width of a node, given the widths of the groups closed so far. -/
def Node.width (groups : List (Option Width)) : Node → Width
  | .char _ | .dot | .set .. => .one
  | .anchor _ | .look .. => .zero
  | .branch options => widthOfOptions groups options
  | .group _ _ _ body => widthOfAll groups body
  | .repeated _ min max body => (widthOfAll groups body).times min max
  | .atomic body => widthOfAll groups body
  | .backref group => ((groups[group]?).join).getD .zero
  | .conditional _ yes no => (widthOfAll groups yes).join (widthOfAll groups no)

def widthOfAll (groups : List (Option Width)) : List Node → Width
  | [] => .zero
  | node :: nodes => ((node.width groups).add (widthOfAll groups nodes)).clip

def widthOfOptions (groups : List (Option Width)) : List (List Node) → Width
  | [] => ⟨widthLimit, 0⟩
  | option :: options => (widthOfAll groups option).join (widthOfOptions groups options)

end

end ApiProbe.Pattern
