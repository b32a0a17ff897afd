import ApiProbe.Value.Check

/-!
Unification: the value whose instances are the common instances of two values. Structs are merged
field by field, lists item by item, alternatives option by option; all conflicts are collected with
their places.
-/
namespace ApiProbe.Value

/-- What the options of two values unify to, pair by pair: a single value for itself, several as an
alternative. -/
def choose (path : String) (a b : Value) (results : List (Unified Value)) : Unified Value :=
  if results.any (fun r => match r with
    | .error .unprintable => true
    | _ => false) then
    .error .unprintable
  else
    match distinct (results.filterMap Except.toOption) with
    | [] => .error (.of path (.noOption a b))
    | [x] => .ok x
    | xs => .ok (.any xs)

mutual

/-- Unifies a value that is neither `_` nor an alternative with any value, by a function that does so
for the other values that are neither. -/
def distribute (path : String) (a : Value) (f : Value → Unified Value) : Value → Unified Value
  | .top => .ok a
  | .any ys => choose path a (.any ys) (distributeAll path a f ys)
  | b => f b

def distributeAll (path : String) (a : Value) (f : Value → Unified Value) :
    List Value → List (Unified Value)
  | [] => []
  | y :: ys => distribute path a f y :: distributeAll path a f ys

end

def mergeShapes (path : String) (a b : Value) : Unified Value :=
  .error (.of path (.shapes a b))

/-- An atom with a constraint: the atom, if it satisfies it. -/
def restrict (path : String) (atom : Atom) (c : Constraint) : Unified Value :=
  match c.check atom with
  | none => .ok (.atom atom)
  | some reason => .error (.of path reason)

def unifyAtom (path : String) (a : Atom) : Value → Unified Value
  | .atom b => if a.same b then .ok (.atom a) else .error (.of path (.atoms a b))
  | .constraint c => restrict path a c
  | b => mergeShapes path (.atom a) b

def unifyConstraint (path : String) (c : Constraint) : Value → Unified Value
  | .atom b => restrict path b c
  | .constraint d =>
    match c.merge d with
    | .ok merged => .ok (.constraint merged)
    | .error reason => .error (.of path reason)
  | b => mergeShapes path (.constraint c) b

/-- The fields of the second list whose labels the first one lacks. -/
def newFields (fields others : List (String × Value)) : List (String × Value) :=
  others.filter fun field => (lookup? field.1 fields).isNone

/-- Whether a closed list is shorter than the items it is to agree with. -/
def lengthsClash (left right : Nat) (leftOpen rightOpen : Bool) : Bool :=
  (left < right && !leftOpen) || (right < left && !rightOpen)

mutual

/-- The common value of two values, at a place. -/
def unifyAt (path : String) : Value → Value → Unified Value
  | .top, b => .ok b
  | .any xs, b =>
    match b with
    | .top => .ok (.any xs)
    | b => choose path (.any xs) b (unifyOptions path xs b.options)
  | .atom a, b => distribute path (.atom a) (unifyAtom path a) b
  | .constraint c, b => distribute path (.constraint c) (unifyConstraint path c) b
  | .struct fields, b =>
    distribute path (.struct fields) (fun b =>
      match b with
      | .struct others =>
        (unifyFields path fields others).map fun merged =>
          .struct (merged ++ newFields fields others)
      | b => mergeShapes path (.struct fields) b) b
  | .list items none, b =>
    distribute path (.list items none) (fun b =>
      match b with
      | .list others tail =>
        if lengthsClash items.length others.length false tail.isSome then
          .error (.of path (.lengths items.length others.length))
        else
          (Unified.all (unifyItems path 0 items others tail)).map fun merged => .list merged none
      | b => mergeShapes path (.list items none) b) b
  | .list items (some rest), b =>
    distribute path (.list items (some rest)) (fun b =>
      match b with
      | .list others tail =>
        if lengthsClash items.length others.length true tail.isSome then
          .error (.of path (.lengths items.length others.length))
        else
          let front := unifyItems path 0 items others tail
          let back := (others.drop items.length).mapIdx fun i y =>
            unifyAt (joinPath path (toString (items.length + i))) rest y
          let merged := Unified.all (front ++ back)
          match tail with
          | none => merged.map fun all => .list all none
          | some other =>
            (Unified.both merged (unifyAt (joinPath path "...") rest other)).map
              fun (all, last) => .list all (some last)
      | b => mergeShapes path (.list items (some rest)) b) b
  termination_by structural a => a

/-- Every option of one list with every option of another. -/
def unifyOptions (path : String) : List Value → List Value → List (Unified Value)
  | [], _ => []
  | x :: xs, ys => ys.map (fun y => unifyAt path x y) ++ unifyOptions path xs ys
  termination_by structural xs => xs

/-- The fields of the first list, each with the field of its label in the second one. -/
def unifyFields (path : String) :
    List (String × Value) → List (String × Value) → Unified (List (String × Value))
  | [], _ => .ok []
  | (label, x) :: fields, others =>
    let merged :=
      match lookup? label others with
      | some y => unifyAt (joinPath path label) x y
      | none => .ok x
    (Unified.both merged (unifyFields path fields others)).map
      fun (value, rest) => (label, value) :: rest
  termination_by structural fields => fields

/-- The items of the first list, each with the item at its index in the second one or with the tail
that stands for it. -/
def unifyItems (path : String) (index : Nat) :
    List Value → List Value → Option Value → List (Unified Value)
  | [], _, _ => []
  | x :: xs, y :: ys, tail =>
    unifyAt (joinPath path (toString index)) x y :: unifyItems path (index + 1) xs ys tail
  | x :: xs, [], some rest =>
    unifyAt (joinPath path (toString index)) x rest :: unifyItems path (index + 1) xs [] (some rest)
  | _ :: _, [], none => []
  termination_by structural items => items

end

def unify (a b : Value) : Unified Value :=
  unifyAt "" a b

end ApiProbe.Value
