import GrammarBundle.Text.CodePoint

/-!
Wildcards for one name. A star stands for any text, a question mark for one code point, and a bracket
for one code point of a set, or outside it after an exclamation mark. A bracket that does not close is
itself; a range whose ends are in the wrong order is empty.
-/

namespace GrammarBundle.Pattern

/-- A set of code points: literal ones and ranges, or all others. -/
structure PointSet where
  negated : Bool
  ranges : List (Nat × Nat)
  deriving DecidableEq, Repr

def PointSet.contains (s : PointSet) (p : CodePoint) : Bool :=
  s.negated != s.ranges.any fun (low, high) => low ≤ p.val && p.val ≤ high

inductive Item where
  | star
  | any
  | never
  | point (p : CodePoint)
  | oneOf (s : PointSet)
  deriving DecidableEq, Repr

/-- The pieces of a bracket's content between the hyphens that make ranges. A hyphen counts from the
second code point of a piece on; after the first piece the least length is two. -/
def rangePieces (least : Nat) (piece : Text) : Text → List Text
  | [] => [piece]
  | p :: rest =>
    if p = .char '-' ∧ least ≤ piece.length then piece :: rangePieces 2 [] rest
    else rangePieces least (piece ++ [p]) rest

/-- A hyphen that ends the content makes no range and joins the piece before it. -/
def closeLastPiece : List Text → List Text
  | [] => []
  | [piece, []] => [piece ++ ([.char '-'] : Text)]
  | piece :: rest => piece :: closeLastPiece rest

/-- Drops the ranges whose first end is above their second. -/
def dropEmptyRanges : List Text → List Text
  | [] => []
  | piece :: rest =>
    match dropEmptyRanges rest with
    | [] => [piece]
    | next :: others =>
      match piece.getLast?, next.head? with
      | some low, some high =>
        if high.val < low.val then (piece.dropLast ++ next.drop 1) :: others
        else piece :: next :: others
      | _, _ => piece :: next :: others

/-- A token of a bracket's content: a code point, or the hyphen of a range. -/
inductive SetToken where
  | point (p : CodePoint)
  | through
  deriving DecidableEq, Repr

/-- The pieces as tokens, with a range hyphen between neighbours. -/
def setTokens : List Text → List SetToken
  | [] => []
  | [piece] => piece.map .point
  | piece :: rest => piece.map .point ++ .through :: setTokens rest

/-- The ranges that tokens make; a hyphen with nothing on one side is itself. -/
def rangesOf : List SetToken → List (Nat × Nat)
  | [] => []
  | .point low :: .through :: .point high :: rest => (low.val, high.val) :: rangesOf rest
  | .point p :: rest => (p.val, p.val) :: rangesOf rest
  | .through :: rest => ('-'.toNat, '-'.toNat) :: rangesOf rest

def bracketItem (content : Text) : Item :=
  let least := if content.head? = some (.char '!') then 2 else 1
  let tokens := setTokens (dropEmptyRanges (closeLastPiece (rangePieces least [] content)))
  match tokens with
  | [] => .never
  | [.point (.char '!')] => .any
  | .point (.char '!') :: rest => .oneOf ⟨true, rangesOf rest⟩
  | tokens => .oneOf ⟨false, rangesOf tokens⟩

/-- The content of a bracket and what follows it; a closing bracket in first place belongs to the
content. -/
def bracket? (t : Text) : Option (Text × Text) :=
  let sign := (t.takeWhile (· = .char '!')).take 1
  let afterSign := t.drop sign.length
  let first := (afterSign.takeWhile (· = .char ']')).take 1
  let body := afterSign.drop first.length
  let more := body.takeWhile (· ≠ .char ']')
  if more.length = body.length then none
  else some (sign ++ first ++ more, body.drop (more.length + 1))

theorem length_bracket?_lt {t content rest : Text} (h : bracket? t = some (content, rest)) :
    rest.length < t.length + 1 := by
  unfold bracket? at h
  dsimp only at h
  split at h
  · cases h
  · cases h
    simp only [List.length_drop]
    omega

def items : Text → List Item
  | [] => []
  | p :: rest =>
    if p = .char '*' then .star :: items rest
    else if p = .char '?' then .any :: items rest
    else if p = .char '[' then
      match _found : bracket? rest with
      | some (content, after) => bracketItem content :: items after
      | none => .point p :: items rest
    else .point p :: items rest
termination_by t => t.length
decreasing_by
  all_goals first
    | exact length_bracket?_lt _found
    | simp

/-- Whether an item other than a star takes a code point. -/
def Item.takes (item : Item) (p : CodePoint) : Bool :=
  match item with
  | .star => false
  | .any => true
  | .never => false
  | .point q => p = q
  | .oneOf s => s.contains p

/-- What may remain of a pattern before the next code point: a star may be left out. -/
def remainders : List Item → List (List Item)
  | .star :: rest => (.star :: rest) :: remainders rest
  | items => [items]

/-- What may remain after a code point, of one remainder. -/
def afterPoint (p : CodePoint) : List Item → List (List Item)
  | [] => []
  | .star :: rest => [.star :: rest]
  | item :: rest => if item.takes p then remainders rest else []

/-- Whether a name is matched, given what may remain of the pattern. -/
def matchesFrom (live : List (List Item)) : Text → Bool
  | [] => live.contains []
  | p :: rest => matchesFrom ((live.flatMap (afterPoint p)).flatMap remainders).eraseDups rest

def matchesName (pattern name : Text) : Bool := matchesFrom (remainders (items pattern)) name

def isWild (p : CodePoint) : Bool := p.isOneOf ['*', '?', '[']

def hasWild (pattern : Text) : Bool := pattern.any isWild

/-- A name that patterns skip unless they start with a point themselves. -/
def isHidden (name : Text) : Bool := name.head? = some (.char '.')

end GrammarBundle.Pattern
