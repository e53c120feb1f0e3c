import ColourPipeline.Text.Blank

namespace ColourPipeline

structure Segment where
  keys : List String
deriving DecidableEq, Repr

namespace Segment

def ofChars (cs : List Char) : Segment :=
  ⟨((Text.split '.' cs).filter (· ≠ [])).map String.ofList⟩

def head (s : Segment) : String := s.keys.headD ""

def isWildcard (s : Segment) : Bool := s.keys == ["*"]

def admits (s candidate : Segment) : Bool :=
  s.isWildcard || s.keys.all (candidate.keys.contains ·)

end Segment

/-- A registration path such as `org/vendor/colour/icc.transform`, or a pattern for such paths. -/
structure Path where
  text : String
deriving DecidableEq, Repr

namespace Path

def ofChars (cs : List Char) : Path := ⟨String.ofList (Text.trim cs)⟩

def parse (text : String) : Path := ofChars text.toList

def segmentsOf (cs : List Char) : List Segment :=
  ((Text.split '/' cs).map Segment.ofChars).filter (·.keys ≠ [])

def segments (p : Path) : List Segment := segmentsOf p.text.toList

def floating (p : Path) : Bool :=
  let cs := p.text.toList
  ['/', '/'].isPrefixOf cs || (!cs.contains '/' && p.segments.length == 1)

def isEmpty (p : Path) : Bool := p.segments.isEmpty

def join (p : Path) (tail : String) : Path :=
  ofChars (Text.dropEndWhile (· == '/') p.text.toList ++
    '/' :: tail.toList.dropWhile (· == '/'))

def fits : List Segment → List Segment → Bool
  | [], _ => true
  | _ :: _, [] => false
  | p :: ps, c :: cs => p.admits c && fits ps cs

def fitsSomewhere (pattern : List Segment) : List Segment → Bool
  | [] => fits pattern []
  | c :: cs => fits pattern (c :: cs) || fitsSomewhere pattern cs

def selects (p candidate : Path) : Bool :=
  if p.floating then fitsSomewhere p.segments candidate.segments
  else fits p.segments candidate.segments

end Path

def selects (pattern registration : String) : Bool :=
  (Path.parse pattern).selects (Path.parse registration)

end ColourPipeline
