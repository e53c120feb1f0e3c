import ColourPipeline.Options.Entry

namespace ColourPipeline

structure OptionSet where
  entries : List OptionEntry
deriving DecidableEq

namespace OptionSet

def empty : OptionSet := ⟨[]⟩

instance : Inhabited OptionSet := ⟨empty⟩

def size (s : OptionSet) : Nat := s.entries.length

def isEmpty (s : OptionSet) : Bool := s.entries.isEmpty

def keys (s : OptionSet) : List String := s.entries.map (·.key)

def find? (s : OptionSet) (key : String) : Option OptionEntry :=
  s.entries.find? (·.key == key)

def value? (s : OptionSet) (key : String) : Option OptionValue := (s.find? key).map (·.value)

def int? (s : OptionSet) (key : String) : Option Int64 := (s.value? key).bind (·.asInt)

def double? (s : OptionSet) (key : String) : Option Float := (s.value? key).bind (·.asDouble)

def text? (s : OptionSet) (key : String) : Option String := (s.value? key).bind (·.asText)

def put (e : OptionEntry) : List OptionEntry → List OptionEntry
  | [] => [e]
  | d :: ds => if d.key = e.key then e :: ds else d :: put e ds

def insert (s : OptionSet) (e : OptionEntry) : OptionSet := ⟨put e s.entries⟩

def moveIn (s : OptionSet) (e : OptionEntry) : Option OptionEntry × OptionSet :=
  match s.entries.findIdx? (·.key == e.key) with
  | some i => (s.entries[i]?, ⟨s.entries.set i e⟩)
  | none => (none, ⟨s.entries ++ [e]⟩)

def setUser (s : OptionSet) (registration : String) (value : OptionValue) : OptionSet :=
  s.insert { registration, value, source := .user }

def erase (s : OptionSet) (key : String) : OptionSet := ⟨s.entries.eraseP (·.key == key)⟩

def takeOut (s : OptionSet) (key : String) : Option OptionEntry × OptionSet :=
  match s.entries.findIdx? (·.key == key) with
  | some i => (s.entries[i]?, ⟨s.entries.eraseIdx i⟩)
  | none => (none, s)

def editFirst (key : String) (f : OptionEntry → OptionEntry) :
    List OptionEntry → List OptionEntry
  | [] => []
  | e :: es => if e.key = key then f e :: es else e :: editFirst key f es

def edit (s : OptionSet) (key : String) (f : OptionEntry → OptionEntry) : OptionSet :=
  ⟨editFirst key f s.entries⟩

def merge (s t : OptionSet) : OptionSet := t.entries.foldl insert s

def ofList (es : List OptionEntry) : OptionSet := es.foldl insert empty

def filtered (s : OptionSet) (filter : AttributeFilter) : OptionSet :=
  ⟨s.entries.filter (filter.admits ·.flags)⟩

def same (s t : OptionSet) : Bool :=
  s.size == t.size && (s.entries.zip t.entries).all fun (d, e) => d.same e

end OptionSet

end ColourPipeline
