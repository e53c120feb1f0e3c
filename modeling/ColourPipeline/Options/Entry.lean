import ColourPipeline.Options.Value

namespace ColourPipeline

inductive OptionSource where
  | none
  | user
  | data
  | filter
  | defaults
deriving DecidableEq, Repr

namespace OptionSource

def all : List OptionSource := [none, user, data, filter, defaults]

def name : OptionSource → String
  | none => "none"
  | user => "user"
  | data => "data"
  | filter => "filter"
  | defaults => "defaults"

def ofName? (s : String) : Option OptionSource := all.find? (·.name == s)

@[simp] theorem ofName?_name (s : OptionSource) : ofName? s.name = some s := by
  cases s <;> decide

end OptionSource

structure OptionFlags where
  locked : Bool := false
  automatic : Bool := false
  advanced : Bool := false
  front : Bool := false
deriving DecidableEq, Repr

structure AttributeFilter where
  advanced : Bool
  front : Bool
deriving DecidableEq, Repr

namespace AttributeFilter

def all : AttributeFilter := ⟨true, true⟩

def admits (filter : AttributeFilter) (flags : OptionFlags) : Bool :=
  (!flags.advanced || filter.advanced) && (!flags.front || filter.front)

@[simp] theorem all_admits (flags : OptionFlags) : all.admits flags = true := by
  simp [admits, all]

end AttributeFilter

def optionKey (registration : String) : String :=
  let parts := Text.split '/' registration.toList
  match parts.reverse.find? (· ≠ []) with
  | some part => String.ofList (part.takeWhile (· ≠ '.'))
  | none => ""

structure OptionEntry where
  registration : String
  value : OptionValue
  source : OptionSource := .none
  flags : OptionFlags := {}
deriving DecidableEq

namespace OptionEntry

def key (e : OptionEntry) : String := optionKey e.registration

def isProtected (e : OptionEntry) : Bool :=
  e.source == .user || e.source == .data || e.flags.locked

def same (d e : OptionEntry) : Bool :=
  d.registration == e.registration && d.value.same e.value && d.source == e.source &&
    d.flags == e.flags

end OptionEntry

end ColourPipeline
