import ColourPipeline.Decimal.Style
import ColourPipeline.Json.Basic
import ColourPipeline.Text.Hex

namespace ColourPipeline.Json

def escape (c : Char) : List Char :=
  if c = '"' then ['\\', '"']
  else if c = '\\' then ['\\', '\\']
  else if c = '\x08' then ['\\', 'b']
  else if c = '\x0c' then ['\\', 'f']
  else if c = '\n' then ['\\', 'n']
  else if c = '\r' then ['\\', 'r']
  else if c = '\t' then ['\\', 't']
  else if c.toNat < 0x20 then '\\' :: 'u' :: Text.Hex.pad 4 c.toNat
  else [c]

def quoted (s : String) : List Char :=
  '"' :: (s.toList.flatMap escape ++ ['"'])

def floatChars (x : Float) : List Char :=
  if x.isFinite then Decimal.Style.document.chars x else ['n', 'u', 'l', 'l']

structure Spacing where
  line : Nat → List Char
  afterColon : List Char

def Spacing.compact : Spacing := ⟨fun _ => [], []⟩

@[simp] theorem Spacing.compact_line (level : Nat) : Spacing.compact.line level = [] := rfl

@[simp] theorem Spacing.compact_afterColon : Spacing.compact.afterColon = [] := rfl

def Spacing.pretty : Spacing := ⟨fun level => '\n' :: List.replicate (2 * level) ' ', [' ']⟩

mutual

def write (sp : Spacing) (level : Nat) : Json → List Char
  | .null | .unreadable => ['n', 'u', 'l', 'l']
  | .bool true => ['t', 'r', 'u', 'e']
  | .bool false => ['f', 'a', 'l', 's', 'e']
  | .int z => Decimal.intChars z
  | .float x => floatChars x
  | .str s => quoted s
  | .arr [] => ['[', ']']
  | .arr (v :: vs) =>
    '[' :: (sp.line (level + 1) ++ write sp (level + 1) v ++ writeItems sp (level + 1) vs ++
      sp.line level ++ [']'])
  | .obj [] => ['{', '}']
  | .obj ((k, v) :: ms) =>
    '{' :: (sp.line (level + 1) ++ quoted k ++ ':' :: (sp.afterColon ++
      write sp (level + 1) v ++ writeMembers sp (level + 1) ms ++ sp.line level ++ ['}']))

def writeItems (sp : Spacing) (level : Nat) : List Json → List Char
  | [] => []
  | v :: vs => ',' :: (sp.line level ++ write sp level v ++ writeItems sp level vs)

def writeMembers (sp : Spacing) (level : Nat) : List (String × Json) → List Char
  | [] => []
  | (k, v) :: ms =>
    ',' :: (sp.line level ++ quoted k ++ ':' :: (sp.afterColon ++ write sp level v ++
      writeMembers sp level ms))

end

def compact (v : Json) : String := String.ofList (write .compact 0 v)

def pretty (v : Json) : String := String.ofList (write .pretty 0 v)

end ColourPipeline.Json
