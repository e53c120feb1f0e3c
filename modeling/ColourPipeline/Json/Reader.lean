import ColourPipeline.Json.Number
import ColourPipeline.Text.Hex

namespace ColourPipeline.Json

def isSpace (c : Char) : Bool := c == ' ' || c == '\n' || c == '\t' || c == '\r'

def skip (cs : List Char) : List Char := cs.dropWhile isSpace

def escaped? : Char → Option Nat
  | '"' => some 0x22
  | '\\' => some 0x5C
  | '/' => some 0x2F
  | 'b' => some 0x08
  | 'f' => some 0x0C
  | 'n' => some 0x0A
  | 'r' => some 0x0D
  | 't' => some 0x09
  | _ => none

def scanText : List Char → Option (List Nat × List Char)
  | [] => none
  | '"' :: cs => some ([], cs)
  | '\\' :: 'u' :: a :: b :: c :: d :: cs => do
    let n ← Text.Hex.number? [a, b, c, d]
    let (ns, rest) ← scanText cs
    pure (n :: ns, rest)
  | '\\' :: c :: cs => do
    let n ← escaped? c
    let (ns, rest) ← scanText cs
    pure (n :: ns, rest)
  | c :: cs =>
    if c.toNat < 0x20 ∨ c = '\\' then none
    else do
      let (ns, rest) ← scanText cs
      pure (c.toNat :: ns, rest)

def isHigh (n : Nat) : Bool := 0xD800 ≤ n && n < 0xDC00

def isLow (n : Nat) : Bool := 0xDC00 ≤ n && n < 0xE000

def assemble : List Nat → Option (List Char)
  | [] => some []
  | n :: ns =>
    if isHigh n then
      match ns with
      | m :: ns =>
        if isLow m then
          (assemble ns).map (Char.ofNat (0x10000 + (n - 0xD800) * 0x400 + (m - 0xDC00)) :: ·)
        else none
      | [] => none
    else if isLow n then none
    else (assemble ns).map (Char.ofNat n :: ·)

def ofUnits (ns : List Nat) : Json :=
  match assemble ns with
  | some cs => .str (String.ofList cs)
  | none => .unreadable

abbrev Member := Option String × Json

def ofMembers (ms : List Member) : Json :=
  match ms.mapM fun (k, v) => k.map fun k => (k, v) with
  | some ms => .obj ms
  | none => .unreadable

mutual

def readValue : Nat → List Char → Option (Json × List Char)
  | 0, _ => none
  | fuel + 1, cs =>
    match skip cs with
    | 'n' :: 'u' :: 'l' :: 'l' :: rest => some (.null, rest)
    | 't' :: 'r' :: 'u' :: 'e' :: rest => some (.bool true, rest)
    | 'f' :: 'a' :: 'l' :: 's' :: 'e' :: rest => some (.bool false, rest)
    | '"' :: rest => (scanText rest).map fun (ns, rest) => (ofUnits ns, rest)
    | '[' :: rest =>
      match skip rest with
      | ']' :: rest => some (.arr [], rest)
      | rest => (readItems fuel rest).map fun (vs, rest) => (.arr vs, rest)
    | '{' :: rest =>
      match skip rest with
      | '}' :: rest => some (.obj [], rest)
      | rest => (readMembers fuel rest).map fun (ms, rest) => (ofMembers ms, rest)
    | rest => (Numeral.scan rest).map fun (t, rest) => (t.value, rest)

def readItems : Nat → List Char → Option (List Json × List Char)
  | 0, _ => none
  | fuel + 1, cs => do
    let (v, cs) ← readValue fuel cs
    match skip cs with
    | ',' :: cs =>
      let (vs, cs) ← readItems fuel cs
      pure (v :: vs, cs)
    | ']' :: cs => pure ([v], cs)
    | _ => none

def readMembers : Nat → List Char → Option (List Member × List Char)
  | 0, _ => none
  | fuel + 1, cs => do
    match skip cs with
    | '"' :: cs =>
      let (ns, cs) ← scanText cs
      match skip cs with
      | ':' :: cs =>
        let (v, cs) ← readValue fuel cs
        let m : Member := ((assemble ns).map String.ofList, v)
        match skip cs with
        | ',' :: cs =>
          let (ms, cs) ← readMembers fuel cs
          pure (m :: ms, cs)
        | '}' :: cs => pure ([m], cs)
        | _ => none
      | _ => none
    | _ => none

end

def parse (text : String) : Option Json :=
  let cs := text.toList
  match readValue (2 * cs.length + 1) cs with
  | some (v, rest) => if skip rest = [] then some v else none
  | none => none

end ColourPipeline.Json
