namespace ColourPipeline.Text.Hex

def digit (n : Nat) : Char :=
  if n < 10 then Char.ofNat (48 + n) else Char.ofNat (87 + n)

def value? (c : Char) : Option Nat :=
  if '0' ≤ c ∧ c ≤ '9' then some (c.toNat - 48)
  else if 'a' ≤ c ∧ c ≤ 'f' then some (c.toNat - 87)
  else if 'A' ≤ c ∧ c ≤ 'F' then some (c.toNat - 55)
  else none

theorem value?_digit : ∀ n < 16, value? (digit n) = some n := by decide

def pad : Nat → Nat → List Char
  | 0, _ => []
  | width + 1, n => pad width (n / 16) ++ [digit (n % 16)]

@[simp] theorem length_pad (width n : Nat) : (pad width n).length = width := by
  induction width generalizing n with
  | zero => rfl
  | succ width ih => simp [pad, ih]

def number? (cs : List Char) : Option Nat :=
  cs.foldlM (fun n c => (value? c).map (16 * n + ·)) 0

def encode (bytes : List UInt8) : String :=
  String.ofList (bytes.flatMap fun b => pad 2 b.toNat)

def pairs? : List Char → Option (List UInt8)
  | [] => some []
  | [_] => none
  | a :: b :: cs => do
    let high ← value? a
    let low ← value? b
    let rest ← pairs? cs
    pure (UInt8.ofNat (16 * high + low) :: rest)

def decode? (text : String) : Option (List UInt8) := pairs? text.toList

theorem pad_two (n : Nat) : pad 2 n = [digit (n / 16 % 16), digit (n % 16)] := rfl

theorem pairs?_pad (b : UInt8) (cs : List Char) :
    pairs? (pad 2 b.toNat ++ cs) = (pairs? cs).map (b :: ·) := by
  have hb : b.toNat < 256 := b.toNat_lt
  have hh := value?_digit (b.toNat / 16 % 16) (Nat.mod_lt _ (by decide))
  have hl := value?_digit (b.toNat % 16) (Nat.mod_lt _ (by decide))
  have hn : 16 * (b.toNat / 16 % 16) + b.toNat % 16 = b.toNat := by omega
  have hd (x y : Char) : pairs? (x :: y :: cs) = (value? x).bind fun high =>
      (value? y).bind fun low => (pairs? cs).map (UInt8.ofNat (16 * high + low) :: ·) := by
    rw [pairs?]
    cases value? x <;> cases value? y <;> cases pairs? cs <;> rfl
  rw [pad_two, List.cons_append, List.cons_append, List.nil_append, hd, hh, hl, Option.bind_some,
    Option.bind_some, hn, UInt8.ofNat_toNat]

theorem decode?_encode (bytes : List UInt8) : decode? (encode bytes) = some bytes := by
  rw [decode?, encode, String.toList_ofList]
  induction bytes with
  | nil => rfl
  | cons b bytes ih => rw [List.flatMap_cons, pairs?_pad, ih, Option.map_some]

theorem encode_inj {bs cs : List UInt8} (h : encode bs = encode cs) : bs = cs := by
  have hd := decode?_encode bs
  rw [h, decode?_encode] at hd
  exact (Option.some.inj hd).symm

theorem notMem_encode {c : Char} (h : value? c = none) (bytes : List UInt8) :
    c ∉ (encode bytes).toList := by
  have hdigit (n : Nat) : c ≠ digit (n % 16) := by
    intro hc
    have hv := value?_digit (n % 16) (Nat.mod_lt _ (by decide))
    rw [← hc, h] at hv
    cases hv
  rw [encode, String.toList_ofList, List.mem_flatMap]
  rintro ⟨b, -, hb⟩
  rw [pad_two, List.mem_cons, List.mem_singleton] at hb
  rcases hb with hb | hb
  · exact hdigit _ hb
  · exact hdigit _ hb

end ColourPipeline.Text.Hex
