namespace ColourPipeline

abbrev Bytes := List UInt8

namespace Bytes

def number (bs : Bytes) : Nat := bs.foldl (fun n b => 256 * n + b.toNat) 0

def ofNat : Nat → Nat → Bytes
  | 0, _ => []
  | width + 1, n => ofNat width (n / 256) ++ [UInt8.ofNat n]

@[simp] theorem length_ofNat (width n : Nat) : (ofNat width n).length = width := by
  induction width generalizing n with
  | zero => rfl
  | succ width ih => simp [ofNat, ih]

theorem number_append (bs : Bytes) (b : UInt8) :
    number (bs ++ [b]) = 256 * number bs + b.toNat := by
  simp [number, List.foldl_append]

theorem number_ofNat (width n : Nat) (h : n < Nat.pow 256 width) : number (ofNat width n) = n := by
  induction width generalizing n with
  | zero =>
    have h : n < 1 := h
    rw [Nat.lt_one_iff.1 h]
    rfl
  | succ width ih =>
    have h : n < Nat.pow 256 width * 256 := h
    rw [ofNat, number_append, ih (n / 256) (Nat.div_lt_of_lt_mul (by omega))]
    simp
    omega

def ofNatLittle (width n : Nat) : Bytes := (ofNat width n).reverse

def numberLittle (bs : Bytes) : Nat := number bs.reverse

def slice (bs : Bytes) (offset length : Nat) : Bytes := (bs.drop offset).take length

def word (bs : Bytes) (offset : Nat) : UInt32 := UInt32.ofNat (number (slice bs offset 4))

def ofWord (w : UInt32) : Bytes := ofNat 4 w.toNat

def isAscii (b : UInt8) : Bool := b < 128

def ofText (s : String) : Bytes := s.toUTF8.toList

def latin (bs : Bytes) : String := String.ofList (bs.map fun b => Char.ofNat b.toNat)

def chunks (size : Nat) (bs : Bytes) : List Bytes :=
  if _h : bs = [] ∨ size = 0 then []
  else bs.take size :: chunks size (bs.drop size)
termination_by bs.length
decreasing_by
  rw [not_or] at _h
  have := List.length_pos_iff.2 _h.1
  simp only [List.length_drop]
  omega

end Bytes

end ColourPipeline
