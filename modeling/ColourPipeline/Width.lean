namespace ColourPipeline.Width

/-! How many values there are of 8, 16, 32 and 64 bits. -/

def byte : Nat := 0x100

def short : Nat := 0x10000

def word : Nat := 0x100000000

def long : Nat := 0x10000000000000000

end ColourPipeline.Width
