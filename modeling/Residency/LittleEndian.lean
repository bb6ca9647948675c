/-!
# Little-endian words

A word of 32 bits is stored in four bytes, the lowest first: `LittleEndian.bytes` are the bytes of
a word and `LittleEndian.word` is the word of four bytes.
-/

namespace Residency.LittleEndian

def bytes (word : UInt32) : List UInt8 :=
  [word.toUInt8, (word >>> 8).toUInt8, (word >>> 16).toUInt8, (word >>> 24).toUInt8]

def word (b₀ b₁ b₂ b₃ : UInt8) : UInt32 :=
  b₀.toUInt32 ||| b₁.toUInt32 <<< 8 ||| b₂.toUInt32 <<< 16 ||| b₃.toUInt32 <<< 24

@[simp] theorem length_bytes (word : UInt32) : (bytes word).length = 4 := rfl

end Residency.LittleEndian
