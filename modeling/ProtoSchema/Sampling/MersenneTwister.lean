/-! The Mersenne Twister MT19937, seeded with an integer. -/
namespace ProtoSchema.Sampling

/-- A row of words, and how many of them have been used. -/
structure MersenneTwister where
  words : Array UInt32
  used : Nat

namespace MersenneTwister

/-- How many words there are. -/
def size : Nat := 624

/-- How far ahead of a word the one lies with which it is combined. -/
def shift : Nat := 397

def wordAt (words : Array UInt32) (i : Nat) : UInt32 := words.getD i 0

/-- The words that follow from one number. -/
def expand (seed : UInt32) : Array UInt32 :=
  (List.range (size - 1)).foldl (fun words i =>
    let last := wordAt words i
    words.push ((last ^^^ (last >>> 30)) * 1812433253 + UInt32.ofNat (i + 1))) #[seed]

/-- The row is a ring whose first word repeats the last one, so that a pass skips it. -/
def advance (words : Array UInt32) (i : Nat) : Array UInt32 × Nat :=
  if i + 1 < size then (words, i + 1) else (words.setIfInBounds 0 (wordAt words (size - 1)), 1)

/-- Mixes a word with the one before it. -/
def mix (words : Array UInt32) (i : Nat) (factor : UInt32) : UInt32 :=
  let before := wordAt words (i - 1)
  wordAt words i ^^^ ((before ^^^ (before >>> 30)) * factor)

/-- Stirs the words of a key into the row. -/
def absorb (key : Array UInt32) (words : Array UInt32) : Array UInt32 × Nat :=
  (List.range (max size key.size)).foldl (fun (words, i) k =>
    let j := k % key.size
    let word := mix words i 1664525 + wordAt key j + UInt32.ofNat j
    advance (words.setIfInBounds i word) i) (words, 1)

/-- Stirs the row once more. -/
def settle (words : Array UInt32) (i : Nat) : Array UInt32 × Nat :=
  (List.range (size - 1)).foldl (fun (words, i) _ =>
    advance (words.setIfInBounds i (mix words i 1566083941 - UInt32.ofNat i)) i) (words, i)

def ofKey (key : Array UInt32) : MersenneTwister :=
  let (words, i) := absorb key (expand 19650218)
  { words := (settle words i).1.setIfInBounds 0 0x80000000, used := size }

/-- The words of a number, the lowest first. Zero has one word. -/
def keyOf (n : Nat) : Array UInt32 :=
  (Array.range (n.log2 / 32 + 1)).map fun i => UInt32.ofNat (n >>> (32 * i))

/-- The sign of a seed does not count. -/
def ofSeed (seed : Int) : MersenneTwister := ofKey (keyOf seed.natAbs)

/-- Replaces each word of the row, in order. -/
def twist (words : Array UInt32) : Array UInt32 :=
  (List.range size).foldl (fun words i =>
    let joined :=
      (wordAt words i &&& 0x80000000) ||| (wordAt words ((i + 1) % size) &&& 0x7fffffff)
    let mask : UInt32 := if joined &&& 1 = 1 then 0x9908b0df else 0
    words.setIfInBounds i (wordAt words ((i + shift) % size) ^^^ (joined >>> 1) ^^^ mask)) words

def temper (word : UInt32) : UInt32 :=
  let word := word ^^^ (word >>> 11)
  let word := word ^^^ ((word <<< 7) &&& 0x9d2c5680)
  let word := word ^^^ ((word <<< 15) &&& 0xefc60000)
  word ^^^ (word >>> 18)

/-- The next word drawn. -/
def next (source : MersenneTwister) : UInt32 × MersenneTwister :=
  let source := if size ≤ source.used then { words := twist source.words, used := 0 } else source
  (temper (wordAt source.words source.used), { source with used := source.used + 1 })

end MersenneTwister
end ProtoSchema.Sampling
