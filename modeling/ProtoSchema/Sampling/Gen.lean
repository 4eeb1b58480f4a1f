import ProtoSchema.Sampling.MersenneTwister

/-! Random choices. -/
namespace ProtoSchema.Sampling

/-- Why a choice comes to nothing: there is nothing to choose from, or draws are rejected without
end. -/
inductive Fault where
  | emptyRange
  | stalled
  deriving DecidableEq

/-- A value that depends on words drawn from a source. -/
abbrev Gen (α : Type) := StateT MersenneTwister (Except Fault) α

namespace Gen
variable {α : Type}

def word : Gen UInt32 := fun source => .ok source.next

/-- Words put one before the other, the lowest first, and before them the first bits of one more. -/
def joined (count : Nat) : Nat → Gen Nat
  | 0 => do return (← word).toNat >>> (32 - count)
  | words + 1 => do
    let low := (← word).toNat
    return (← joined count words) <<< 32 + low

/-- How many words are used whole in a number of so many bits. -/
def wholeWords (count : Nat) : Nat := (count - 1) / 32

/-- A number of so many bits, at least one. -/
def bits (count : Nat) : Gen Nat := joined (count - 32 * wholeWords count) (wholeWords count)

/-- Draws numbers of so many bits until one lies below `n`. -/
def rejectFrom (n count : Nat) : Nat → Gen Nat
  | 0 => throw .stalled
  | fuel + 1 => do
    let drawn ← bits count
    if drawn < n then return drawn else rejectFrom n count fuel

/-- A number whose first bit is zero lies below every bound of the same length, and the first bits
of the words, or of every so many of them, obey a linear recurrence of order 19937. A row of ones as
long as this would have to go on for ever, which they never do. -/
def maxDraws : Nat := 20000

/-- A number below `n`. -/
def below (n : Nat) : Gen Nat :=
  if n = 0 then throw .emptyRange else rejectFrom n (n.log2 + 1) maxDraws

/-- A number from `least` to `most`, both included. -/
def between (least most : Nat) : Gen Nat := do return least + (← below (most + 1 - least))

/-- A multiple of `2 ^ -53` below one. -/
def fraction : Gen Float := do
  let high ← bits 27
  let low ← bits 26
  return Float.ofNat (high <<< 26 + low) / 9007199254740992

def chance (p : Float) : Gen Bool := do return decide ((← fraction) < p)

def choice (items : List α) : Gen α := do
  match items[← below items.length]? with
  | some item => return item
  | none => throw .emptyRange

/-- The values of so many runs. -/
def times (gen : Gen α) : Nat → Gen (List α)
  | 0 => return []
  | n + 1 => do
    let a ← gen
    return a :: (← times gen n)

/-- So many items of a pool, none of them twice. The last item of the pool takes the place of the
one chosen. -/
def sample (pool : List α) : Nat → Gen (List α)
  | 0 => return []
  | n + 1 => do
    let i ← below pool.length
    match pool[i]?, pool.getLast? with
    | some item, some last => return item :: (← sample (pool.set i last).dropLast n)
    | _, _ => throw .emptyRange

/-- Swaps each of the items up to the index `i`, from the last to the second, with one not after
it. -/
def shuffleTo (items : Array α) : Nat → Gen (Array α)
  | 0 => return items
  | i + 1 => do
    let j ← below (i + 2)
    shuffleTo (items.swapIfInBounds (i + 1) j) i

def shuffle (items : List α) : Gen (List α) := do
  return (← shuffleTo items.toArray (items.length - 1)).toList

end Gen
end ProtoSchema.Sampling
