import SchemaSampler.Random.Source

-- ChaCha with 12 rounds, a 64-bit block counter and stream number zero.

namespace SchemaSampler.Random

def rotate (word : UInt32) (count : UInt32) : UInt32 :=
  (word <<< count) ||| (word >>> (32 - count))

abbrev Words := Vector UInt32 16

def quarterRound (words : Words) (a b c d : Fin 16) : Words :=
  let wa := words[a] + words[b]
  let wd := rotate (words[d] ^^^ wa) 16
  let wc := words[c] + wd
  let wb := rotate (words[b] ^^^ wc) 12
  let wa := wa + wb
  let wd := rotate (wd ^^^ wa) 8
  let wc := wc + wd
  let wb := rotate (wb ^^^ wc) 7
  (((words.set a wa).set b wb).set c wc).set d wd

def doubleRound (words : Words) : Words :=
  let words := quarterRound words 0 4 8 12
  let words := quarterRound words 1 5 9 13
  let words := quarterRound words 2 6 10 14
  let words := quarterRound words 3 7 11 15
  let words := quarterRound words 0 5 10 15
  let words := quarterRound words 1 6 11 12
  let words := quarterRound words 2 7 8 13
  quarterRound words 3 4 9 14

def doubleRounds : Nat := 6

structure ChaCha where
  key : Vector UInt32 8
  block : UInt64 := 0
  left : List UInt32 := []

namespace ChaCha

def initial (chacha : ChaCha) : Words :=
  (#v[0x61707865, 0x3320646e, 0x79622d32, 0x6b206574] : Vector UInt32 4) ++ chacha.key ++
    (#v[chacha.block.toUInt32, (chacha.block >>> 32).toUInt32, 0, 0] : Vector UInt32 4)

def blockWords (chacha : ChaCha) : List UInt32 :=
  let start := chacha.initial
  let mixed := (List.range doubleRounds).foldl (fun words _ => doubleRound words) start
  (Vector.zipWith (· + ·) mixed start).toList

def nextWord (chacha : ChaCha) : UInt32 × ChaCha :=
  match chacha.left with
  | word :: left => (word, { chacha with left })
  | [] =>
    match chacha.blockWords with
    | word :: left => (word, { chacha with block := chacha.block + 1, left })
    | [] => (0, chacha)

def nextWord64 (chacha : ChaCha) : UInt64 × ChaCha :=
  let (low, chacha) := chacha.nextWord
  let (high, chacha) := chacha.nextWord
  (low.toUInt64 ||| (high.toUInt64 <<< 32), chacha)

def wordBytes (word : UInt32) : List UInt8 :=
  [word.toUInt8, (word >>> 8).toUInt8, (word >>> 16).toUInt8, (word >>> 24).toUInt8]

-- What is left of the last word is lost.
def nextBytes : Nat → ChaCha → List UInt8 × ChaCha
  | 0, chacha => ([], chacha)
  | count + 1, chacha =>
    let (word, chacha) := chacha.nextWord
    let (rest, chacha) := nextBytes (count - 3) chacha
    ((wordBytes word).take (count + 1) ++ rest, chacha)
termination_by count => count

end ChaCha

instance : Source ChaCha where
  word32 := ChaCha.nextWord
  word64 := ChaCha.nextWord64
  bytes := ChaCha.nextBytes

def keyWord (state : UInt64) : UInt32 × UInt64 :=
  let state := state * 6364136223846793005 + 11634580027462260723
  let mixed := (((state >>> 18) ^^^ state) >>> 27).toUInt32
  let turn := (state >>> 59).toUInt32
  ((mixed >>> turn) ||| (mixed <<< ((32 - turn) % 32)), state)

def ChaCha.ofSeed (seed : UInt64) : ChaCha where
  key :=
    let (a, state) := keyWord seed
    let (b, state) := keyWord state
    let (c, state) := keyWord state
    let (d, state) := keyWord state
    let (e, state) := keyWord state
    let (f, state) := keyWord state
    let (g, state) := keyWord state
    let (h, _) := keyWord state
    #v[a, b, c, d, e, f, g, h]

end SchemaSampler.Random
