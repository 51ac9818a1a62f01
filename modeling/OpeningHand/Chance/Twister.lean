/-!
# The random number generator

The Mersenne twister with 624 words of 32 bits. It is seeded from the magnitude of a whole number,
cut into words from the least significant one. Numbers of `k` bits take the most significant bits of
one word, or several words of which the last gives only its most significant bits. A number below `n`
is drawn with as many bits as `n` has, again and again until it is below `n`.
-/

namespace OpeningHand

/-- The state of the generator: its words, and the place of the next one to use. -/
structure Twister where
  words : Array UInt32
  next : Nat

namespace Twister

/-- The number of words. -/
def size : Nat := 624

/-- One step of the first filling. -/
def fillWord (mt : Array UInt32) (i : Nat) : Array UInt32 :=
  let p := mt.getD (i - 1) 0
  mt.push ((p ^^^ (p >>> 30)) * 1812433253 + UInt32.ofNat i)

/-- The first filling, from one word. -/
def fill (seed : UInt32) : Array UInt32 :=
  (List.range (size - 1)).foldl (fun mt i => fillWord mt (i + 1)) #[seed]

/-- After the last word the first one takes its value, and the walk starts again behind it. -/
def wrap (mt : Array UInt32) (i : Nat) : Array UInt32 × Nat :=
  if size ≤ i then (mt.setIfInBounds 0 (mt.getD (size - 1) 0), 1) else (mt, i)

/-- One step of mixing the key in: the words, the place among them, the place in the key. -/
def mixKey (key : Array UInt32) (s : Array UInt32 × Nat × Nat) : Array UInt32 × Nat × Nat :=
  let (mt, i, j) := s
  let p := mt.getD (i - 1) 0
  let v := (mt.getD i 0 ^^^ ((p ^^^ (p >>> 30)) * 1664525)) + key.getD j 0 + UInt32.ofNat j
  let (mt, i) := wrap (mt.setIfInBounds i v) (i + 1)
  (mt, i, if key.size ≤ j + 1 then 0 else j + 1)

/-- One step of the mixing that follows. -/
def mixPlace (s : Array UInt32 × Nat) : Array UInt32 × Nat :=
  let (mt, i) := s
  let p := mt.getD (i - 1) 0
  let v := (mt.getD i 0 ^^^ ((p ^^^ (p >>> 30)) * 1566083941)) - UInt32.ofNat i
  wrap (mt.setIfInBounds i v) (i + 1)

/-- The words of a natural number, the least significant one first; at least one. The first argument
bounds their number. -/
def keyWords : Nat → Nat → List UInt32
  | 0, _ => []
  | fuel + 1, n =>
    UInt32.ofNat (n % 2 ^ 32) :: if n / 2 ^ 32 = 0 then [] else keyWords fuel (n / 2 ^ 32)

/-- The generator of a seed. Seeds of the same magnitude give the same generator. -/
def ofSeed (seed : Int) : Twister :=
  let n := seed.natAbs
  let key := (keyWords (n.log2 + 1) n).toArray
  let start := fill 19650218
  let (mt, i, _) := (List.range (max size key.size)).foldl (fun s _ => mixKey key s) (start, 1, 0)
  let (mt, _) := (List.range (size - 1)).foldl (fun s _ => mixPlace s) (mt, i)
  ⟨mt.setIfInBounds 0 0x80000000, size⟩

/-- One word of a new round. -/
def twistWord (mt : Array UInt32) (i : Nat) : Array UInt32 :=
  let y := (mt.getD i 0 &&& 0x80000000) ||| (mt.getD ((i + 1) % size) 0 &&& 0x7fffffff)
  let v := mt.getD ((i + 397) % size) 0 ^^^ (y >>> 1)
  mt.setIfInBounds i (if y &&& 1 = 0 then v else v ^^^ 0x9908b0df)

/-- A new round of words. -/
def twist (mt : Array UInt32) : Array UInt32 := (List.range size).foldl twistWord mt

/-- Spreads the bits of a word. -/
def temper (y : UInt32) : UInt32 :=
  let y := y ^^^ (y >>> 11)
  let y := y ^^^ ((y <<< 7) &&& 0x9d2c5680)
  let y := y ^^^ ((y <<< 15) &&& 0xefc60000)
  y ^^^ (y >>> 18)

/-- The next word. -/
def word (t : Twister) : UInt32 × Twister :=
  let t := if size ≤ t.next then ⟨twist t.words, 0⟩ else t
  (temper (t.words.getD t.next 0), { t with next := t.next + 1 })

/-- The next number of `k` bits, `k` being at most 32. -/
def fewBits (k : Nat) (t : Twister) : Nat × Twister :=
  let (w, t) := t.word
  (w.toNat >>> (32 - k), t)

/-- The next number of `k` bits after `n` whole words. -/
def wordsAndBits : (n : Nat) → (k : Nat) → Twister → Nat × Twister
  | 0, k, t => t.fewBits k
  | n + 1, k, t =>
    let (low, t) := t.fewBits 32
    let (high, t) := wordsAndBits n k t
    (low + 2 ^ 32 * high, t)

/-- The next number of `k` bits; none of the generator is used for no bits. -/
def bits (k : Nat) (t : Twister) : Nat × Twister :=
  if k = 0 then (0, t) else wordsAndBits ((k - 1) / 32) (k - 32 * ((k - 1) / 32)) t

/-- The first of at most so many draws of `k` bits that is below `n`, or zero. -/
def firstBelow (n k : Nat) : Nat → Twister → Nat × Twister
  | 0, t => (0, t)
  | tries + 1, t =>
    let (r, t) := t.bits k
    if r < n then (r, t) else firstBelow n k tries t

/-- The number of draws after which the search for a number below a bound is given up. Every second
draw succeeds, so no run comes near it. -/
def tries : Nat := 100000

/-- A number below `n`. -/
def below (n : Nat) (t : Twister) : Nat × Twister :=
  if n = 0 then (0, t) else firstBelow n (n.log2 + 1) tries t

/-- Numbers of `k` bits, one for each of `n` draws. -/
def draws (k : Nat) : Nat → Twister → List Nat
  | 0, _ => []
  | n + 1, t => let (r, t) := t.bits k; r :: draws k n t

end Twister

end OpeningHand
