/-!
# CoinToss.Random.Twister

The Mersenne twister of 19937 bits.

A state is 624 words of 32 bits and the number of words already given out; when all are, the
state is twisted.  A seed of any size is mixed into the state word by word.  Every step is
arithmetic on words modulo `2 ^ 32`, which `UInt32` does by itself.

* `Twister.ofSeed` — the state of a seed;
* `Twister.unit` — a double of 53 random bits in `[0, 1)`.
-/

namespace CoinToss

/-- A state of the generator. -/
structure Twister where
  words : Array UInt32
  next : Nat

namespace Twister

/-- How many words a state has. -/
def size : Nat := 624

/-- The word at a place of an array. -/
def wordAt (a : Array UInt32) (i : Nat) : UInt32 := a.getD i 0

/-- The state filled from one word. -/
def fill (seed : UInt32) : Array UInt32 :=
  (List.range (size - 1)).foldl (fun a i =>
    let last := wordAt a i
    a.push ((1812433253 : UInt32) * (last ^^^ (last >>> 30)) + UInt32.ofNat (i + 1))) #[seed]

/-- The last word carried to the front when mixing has gone round. -/
def wrap (a : Array UInt32) (i : Nat) : Array UInt32 × Nat :=
  if i < size then (a, i) else (a.setIfInBounds 0 (wordAt a (size - 1)), 1)

/-- One step of mixing the key in, at place `i` with word `j` of the key. -/
def mixKey (key : Array UInt32) (s : Array UInt32 × Nat × Nat) : Array UInt32 × Nat × Nat :=
  let (a, i, j) := s
  let last := wordAt a (i - 1)
  let word := (wordAt a i ^^^ ((last ^^^ (last >>> 30)) * 1664525)) + wordAt key j + UInt32.ofNat j
  let (a, i) := wrap (a.setIfInBounds i word) (i + 1)
  (a, i, if j + 1 < key.size then j + 1 else 0)

/-- One step of the second round of mixing. -/
def mixPlace (s : Array UInt32 × Nat) : Array UInt32 × Nat :=
  let (a, i) := s
  let last := wordAt a (i - 1)
  let word := (wordAt a i ^^^ ((last ^^^ (last >>> 30)) * 1566083941)) - UInt32.ofNat i
  wrap (a.setIfInBounds i word) (i + 1)

/-- The words of a number, the least one first; at least one. -/
def keyWords (n : Nat) : Array UInt32 :=
  (List.range (n.log2 / 32 + 1)).foldl
    (fun a i => a.push (UInt32.ofNat (n / Nat.pow 2 (32 * i) % Nat.pow 2 32))) #[]

/-- The state of a seed; its sign does not count. -/
def ofSeed (seed : Int) : Twister :=
  let key := keyWords seed.natAbs
  let (a, i, _) := (List.range (max size key.size)).foldl (fun s _ => mixKey key s)
    (fill 19650218, 1, 0)
  let (a, _) := (List.range (size - 1)).foldl (fun s _ => mixPlace s) (a, i)
  ⟨a.setIfInBounds 0 0x80000000, size⟩

/-- The word that replaces the one at place `i` in a twist. -/
def twistWord (a : Array UInt32) (i : Nat) : UInt32 :=
  let y := (wordAt a i &&& 0x80000000) ||| (wordAt a ((i + 1) % size) &&& 0x7fffffff)
  wordAt a ((i + 397) % size) ^^^ (y >>> 1) ^^^ (if y &&& 1 = 0 then 0 else 0x9908b0df)

/-- Replaces every word, in order. -/
def twist (a : Array UInt32) : Array UInt32 :=
  (List.range size).foldl (fun a i => a.setIfInBounds i (twistWord a i)) a

/-- The bits of a word spread out. -/
def temper (y : UInt32) : UInt32 :=
  let y := y ^^^ (y >>> 11)
  let y := y ^^^ ((y <<< 7) &&& 0x9d2c5680)
  let y := y ^^^ ((y <<< 15) &&& 0xefc60000)
  y ^^^ (y >>> 18)

/-- The next word. -/
def word (t : Twister) : UInt32 × Twister :=
  let t := if t.next < size then t else ⟨twist t.words, 0⟩
  (temper (wordAt t.words t.next), ⟨t.words, t.next + 1⟩)

/-- A double in `[0, 1)` from 27 and 26 bits of two words. -/
def unit (t : Twister) : Float × Twister :=
  let (a, t) := t.word
  let (b, t) := t.word
  let bits := (a >>> 5).toNat * 67108864 + (b >>> 6).toNat
  (bits.toUInt64.toFloat / 9007199254740992, t)

end Twister

end CoinToss
