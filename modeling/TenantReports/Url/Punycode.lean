/-!
Host names in ASCII letters. The characters beyond ASCII are written behind the others, in the
order of their code points, each as the distance from the one before it; distances are numbers in
base 36 whose digits have thresholds, which adapt to the distances seen so far.
-/

namespace TenantReports.Punycode

/-- Letters stand for the first 26 digits, and digits for the rest. -/
def digitChar (n : Nat) : Char :=
  if n < 26 then Char.ofNat (0x61 + n) else Char.ofNat (0x30 + n - 26)

/-- The threshold of the digit at position `k`, between 1 and 26. -/
def threshold (k bias : Nat) : Nat := min 26 (max 1 (k - bias))

/-- Cuts a distance down to the range of one digit and counts the positions it took. -/
def scaled (distance k : Nat) : Nat × Nat :=
  if 455 < distance then scaled (distance / 35) (k + 36) else (distance, k)
termination_by distance
decreasing_by exact Nat.div_lt_self (by omega) (by omega)

/-- The bias after a distance, once `count` characters are written. -/
def adapted (distance count : Nat) (isFirst : Bool) : Nat :=
  let damped := if isFirst then distance / 700 else distance / 2
  let (distance, k) := scaled (damped + damped / count) 0
  k + 36 * distance / (distance + 38)

/-- The digits of a distance, the least first. -/
def distanceDigits (bias k n : Nat) : List Char :=
  let t := threshold k bias
  if n < t then [digitChar n]
  else digitChar (t + (n - t) % (36 - t)) :: distanceDigits bias (k + 36) ((n - t) / (36 - t))
termination_by n
decreasing_by
  have h : 1 ≤ threshold k bias := by unfold threshold; omega
  exact Nat.lt_of_le_of_lt (Nat.div_le_self _ _) (by omega)

structure State where
  written : List Char
  distance : Nat
  bias : Nat
  count : Nat

/-- Passes one character of the name: those below the current code point make the distance
longer, and the code point itself is written. -/
def State.pass (basicCount code : Nat) (s : State) (c : Char) : State :=
  if c.toNat < code then { s with distance := s.distance + 1 }
  else if c.toNat = code then
    { written := s.written ++ distanceDigits s.bias 36 s.distance
      distance := 0
      bias := adapted s.distance (s.count + 1) (s.count == basicCount)
      count := s.count + 1 }
  else s

/-- Writes all characters with the given code points, which are in order; `next` is the first code
point that may come. -/
def writeCodes (name : List Char) (basicCount : Nat) : List Nat → (next : Nat) → State → State
  | [], _, s => s
  | code :: codes, next, s =>
      let s := { s with distance := s.distance + (code - next) * (s.count + 1) }
      let s := name.foldl (State.pass basicCount code) s
      writeCodes name basicCount codes (code + 1) { s with distance := s.distance + 1 }

def isBasic (c : Char) : Bool := c.toNat < 0x80

/-- A name in ASCII. -/
def encode (name : List Char) : List Char :=
  let basic := name.filter isBasic
  let codes := (((name.filter (!isBasic ·)).map Char.toNat).mergeSort).eraseDups
  let start : State := ⟨[], 0, 72, basic.length⟩
  let written := (writeCodes name basic.length codes 0x80 start).written
  (if basic = [] then [] else basic ++ ['-']) ++ written

end TenantReports.Punycode
