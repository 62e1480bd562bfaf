/-!
# Punycode

Letters outside ASCII written in ASCII: first the ASCII letters, then, behind a hyphen, numbers
that say which character comes in where. Each number is a run of digits; what a digit is worth
depends on a bias that follows the size of the numbers before.

Main statement: a number takes at least one digit (`length_of_readDelta?`), so that reading ends.
-/

namespace SwapFloor.Url.Punycode

/-- The value of a digit: letters come first, then `0` to `9`. -/
def digit? (c : Char) : Option Nat :=
  if 'a' ≤ c ∧ c ≤ 'z' then some (c.toNat - 97)
  else if 'A' ≤ c ∧ c ≤ 'Z' then some (c.toNat - 65)
  else if '0' ≤ c ∧ c ≤ '9' then some (c.toNat - 22)
  else none

/-- From which value on a digit at place `k` is not the last one. -/
def threshold (k bias : Nat) : Nat := min (max (k - bias) 1) 26

/-- The end of `adapt`: scales `delta` down and counts the steps in `k`. -/
def settle (k delta : Nat) : Nat :=
  if 455 < delta then settle (k + 36) (delta / 35) else k + 36 * delta / (delta + 38)
termination_by delta
decreasing_by omega

/-- The bias after a number, when there are `count` characters. -/
def adapt (delta count : Nat) (first : Bool) : Nat :=
  let delta := if first then delta / 700 else delta / 2
  settle 0 (delta + delta / count)

/-- Reads a number from place `k` on; `weight` is the worth of the next digit. -/
def readDelta? (bias k weight sum : Nat) : List Char → Option (Nat × List Char)
  | [] => none
  | c :: rest =>
    match digit? c with
    | none => none
    | some d =>
      let sum := sum + d * weight
      let t := threshold k bias
      if d < t then some (sum, rest) else readDelta? bias (k + 36) (weight * (36 - t)) sum rest

theorem length_of_readDelta? {bias k weight sum n : Nat} {cs rest : List Char}
    (h : readDelta? bias k weight sum cs = some (n, rest)) : rest.length < cs.length := by
  induction cs generalizing k weight sum with
  | nil => simp [readDelta?] at h
  | cons c cs ih =>
    unfold readDelta? at h
    split at h
    · simp at h
    · dsimp only at h
      split at h
      · simp only [Option.some.injEq, Prod.mk.injEq] at h
        simp [h.2]
      · have := ih h
        simp only [List.length_cons]
        omega

/-- A code point that is a character. -/
def isScalar (n : Nat) : Bool := n < 0x110000 && !(0xD800 ≤ n && n < 0xE000)

/-- Puts the characters of the numbers in `cs` into `out`. The last one that was put in is `n`,
at the place before `i`. -/
def insertAll (n i bias : Nat) (first : Bool) (out : List Char) (cs : List Char) :
    Option (List Char) :=
  if cs.isEmpty then some out
  else
    match _read : readDelta? bias 36 1 0 cs with
    | none => none
    | some (delta, rest) =>
      let count := out.length + 1
      let n := n + (i + delta) / count
      let i := (i + delta) % count
      if isScalar n then
        insertAll n (i + 1) (adapt delta count first) false
          (out.take i ++ Char.ofNat n :: out.drop i) rest
      else none
termination_by cs.length
decreasing_by exact length_of_readDelta? _read

/-- The letters in front of the last hyphen, and what comes behind it. -/
def splitAtHyphen (cs : List Char) : List Char × List Char :=
  let tail := (cs.reverse.takeWhile (· != '-')).reverse
  let base := cs.take (cs.length - tail.length - 1)
  if base.isEmpty then ([], cs) else (base, tail)

/-- The characters of a text. -/
def decode? (cs : List Char) : Option (List Char) :=
  let (base, numbers) := splitAtHyphen cs
  insertAll 128 0 72 true base numbers

end SwapFloor.Url.Punycode
