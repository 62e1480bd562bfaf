/-!
# Bytes as letters

Base64 without padding. Every sequence of bytes has exactly one text; a text with other
characters, of an impossible length, or with stray bits at its end is refused.
-/

namespace SwapFloor.Crypto.Base64

/-- The letter of six bits. -/
def letter (n : Nat) : Char :=
  if n < 26 then Char.ofNat (65 + n)
  else if n < 52 then Char.ofNat (71 + n)
  else if n < 62 then Char.ofNat (n - 4)
  else if n = 62 then '+'
  else '/'

/-- The six bits of a letter. -/
def sixBits? (c : Char) : Option Nat :=
  if 'A' ≤ c ∧ c ≤ 'Z' then some (c.toNat - 65)
  else if 'a' ≤ c ∧ c ≤ 'z' then some (c.toNat - 71)
  else if '0' ≤ c ∧ c ≤ '9' then some (c.toNat + 4)
  else if c = '+' then some 62
  else if c = '/' then some 63
  else none

/-- The letters of bytes. -/
def encode : List UInt8 → List Char
  | a :: b :: c :: rest =>
    let n := a.toNat * 65536 + b.toNat * 256 + c.toNat
    letter (n / 262144) :: letter (n / 4096 % 64) :: letter (n / 64 % 64) :: letter (n % 64)
      :: encode rest
  | [a, b] =>
    let n := a.toNat * 1024 + b.toNat * 4
    [letter (n / 4096), letter (n / 64 % 64), letter (n % 64)]
  | [a] => [letter (a.toNat / 4), letter (a.toNat * 16 % 64)]
  | [] => []

/-- The bytes of groups of six bits. -/
def join : List Nat → Option (List UInt8)
  | a :: b :: c :: d :: rest =>
    let n := a * 262144 + b * 4096 + c * 64 + d
    (join rest).map fun bytes =>
      UInt8.ofNat (n / 65536) :: UInt8.ofNat (n / 256) :: UInt8.ofNat n :: bytes
  | [a, b, c] =>
    if c % 4 = 0 then
      let n := a * 1024 + b * 16 + c / 4
      some [UInt8.ofNat (n / 256), UInt8.ofNat n]
    else none
  | [a, b] => if b % 16 = 0 then some [UInt8.ofNat (a * 4 + b / 16)] else none
  | [_] => none
  | [] => some []

/-- The bytes of letters. -/
def decode? (cs : List Char) : Option (List UInt8) := (cs.mapM sixBits?).bind join

/-- Three bytes take four letters, and one or two that are left over two or three. -/
theorem length_encode (bytes : List UInt8) :
    (encode bytes).length = (bytes.length * 4 + 2) / 3 := by
  fun_induction encode bytes with
  | case1 a b c rest n ih =>
    simp only [List.length_cons, ih]
    omega
  | case2 => simp
  | case3 => simp
  | case4 => rfl

theorem sixBits?_letter {n : Nat} (h : n < 64) : sixBits? (letter n) = some n := by
  have : ∀ m : Fin 64, sixBits? (letter m.val) = some m.val := by decide
  exact this ⟨n, h⟩

theorem joined_sixes (n : Nat) :
    n / 262144 * 262144 + n / 4096 % 64 * 4096 + n / 64 % 64 * 64 + n % 64 = n := by
  have h1 : n / 4096 / 64 = n / 262144 := by rw [Nat.div_div_eq_div_mul]
  have h2 : n / 64 / 64 = n / 4096 := by rw [Nat.div_div_eq_div_mul]
  have h3 := Nat.div_add_mod (n / 4096) 64
  have h4 := Nat.div_add_mod (n / 64) 64
  have h5 := Nat.div_add_mod n 64
  omega

/-- What is written is read. -/
theorem decode?_encode (bytes : List UInt8) : decode? (encode bytes) = some bytes := by
  unfold decode?
  fun_induction encode bytes with
  | case1 a b c rest n ih =>
    have ha := a.toNat_lt
    have hb := b.toNat_lt
    have hc := c.toNat_lt
    obtain ⟨ns, hn, hj⟩ := Option.bind_eq_some_iff.1 ih
    have hn0 : n = a.toNat * 65536 + b.toNat * 256 + c.toNat := rfl
    have h1 : n / 262144 < 64 := by omega
    clear_value n
    have e := joined_sixes n
    have e1 : UInt8.ofNat (n / 65536) = a := by
      rw [show n / 65536 = a.toNat by omega, UInt8.ofNat_toNat]
    have e2 : UInt8.ofNat (n / 256) = b := by
      apply UInt8.toNat_inj.1
      simp only [UInt8.toNat_ofNat']
      omega
    have e3 : UInt8.ofNat n = c := by
      apply UInt8.toNat_inj.1
      simp only [UInt8.toNat_ofNat']
      omega
    simp only [List.mapM_cons, sixBits?_letter h1, sixBits?_letter (Nat.mod_lt _ (by decide)), hn,
      bind, pure, Option.bind, join, hj, Option.map_some, e, e1, e2, e3]
  | case2 a b n =>
    have ha := a.toNat_lt
    have hb := b.toNat_lt
    have hn0 : n = a.toNat * 1024 + b.toNat * 4 := rfl
    clear_value n
    have h1 : n / 4096 < 64 := by omega
    have hz : n % 64 % 4 = 0 := by omega
    have e1 : UInt8.ofNat ((n / 4096 * 1024 + n / 64 % 64 * 16 + n % 64 / 4) / 256) = a := by
      rw [show (n / 4096 * 1024 + n / 64 % 64 * 16 + n % 64 / 4) / 256 = a.toNat by omega,
        UInt8.ofNat_toNat]
    have e2 : UInt8.ofNat (n / 4096 * 1024 + n / 64 % 64 * 16 + n % 64 / 4) = b := by
      apply UInt8.toNat_inj.1
      simp only [UInt8.toNat_ofNat']
      omega
    simp only [List.mapM_cons, List.mapM_nil, sixBits?_letter h1,
      sixBits?_letter (Nat.mod_lt _ (by decide)), bind, pure, Option.bind, join, hz, if_true, e1,
      e2]
  | case3 a =>
    have ha := a.toNat_lt
    have h1 : a.toNat / 4 < 64 := by omega
    have h2 : a.toNat * 16 % 64 % 16 = 0 := by omega
    have e : UInt8.ofNat (a.toNat / 4 * 4 + a.toNat * 16 % 64 / 16) = a := by
      rw [show a.toNat / 4 * 4 + a.toNat * 16 % 64 / 16 = a.toNat by omega, UInt8.ofNat_toNat]
    simp only [List.mapM_cons, List.mapM_nil, sixBits?_letter h1,
      sixBits?_letter (Nat.mod_lt _ (by decide)), bind, pure, Option.bind, join, h2, if_true, e]
  | case4 => rfl

end SwapFloor.Crypto.Base64
