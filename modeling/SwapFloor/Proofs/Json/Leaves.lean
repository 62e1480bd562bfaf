import SwapFloor.Json.Leaves
import SwapFloor.Proofs.Decimal.Reading
import SwapFloor.Proofs.Time.Reading

/-!
# Values read back from JSON

What is written for a text, a truth value, a number, a decimal, an instant or a named constant is
read as the same value; so are the values in an optional place and in a list.
-/

namespace SwapFloor.Json

variable {α β γ : Type}

/-! ## Texts and numbers -/

@[simp] theorem string_str (s : String) : string (.str s) = .ok s := rfl

@[simp] theorem boolean_bool (b : Bool) : boolean (.bool b) = .ok b := rfl

@[simp] theorem any_eq (j : Json) : any j = .ok j := rfl

theorem integer_nat {n bound : Nat} (h : n < bound) (expected : String) :
    integer 0 bound expected (.nat n) = .ok n :=
  integer_int ⟨Int.natCast_nonneg n, Int.ofNat_lt.2 h⟩

theorem count_nat {n : Nat} (h : n < 2 ^ 64) (expected : String) :
    count expected (.nat n) = .ok n := by
  have hread := integer_nat h expected
  unfold count
  rw [show ((2 : Int) ^ 64) = ((2 ^ 64 : Nat) : Int) from rfl, hread]
  exact congrArg Except.ok (Int.toNat_natCast n)

@[simp] theorem uint64As_nat (expected : String) (n : UInt64) :
    uint64As expected (.nat n.toNat) = .ok n := uint64As_toNat expected n

@[simp] theorem uint64_nat (n : UInt64) : uint64 (.nat n.toNat) = .ok n := uint64As_toNat "u64" n

@[simp] theorem uint32_nat (n : UInt32) : uint32 (.nat n.toNat) = .ok n := by
  have hread := integer_nat n.toNat_lt "u32"
  unfold uint32
  rw [show ((2 : Int) ^ 32) = ((2 ^ 32 : Nat) : Int) from rfl, hread]
  exact congrArg Except.ok (UInt32.ofNat_toNat)

@[simp] theorem uint8_nat (n : UInt8) : uint8 (.nat n.toNat) = .ok n := by
  have hread := integer_nat n.toNat_lt "u8"
  unfold uint8
  rw [show ((2 : Int) ^ 8) = ((2 ^ 8 : Nat) : Int) from rfl, hread]
  exact congrArg Except.ok (UInt8.ofNat_toNat)

@[simp] theorem int64_int (n : Int64) : int64 (.int n.toInt) = .ok n := by
  unfold int64
  rw [integer_int ⟨n.le_toInt, n.toInt_lt⟩]
  exact congrArg Except.ok n.ofInt_toInt

@[simp] theorem decimal_ofDecimal (d : Decimal) : decimal (ofDecimal d) = .ok d.plain := by
  unfold decimal ofDecimal
  dsimp only
  rw [d.ofText?_text]

theorem instant_ofInstant {t : Instant} (h : Time.IsShown t) : instant (ofInstant t) = .ok t := by
  unfold instant ofInstant
  dsimp only
  rw [Time.read_text h]

/-- A finite double is written as a number. -/
theorem double_ofDouble {x : Float} (h : (Binary.parts? x).isSome = true) :
    double (ofDouble x) = .ok x := by
  unfold ofDouble
  rw [if_pos h]
  rfl

/-! ## Optional values -/

theorem option_of_ne_null {d : Decoder α} {j : Json} {a : α} (hj : j ≠ .null)
    (h : d j = .ok a) : option d j = .ok (some a) := by
  unfold option
  split
  · exact absurd rfl hj
  · rw [h]
    rfl

theorem ofDecimal_ne_null (d : Decimal) : ofDecimal d ≠ .null := Json.noConfusion

theorem ofInstant_ne_null (t : Instant) : ofInstant t ≠ .null := Json.noConfusion

theorem option_ofOption {d : Decoder β} {f : α → Json} {g : α → β} {o : Option α}
    (hf : ∀ a ∈ o, f a ≠ .null) (h : ∀ a ∈ o, d (f a) = .ok (g a)) :
    option d (ofOption f o) = .ok (o.map g) := by
  cases o with
  | none => rfl
  | some a => exact option_of_ne_null (hf a rfl) (h a rfl)

@[simp] theorem option_optStr (o : Option String) : option string (optStr o) = .ok o := by
  cases o with
  | none => rfl
  | some s => rfl

@[simp] theorem option_ofDecimal (o : Option Decimal) :
    option decimal (ofOption ofDecimal o) = .ok (o.map Decimal.plain) :=
  option_ofOption (fun d _ => ofDecimal_ne_null d) fun d _ => decimal_ofDecimal d

theorem option_ofOption_self {d : Decoder α} {f : α → Json} {o : Option α}
    (hf : ∀ a ∈ o, f a ≠ .null) (h : ∀ a ∈ o, d (f a) = .ok a) :
    option d (ofOption f o) = .ok o := by
  rw [option_ofOption (g := id) hf h, Option.map_id]
  rfl

theorem option_ofInstant {o : Option Instant} (h : ∀ t ∈ o, Time.IsShown t) :
    option instant (ofOption ofInstant o) = .ok o :=
  option_ofOption_self (fun t _ => ofInstant_ne_null t) fun t ht => instant_ofInstant (h t ht)

theorem option_ofDouble {o : Option Float} (h : ∀ x ∈ o, (Binary.parts? x).isSome = true) :
    option double (ofOption ofDouble o) = .ok o := by
  have hnumber : ∀ x ∈ o, ofDouble x ≠ .null := by
    intro x hx
    unfold ofDouble
    rw [if_pos (h x hx)]
    exact Json.noConfusion
  exact option_ofOption_self hnumber fun x hx => double_ofDouble (h x hx)

/-! ## Lists -/

theorem mapM_map_eq_ok {ε : Type} {d : β → Except ε γ} {f : α → β} {g : α → γ} {xs : List α}
    (h : ∀ x ∈ xs, d (f x) = .ok (g x)) : (xs.map f).mapM d = .ok (xs.map g) := by
  induction xs with
  | nil => rfl
  | cons x xs ih =>
    have hrest := ih fun y hy => h y (List.mem_cons_of_mem _ hy)
    rw [List.map_cons, List.mapM_cons, h x List.mem_cons_self, hrest]
    rfl

theorem list_arr {d : Decoder β} {f : α → Json} {g : α → β} {xs : List α}
    (h : ∀ x ∈ xs, d (f x) = .ok (g x)) : list d (.arr (xs.map f)) = .ok (xs.map g) :=
  mapM_map_eq_ok h

theorem list_arr_self {d : Decoder α} {f : α → Json} {xs : List α}
    (h : ∀ x ∈ xs, d (f x) = .ok x) : list d (.arr (xs.map f)) = .ok xs := by
  rw [list_arr (g := id) h, List.map_id]

@[simp] theorem list_string (ss : List String) : list string (.arr (ss.map .str)) = .ok ss :=
  list_arr_self fun s _ => string_str s

@[simp] theorem list_uint64 (ns : List UInt64) :
    list uint64 (.arr (ns.map fun n => .nat n.toNat)) = .ok ns :=
  list_arr_self fun n _ => uint64_nat n

end SwapFloor.Json
