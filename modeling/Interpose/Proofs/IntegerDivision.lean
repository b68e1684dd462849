import Interpose.Proofs.Walks
/-!
# Integer arithmetic

Ints and longs stand for numbers. Every integer operator computes with the numbers and wraps what
comes of it around at the width of the result: thirty-two bits if both operands are ints, sixty-four
otherwise. The exact operation may leave the width in the middle of a computation; wrapping around at
one width throughout cannot tell.

This is what makes division come out even where its quotient does not fit. The smallest number divided
by minus one is the smallest number again, and still the quotient times the divisor, plus the
remainder, is the dividend.

## Main definitions

* `Value.integer?`: the number of an int or a long
* `IntOp.exact`: an operator on numbers
* `IntOp.Gives`, `IntOp.Refuses`: what an instruction does on two operands

## Main results

* `IntOp.exists_result`: operators compute with numbers
* `IntOp.gives_of_result`, `IntOp.refuses_zero`: what the instructions do
* `IntOp.quotient_and_remainder`: the law of division
-/

namespace Interpose

namespace Value

/-- The number of an int or a long. -/
def integer? (v : Value) : Option Int := v.long?.map Int64.toInt

/-- Whether a value is an int. -/
def isInt : Value → Bool
  | int _ => true
  | _ => false

/-- How many numbers there are at the width of what comes of two integers. -/
def resultSize (a b : Value) : Nat := if a.isInt && b.isInt then Int32.size else Int64.size

@[simp] theorem integer?_int (n : Int32) : (int n).integer? = some n.toInt := by
  simp [integer?, long?]

@[simp] theorem integer?_long (n : Int64) : (long n).integer? = some n.toInt := rfl

theorem integer?_eq_some {v : Value} {x : Int} (h : v.integer? = some x) :
    (∃ n : Int32, v = int n ∧ n.toInt = x) ∨ ∃ n : Int64, v = long n ∧ n.toInt = x := by
  cases v with
  | int n => exact .inl ⟨n, rfl, Option.some.inj ((integer?_int n).symm.trans h)⟩
  | long n => exact .inr ⟨n, rfl, Option.some.inj ((integer?_long n).symm.trans h)⟩
  | _ => cases h

/-- Integers of one number are equal, whatever their widths. -/
theorem equal_of_integer? {v w : Value} {x : Int} (hv : v.integer? = some x)
    (hw : w.integer? = some x) : v.equal w = true := by
  rcases integer?_eq_some hv with ⟨n, rfl, hn⟩ | ⟨n, rfl, hn⟩ <;>
    rcases integer?_eq_some hw with ⟨k, rfl, hk⟩ | ⟨k, rfl, hk⟩ <;>
    simp [equal, ← Int32.toInt_inj, ← Int64.toInt_inj, hn, hk]

/-- A number is not changed by wrapping it around at the width of a result that it is an operand
of. -/
theorem bmod_resultSize {a : Value} {x : Int} (h : a.integer? = some x) (b : Value) :
    x.bmod (resultSize a b) = x := by
  rcases integer?_eq_some h with ⟨n, rfl, rfl⟩ | ⟨n, rfl, rfl⟩
  · unfold resultSize
    split
    · exact Int32.toInt_bmod n
    · rw [← Int32.toInt_toInt64]
      exact Int64.toInt_bmod n.toInt64
  · exact Int64.toInt_bmod n

end Value

namespace IntOp

/-- The operation on numbers. Division truncates. -/
def exact : IntOp → Int → Int → Int
  | add, x, y => x + y
  | sub, x, y => x - y
  | mul, x, y => x * y
  | div, x, y => x.tdiv y
  | mod, x, y => x.tmod y

/-- What an operator computes of two integers. -/
def result? (op : IntOp) : Value → Value → Option Value
  | .int x, .int y => some (.int (op.int x y))
  | a, b => do
    let x ← a.long?
    let y ← b.long?
    some (.long (op.long x y))

theorem toInt_int (op : IntOp) (x y : Int32) :
    (op.int x y).toInt = (op.exact x.toInt y.toInt).bmod Int32.size := by
  cases op with
  | add => exact Int32.toInt_add x y
  | sub => exact Int32.toInt_sub x y
  | mul => exact Int32.toInt_mul x y
  | div => exact Int32.toInt_div x y
  | mod =>
    show (x % y).toInt = (x.toInt.tmod y.toInt).bmod Int32.size
    rw [← Int32.toInt_mod]
    exact (Int32.toInt_bmod (x % y)).symm

theorem toInt_long (op : IntOp) (x y : Int64) :
    (op.long x y).toInt = (op.exact x.toInt y.toInt).bmod Int64.size := by
  cases op with
  | add => exact Int64.toInt_add x y
  | sub => exact Int64.toInt_sub x y
  | mul => exact Int64.toInt_mul x y
  | div => exact Int64.toInt_div x y
  | mod =>
    show (x % y).toInt = (x.toInt.tmod y.toInt).bmod Int64.size
    rw [← Int64.toInt_mod]
    exact (Int64.toInt_bmod (x % y)).symm

/-- **Operators compute with numbers.** What comes of two integers is an int exactly if both are, and
its number is that of the exact operation, wrapped around at its width. -/
theorem exists_result (op : IntOp) {a b : Value} {x y : Int} (ha : a.integer? = some x)
    (hb : b.integer? = some y) :
    ∃ v, op.result? a b = some v ∧ v.isInt = (a.isInt && b.isInt) ∧
      v.integer? = some ((op.exact x y).bmod (Value.resultSize a b)) := by
  rcases Value.integer?_eq_some ha with ⟨n, rfl, rfl⟩ | ⟨n, rfl, rfl⟩ <;>
    rcases Value.integer?_eq_some hb with ⟨k, rfl, rfl⟩ | ⟨k, rfl, rfl⟩
  · exact ⟨_, rfl, rfl, by rw [Value.integer?_int, toInt_int]; rfl⟩
  · exact ⟨_, rfl, rfl, by rw [Value.integer?_long, toInt_long, Int32.toInt_toInt64]; rfl⟩
  · exact ⟨_, rfl, rfl, by rw [Value.integer?_long, toInt_long, Int32.toInt_toInt64]; rfl⟩
  · exact ⟨_, rfl, rfl, by rw [Value.integer?_long, toInt_long]; rfl⟩

/-! ### The instructions -/

/-- On two operands, the instruction leaves a value in their place. Nothing else is changed. -/
def Gives (op : IntOp) (a b v : Value) : Prop :=
  ∀ (execute : Execute) (handlers : Handlers) (f : Frame) (rest : List Value) (m : Machine),
    f.stack = b :: a :: rest → Act.step execute handlers (.simple (.arith op)) f m =
      some (.ok (none, { f with stack := v :: rest }), m)

/-- On two operands, the instruction fails and leaves the machine as it was. -/
def Refuses (op : IntOp) (a b : Value) (e : VmError) : Prop :=
  ∀ (execute : Execute) (handlers : Handlers) (f : Frame) (rest : List Value) (m : Machine),
    f.stack = b :: a :: rest → Act.step execute handlers (.simple (.arith op)) f m =
      some (.error e, m)

/-- The failure of a division by zero. -/
def byZero : VmError := .thrown (.text "ArithmeticException: / by zero")

/-- Looking at an integer as a long keeps its number. -/
theorem exists_asLong {v : Value} {x : Int} (h : v.integer? = some x) :
    ∃ n : Int64, n.toInt = x ∧
      ∀ f m, (liftM (Run.asLong v) : Act Int64) f m = some (.ok (n, f), m) := by
  obtain ⟨n, hn, hx⟩ := Option.map_eq_some_iff.1 h
  refine ⟨n, hx, fun f m => Act.lift_of_ok ?_⟩
  unfold Run.asLong
  rw [hn]
  rfl

theorem refuses_zero {op : IntOp} (hop : op.divides = true) {a b : Value}
    (hb : b.integer? = some 0) : op.Refuses a b byZero := by
  rintro execute handlers ⟨c, p, locals, _⟩ rest m rfl
  obtain ⟨n, hn, htest⟩ := exists_asLong hb
  have hzero : n = 0 := Int64.toInt_inj.1 (hn.trans Int64.toInt_zero.symm)
  have hfail : Act.integerOp op ⟨c, p, locals, b :: a :: rest⟩ m = some (.error byZero, m) := by
    unfold Act.integerOp
    rw [if_pos hop]
    refine (Act.bind_of_ok (a := b) rfl).trans ((Act.bind_of_ok (htest _ m)).trans ?_)
    rw [if_pos hzero]
    rfl
  exact Act.bind_of_error hfail

/-- An operator that divides looks at its divisor first; all of them then compute. -/
theorem gives_of_result {op : IntOp} {a b v : Value} {x y : Int} (ha : a.integer? = some x)
    (hb : b.integer? = some y) (hv : op.result? a b = some v) (hy : op.divides = true → y ≠ 0) :
    op.Gives a b v := by
  rintro execute handlers ⟨c, p, locals, _⟩ rest m rfl
  have hoperate : Act.integerOp op ⟨c, p, locals, b :: a :: rest⟩ m =
      some (.ok ((), ⟨c, p, locals, v :: rest⟩), m) := by
    unfold Act.integerOp
    split
    case' isTrue hop =>
      obtain ⟨n, hn, htest⟩ := exists_asLong hb
      have hne : n ≠ 0 := fun hzero => hy hop (by rw [← hn, hzero, Int64.toInt_zero])
      refine (Act.bind_of_ok (a := b) rfl).trans ((Act.bind_of_ok (htest _ m)).trans ?_)
      rw [if_neg hne]
    -- the divisor may be divided by, and what is computed depends on the widths
    all_goals
      rcases Value.integer?_eq_some ha with ⟨n, rfl, -⟩ | ⟨n, rfl, -⟩ <;>
        rcases Value.integer?_eq_some hb with ⟨k, rfl, -⟩ | ⟨k, rfl, -⟩ <;>
        cases hv <;> rfl
  exact (Act.bind_of_ok hoperate).trans rfl

/-! ### Remainders -/

/-- A remainder is zero or has the sign of the dividend. -/
theorem tmod_eq_zero_or_sign_eq (x y : Int) : x.tmod y = 0 ∨ (x.tmod y).sign = x.sign := by
  have hsign := Int.sign_tmod x y
  split at hsign
  · exact .inl (Int.sign_eq_zero_iff_zero.1 hsign)
  · exact .inr hsign

/-- A remainder is no further from zero than the dividend, so it has room wherever that has. -/
theorem bmod_tmod {n : Nat} {x : Int} (h : x.bmod n = x) (y : Int) :
    (x.tmod y).bmod n = x.tmod y := by
  rcases Nat.eq_zero_or_pos n with rfl | hn
  · exact Int.bmod_zero
  have hlow := Int.le_bmod (x := x) hn
  have hhigh := Int.bmod_lt (x := x) hn
  rw [h] at hlow hhigh
  have habs : (x.tmod y).natAbs ≤ x.natAbs := by
    rw [Int.natAbs_tmod]
    exact Nat.mod_le _ _
  have hside : 0 ≤ x ∧ 0 ≤ x.tmod y ∨ x ≤ 0 ∧ x.tmod y ≤ 0 := by
    rcases Int.le_total 0 x with hx | hx
    · exact .inl ⟨hx, Int.tmod_nonneg y hx⟩
    · have hneg := Int.tmod_nonneg y (Int.neg_nonneg_of_nonpos hx)
      rw [Int.neg_tmod] at hneg
      exact .inr ⟨hx, Int.neg_nonneg.1 hneg⟩
  exact Int.bmod_eq_of_le (by omega) (by omega)

/-! ### The law of division -/

/-- **The law of division.** Dividing an int or a long by zero, of either width, fails with the same
text for quotient and remainder. By any other divisor both instructions succeed, with an int exactly if
both operands are ints. The quotient is the truncated one, wrapped around at the width of the result.
The remainder is zero or has the sign of the dividend, and is nearer to zero than the divisor. And what
the instructions for multiplying and adding put together from quotient, divisor and remainder is equal
to the dividend, whether or not the quotient had to be wrapped around. -/
theorem quotient_and_remainder {a b : Value} {x y : Int} (ha : a.integer? = some x)
    (hb : b.integer? = some y) :
    (y = 0 → div.Refuses a b byZero ∧ mod.Refuses a b byZero) ∧
    (y ≠ 0 → ∃ q r p s z, div.Gives a b q ∧ mod.Gives a b r ∧ mul.Gives q b p ∧ add.Gives p r s ∧
      s.equal a = true ∧
      q.isInt = (a.isInt && b.isInt) ∧ r.isInt = (a.isInt && b.isInt) ∧
      q.integer? = some ((x.tdiv y).bmod (Value.resultSize a b)) ∧
      r.integer? = some z ∧ (z = 0 ∨ z.sign = x.sign) ∧ z.natAbs < y.natAbs) := by
  refine ⟨fun hy => ?_, fun hy => ?_⟩
  · subst hy
    exact ⟨refuses_zero rfl hb, refuses_zero rfl hb⟩
  obtain ⟨q, hq, hqint, hqnumber⟩ := exists_result div ha hb
  obtain ⟨r, hr, hrint, hrnumber⟩ := exists_result mod ha hb
  obtain ⟨p, hp, hpint, hpnumber⟩ := exists_result mul hqnumber hb
  obtain ⟨s, hs, -, hsnumber⟩ := exists_result add hpnumber hrnumber
  -- the width is the same all along
  have hsize : Value.resultSize q b = Value.resultSize a b := by
    unfold Value.resultSize
    rw [hqint, Bool.and_assoc, Bool.and_self]
  have hsize' : Value.resultSize p r = Value.resultSize a b := by
    unfold Value.resultSize
    rw [hpint, hrint, hqint]
    cases a.isInt <;> cases b.isInt <;> rfl
  have hx := Value.bmod_resultSize ha b
  rw [hsize] at hpnumber hsnumber
  rw [hsize'] at hsnumber
  have hback : s.integer? = some x := by
    rw [hsnumber]
    simp only [exact, Int.bmod_mul_bmod, Int.bmod_add_bmod, Int.add_bmod_bmod,
      Int.tdiv_mul_add_tmod, hx]
  have hz : r.integer? = some (x.tmod y) := by
    rw [hrnumber]
    exact congrArg some (bmod_tmod hx y)
  refine ⟨q, r, p, s, x.tmod y, gives_of_result ha hb hq fun _ => hy,
    gives_of_result ha hb hr fun _ => hy, gives_of_result hqnumber hb hp nofun,
    gives_of_result hpnumber hrnumber hs nofun, Value.equal_of_integer? hback ha, hqint, hrint,
    hqnumber, hz, tmod_eq_zero_or_sign_eq x y, ?_⟩
  rw [Int.natAbs_tmod]
  exact Nat.mod_lt _ (Int.natAbs_pos.2 hy)

/-- The one quotient of two ints that is no int, and a divisor of zero that is wider than the
dividend. -/
theorem smallest_divided :
    (Value.int (-2147483648)).integer? = some (-2147483648) ∧ (Value.int (-1)).integer? = some (-1) ∧
    (Value.long 0).integer? = some 0 ∧
    (∃ q r p s z, div.Gives (.int (-2147483648)) (.int (-1)) q ∧
      mod.Gives (.int (-2147483648)) (.int (-1)) r ∧ mul.Gives q (.int (-1)) p ∧ add.Gives p r s ∧
      s.equal (.int (-2147483648)) = true ∧ q.isInt = true ∧ q.integer? = some (-2147483648) ∧
      r.integer? = some z ∧ z.natAbs < 1) ∧
    div.Refuses (.int (-2147483648)) (.long 0) byZero := by
  have ha : (Value.int (-2147483648)).integer? = some (-2147483648) := by decide
  have hb : (Value.int (-1)).integer? = some (-1) := by decide
  have hzero : (Value.long 0).integer? = some 0 := by decide
  obtain ⟨q, r, p, s, z, hq, hr, hp, hs, hback, hqint, -, hqnumber, hz, -, hlt⟩ :=
    (quotient_and_remainder ha hb).2 (by decide)
  exact ⟨ha, hb, hzero, ⟨q, r, p, s, z, hq, hr, hp, hs, hback, hqint, hqnumber, hz, hlt⟩,
    ((quotient_and_remainder ha hzero).1 rfl).1⟩

end IntOp

end Interpose
