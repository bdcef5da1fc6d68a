import TxServer.Sharding.Object

/-!
# Balances

`lib.rs` makes `tx_common::Balance`, a signed 64-bit integer, the value the engine changes
by diffs: `Updateable::update` accumulates two diffs with `+=`, `Diffable::diff` adds a diff
to a balance with `+`, and `check` accepts a balance that is not negative. A balance is a
64-bit word here, read as a two's complement integer by `BitVec.toInt`, and the additions
wrap modulo `2^64`, as `i64` addition does in a release build. A build with overflow checks
panics instead, at an addition where `Balance.addOverflows` holds.

All the additions are those of one ring, so accumulating the diffs first and applying them
one at a time give the same balance: the exact sum, reduced into the range of `i64`. The
check agrees with the sign of the exact sum whenever that sum fits in `i64`, whatever the
partial sums do on the way. Outside that range it need not: a deposit onto `i64::MAX` is
refused, and two withdrawals of `i64::MIN` from an empty account pass.
-/

namespace TxServer

/-- Modelled from the spec: `tx_common::Balance`, a signed 64-bit integer. -/
abbrev Balance := BitVec 64

/-- `BalanceDiff`: a signed change to a balance. -/
structure BalanceDiff where
  /-- The change. -/
  change : Balance
  deriving DecidableEq, Repr

/-- `NegativeBalance`: the error of `check`, with the balance it refused. -/
structure NegativeBalance where
  /-- The refused balance. -/
  balance : Balance
  deriving DecidableEq, Repr

/-- `Updateable::update` for `BalanceDiff`: `*inner += other`, an `i64` addition. -/
def BalanceDiff.update (self other : BalanceDiff) : BalanceDiff :=
  ⟨self.change + other.change⟩

namespace Balance

/-- `Diffable::diff` for `Balance`: `self + change`, an `i64` addition. -/
def diff (self : Balance) (diff : BalanceDiff) : Balance := self + diff.change

/-- `Diffable::check` for `Balance` in the build without `cfg(test)`: the balance when
`self >= 0` as an `i64`, `NegativeBalance` otherwise. -/
def check (self : Balance) : Except NegativeBalance Balance :=
  if BitVec.sle 0 self then .ok self else .error ⟨self⟩

/-- Whether the `i64` addition of `left` and `right` overflows: their exact sum lies outside
`[i64::MIN, i64::MAX]`. -/
def addOverflows (left right : Balance) : Bool :=
  !decide (-2 ^ 63 ≤ left.toInt + right.toInt ∧ left.toInt + right.toInt < 2 ^ 63)

/-- `Diffable::diff` for `Balance` in a build with overflow checks: `self + change` panics,
`none` here, where the `i64` addition overflows. -/
def diff? (self : Balance) (diff : BalanceDiff) : Option Balance :=
  if addOverflows self diff.change then none else some (self + diff.change)

end Balance

/-- The integer a balance reaches by a sequence of diffs when nothing wraps. -/
def exactBalance (balance : Balance) (diffs : List BalanceDiff) : Int :=
  balance.toInt + (diffs.map fun diff => diff.change.toInt).sum

namespace Balance

/-- `check` accepts a balance exactly when it is not negative as an `i64`. -/
theorem check_eq_ok_iff (balance : Balance) :
    balance.check = .ok balance ↔ 0 ≤ balance.toInt := by
  by_cases nonnegative : 0 ≤ balance.toInt <;> simp [check, BitVec.sle, nonnegative]

/-- Applying diffs one at a time adds their sum. -/
theorem foldl_diff (balance : Balance) (diffs : List BalanceDiff) :
    diffs.foldl diff balance = balance + (diffs.map BalanceDiff.change).sum := by
  induction diffs generalizing balance with
  | nil => simp
  | cons first rest ih => simp [ih, diff, BitVec.add_assoc]

/-- Accumulating diffs with `update` adds their changes. -/
theorem change_foldl_update (first : BalanceDiff) (rest : List BalanceDiff) :
    (rest.foldl BalanceDiff.update first).change =
      first.change + (rest.map BalanceDiff.change).sum := by
  induction rest generalizing first with
  | nil => simp
  | cons next rest ih => simp [ih, BalanceDiff.update, BitVec.add_assoc]

/-- A sum of words, read as an integer, is the exact sum reduced into the range of `i64`. -/
theorem toInt_sum (words : List Balance) :
    words.sum.toInt = ((words.map BitVec.toInt).sum).bmod (2 ^ 64) := by
  induction words with
  | nil => rfl
  | cons word words ih => simp [BitVec.toInt_add, ih]

/-- An integer in the range of `i64` is its own reduction. -/
theorem bmod_of_fits {exact : Int} (lo : -2 ^ 63 ≤ exact) (hi : exact < 2 ^ 63) :
    exact.bmod (2 ^ 64) = exact := by
  rw [Int.bmod_def]
  split <;> omega

/-- A transaction's diffs accumulated with `update` and applied with `diff` give the balance
that applying them one at a time gives. Read as an `i64`, that balance is the exact integer
reduced modulo `2^64` into the range of `i64`, so `check` accepts it exactly when the reduction
is not negative, and exactly when the exact integer is not negative once that integer fits. -/
theorem diffs_apply_modulo_word (balance : Balance) (first : BalanceDiff)
    (rest : List BalanceDiff) :
    balance.diff (rest.foldl BalanceDiff.update first) = (first :: rest).foldl diff balance ∧
      ((first :: rest).foldl diff balance).toInt =
        (exactBalance balance (first :: rest)).bmod (2 ^ 64) ∧
      (((first :: rest).foldl diff balance).check = .ok ((first :: rest).foldl diff balance) ↔
        0 ≤ (exactBalance balance (first :: rest)).bmod (2 ^ 64)) ∧
      (-2 ^ 63 ≤ exactBalance balance (first :: rest) →
        exactBalance balance (first :: rest) < 2 ^ 63 →
        (((first :: rest).foldl diff balance).check = .ok ((first :: rest).foldl diff balance) ↔
          0 ≤ exactBalance balance (first :: rest))) := by
  have reduced : ((first :: rest).foldl diff balance).toInt =
      (exactBalance balance (first :: rest)).bmod (2 ^ 64) := by
    rw [foldl_diff, ← List.sum_cons, toInt_sum]
    simp [exactBalance, Function.comp_def]
  refine ⟨?_, reduced, ?_, fun lo hi => ?_⟩
  · simp [foldl_diff, change_foldl_update, diff, BitVec.add_assoc]
  · rw [check_eq_ok_iff, reduced]
  · rw [check_eq_ok_iff, reduced, bmod_of_fits lo hi]

/-- Ten, less three, plus five: the exact balance fits, and `check` accepts it. -/
theorem small_diffs_apply_exactly :
    exactBalance 10 [⟨-3⟩, ⟨5⟩] = 12 ∧
      ((([⟨-3⟩, ⟨5⟩] : List BalanceDiff).foldl diff 10).check =
          .ok (([⟨-3⟩, ⟨5⟩] : List BalanceDiff).foldl diff 10) ↔
        0 ≤ exactBalance 10 [⟨-3⟩, ⟨5⟩]) :=
  ⟨by decide, (diffs_apply_modulo_word 10 ⟨-3⟩ [⟨5⟩]).2.2.2 (by decide) (by decide)⟩

/-- A deposit of one onto `i64::MAX` overflows to `i64::MIN`, which `check` refuses though the
exact balance is positive; two withdrawals of `i64::MIN` from an empty balance wrap back to
zero, which `check` accepts though the exact balance is `-2^64`. -/
theorem balance_wraps_past_check :
    addOverflows 0x7FFFFFFFFFFFFFFF 1 = true ∧
      exactBalance 0x7FFFFFFFFFFFFFFF [⟨1⟩] = 2 ^ 63 ∧
      (diff 0x7FFFFFFFFFFFFFFF ⟨1⟩).check = .error ⟨0x8000000000000000⟩ ∧
      addOverflows (diff 0 ⟨0x8000000000000000⟩) 0x8000000000000000 = true ∧
      exactBalance 0 [⟨0x8000000000000000⟩, ⟨0x8000000000000000⟩] = -2 ^ 64 ∧
      (([⟨0x8000000000000000⟩, ⟨0x8000000000000000⟩] : List BalanceDiff).foldl
        diff 0).check = .ok 0 :=
  ⟨by decide, by decide, rfl, by decide, by decide, rfl⟩

/-- An addition that does not overflow is exact. -/
theorem toInt_add_of_fits {left right : Balance} (fits : addOverflows left right = false) :
    (left + right).toInt = left.toInt + right.toInt := by
  simp only [addOverflows, Bool.not_eq_false', decide_eq_true_eq] at fits
  rw [BitVec.toInt_add, bmod_of_fits fits.1 fits.2]

/-- The checked addition returns exactly when it does not overflow, and then what `diff`
returns. -/
theorem diff?_eq_some {self next : Balance} {change : BalanceDiff} :
    self.diff? change = some next ↔
      addOverflows self change.change = false ∧ next = self.diff change := by
  unfold diff? diff
  cases addOverflows self change.change <;> simp [eq_comm]

/-- In a build with overflow checks, a run of diffs that does not panic ends where the release
build ends, at the exact balance, so `check` accepts it exactly when the exact balance is not
negative. -/
theorem checked_diffs_exact (balance result : Balance) (diffs : List BalanceDiff)
    (completed : diffs.foldlM diff? balance = some result) :
    result = diffs.foldl diff balance ∧ result.toInt = exactBalance balance diffs ∧
      (result.check = .ok result ↔ 0 ≤ exactBalance balance diffs) := by
  suffices release :
      result = diffs.foldl diff balance ∧ result.toInt = exactBalance balance diffs by
    rw [check_eq_ok_iff, release.2]
    exact ⟨release.1, rfl, Iff.rfl⟩
  induction diffs generalizing balance with
  | nil =>
    obtain rfl : balance = result := Option.some.inj completed
    simp [exactBalance]
  | cons first rest ih =>
    cases stepped : balance.diff? first with
    | none => simp [stepped] at completed
    | some next =>
      rw [List.foldlM_cons, stepped, Option.bind_eq_bind, Option.some_bind] at completed
      obtain ⟨fits, rfl⟩ := diff?_eq_some.mp stepped
      obtain ⟨same, exact⟩ := ih (balance.diff first) completed
      refine ⟨same, ?_⟩
      rw [exact, exactBalance, exactBalance, diff, toInt_add_of_fits fits]
      simp only [List.map_cons, List.sum_cons]
      omega

/-- Ten, less three, plus five does not overflow, and ends at the exact twelve. -/
theorem small_diffs_do_not_panic :
    ([⟨-3⟩, ⟨5⟩] : List BalanceDiff).foldlM diff? 10 = some 12 ∧
      (12 = ([⟨-3⟩, ⟨5⟩] : List BalanceDiff).foldl diff 10 ∧
        (12 : Balance).toInt = exactBalance 10 [⟨-3⟩, ⟨5⟩] ∧
        ((12 : Balance).check = .ok 12 ↔ 0 ≤ exactBalance 10 [⟨-3⟩, ⟨5⟩])) :=
  ⟨by decide, checked_diffs_exact 10 12 [⟨-3⟩, ⟨5⟩] (by decide)⟩

end Balance

end TxServer
