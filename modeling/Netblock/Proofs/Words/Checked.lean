import Netblock.Positional
/-!
# Checked words

Arithmetic on words of a fixed width and writes into arrays of a fixed length. A step that its
width or its array has no room for is a fault, and nothing follows it. What an operation reports
as an error of its own is no fault: it is an outcome that has been settled.
-/

set_option autoImplicit false

namespace Netblock.Words

inductive Fault where
  | addition
  | subtraction
  | shift
  | index
  | slice
  | tooWide
  deriving DecidableEq

abbrev Checked := Except Fault

section Arithmetic

variable {width : Nat}

def add (left right : BitVec width) : Checked (BitVec width) :=
  if left.uaddOverflow right then .error .addition else .ok (left + right)

def sub (left right : BitVec width) : Checked (BitVec width) :=
  if left.usubOverflow right then .error .subtraction else .ok (left - right)

def shiftLeft (word : BitVec width) (distance : Nat) : Checked (BitVec width) :=
  if distance < width then .ok (word <<< distance) else .error .shift

variable {left right : Nat}

theorem add_ofNat (leftFits : left < 2 ^ width) (rightFits : right < 2 ^ width) :
    add (BitVec.ofNat width left) (BitVec.ofNat width right) =
      if left + right < 2 ^ width then .ok (BitVec.ofNat width (left + right))
      else .error .addition := by
  simp only [add, BitVec.uaddOverflow, BitVec.toNat_ofNat, Nat.mod_eq_of_lt leftFits,
    Nat.mod_eq_of_lt rightFits, BitVec.ofNat_add, decide_eq_true_eq, ge_iff_le]
  split
  · rw [if_neg (by omega)]
  · rw [if_pos (by omega)]

theorem add_ofNat_eq_ok (fits : left + right < 2 ^ width) :
    add (BitVec.ofNat width left) (BitVec.ofNat width right) =
      .ok (BitVec.ofNat width (left + right)) := by
  rw [add_ofNat (by omega) (by omega), if_pos fits]

theorem sub_ofNat (leftFits : left < 2 ^ width) (rightFits : right < 2 ^ width) :
    sub (BitVec.ofNat width left) (BitVec.ofNat width right) =
      if right ≤ left then .ok (BitVec.ofNat width (left - right))
      else .error .subtraction := by
  simp only [sub, BitVec.usubOverflow, BitVec.toNat_ofNat, Nat.mod_eq_of_lt leftFits,
    Nat.mod_eq_of_lt rightFits, decide_eq_true_eq]
  split
  · rw [if_neg (by omega)]
  · rw [if_pos (by omega), BitVec.ofNat_sub_ofNat_of_le _ _ rightFits (by omega)]

theorem sub_ofNat_eq_ok (fits : left < 2 ^ width) (atMost : right ≤ left) :
    sub (BitVec.ofNat width left) (BitVec.ofNat width right) =
      .ok (BitVec.ofNat width (left - right)) := by
  rw [sub_ofNat fits (by omega), if_pos atMost]

theorem exists_ofNat (word : BitVec width) :
    ∃ value, value < 2 ^ width ∧ word = BitVec.ofNat width value :=
  ⟨word.toNat, word.isLt, by rw [BitVec.ofNat_toNat, BitVec.setWidth_eq]⟩

theorem one_shiftLeft {distance : Nat} (fits : distance < width) :
    shiftLeft (BitVec.ofNat width 1) distance = .ok (BitVec.ofNat width (2 ^ distance)) := by
  have oneFits : 1 < 2 ^ width := Nat.one_lt_two_pow (by omega)
  have shifted : BitVec.ofNat width 1 <<< distance = BitVec.ofNat width (2 ^ distance) := by
    apply BitVec.eq_of_toNat_eq
    rw [BitVec.toNat_shiftLeft, BitVec.toNat_ofNat, BitVec.toNat_ofNat, Nat.mod_eq_of_lt oneFits,
      Nat.shiftLeft_eq, Nat.one_mul]
  rw [shiftLeft, if_pos fits, shifted]

end Arithmetic

section Arrays

variable {α : Type}

def store (array : List α) (index : Nat) (value : α) : Checked (List α) :=
  if index < array.length then .ok (array.set index value) else .error .index

/-- The places from `start` up to, and without, `stop` are overwritten. There have to be as many
values as places. -/
def copy (array : List α) (start stop : Nat) (values : List α) : Checked (List α) :=
  if start ≤ stop ∧ stop ≤ array.length ∧ start + values.length = stop then
    .ok (array.take start ++ values ++ array.drop stop)
  else
    .error .slice

theorem store_append (done rest : List α) (old value : α) :
    store (done ++ old :: rest) done.length value = .ok (done ++ value :: rest) := by
  simp [store]

theorem copy_replicate (before : List α) (old : α) {values : List α} {free : Nat}
    (room : values.length ≤ free) :
    copy (before ++ List.replicate free old) before.length (before.length + values.length) values =
      .ok (before ++ values ++ List.replicate (free - values.length) old) := by
  have inRange : before.length + values.length ≤ (before ++ List.replicate free old).length := by
    rw [List.length_append, List.length_replicate]
    omega
  rw [copy, if_pos ⟨Nat.le_add_right _ _, inRange, rfl⟩, List.take_left, List.drop_append,
    List.drop_eq_nil_of_le (Nat.le_add_right _ _), Nat.add_sub_cancel_left, List.nil_append,
    List.drop_replicate]

end Arrays

section Outcomes

variable {ε α β : Type}

@[simp]
theorem ok_bind (value : α) (next : α → Checked β) : (Except.ok value >>= next) = next value :=
  rfl

/-- An outcome that is reached without a fault. -/
def settled (outcome : Except ε α) : ExceptT ε Checked α :=
  ExceptT.mk (.ok outcome)

@[simp]
theorem settled_ok_bind (value : α) (next : α → ExceptT ε Checked β) :
    settled (.ok value) >>= next = next value :=
  rfl

@[simp]
theorem lift_ok_bind (value : α) (next : α → ExceptT ε Checked β) :
    liftM (Except.ok value : Checked α) >>= next = next value :=
  rfl

/-- Steps that reach their outcomes without a fault do so one after the other. -/
theorem settled_bind {outcome : Except ε α} {next : α → ExceptT ε Checked β}
    {after : α → Except ε β}
    (agree : ∀ value, outcome = .ok value → next value = settled (after value)) :
    settled outcome >>= next = settled (outcome >>= after) := by
  cases outcome with
  | error error => rfl
  | ok value => exact agree value rfl

theorem adapt_settled {δ : Type} (explain : ε → δ) (outcome : Except ε α) :
    (settled outcome).adapt explain = settled (outcome.mapError explain) := by
  cases outcome <;> rfl

end Outcomes

end Netblock.Words
