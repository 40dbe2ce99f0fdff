import Netblock.Proofs.PrintedBlocks
/-!
# Refused splits

A power may be out of range or ask for more host bits than there are. A count may be too low, too
high or between two powers of two, and otherwise stands for a power. There is no other refusal, and
what is not refused is split. A run reports on the network before it splits it, so that a refusal
follows the whole report and no block.
-/

set_option autoImplicit false

namespace Netblock

namespace Network

/-- The error that refuses a split by a power. -/
inductive RefusesPower (network : Network) (power : Nat) : Error → Prop where
  | outOfRange (beyond : power = 0 ∨ 31 ≤ power) :
      RefusesPower network power (.splitPower network power)
  | tooFewHostBits (positive : 1 ≤ power) (bounded : power ≤ 30)
      (tooLong : network.width < network.prefixLen + power) :
      RefusesPower network power (.tooFewHostBits network power)

/-- The error that refuses a split by a count. A count that is a power of two within the range is
refused for want of host bits only. -/
inductive RefusesCount (network : Network) : Nat → Error → Prop where
  | tooLow {count : Nat} (low : count < 2) :
      RefusesCount network count (.splitCountTooLow network count)
  | tooHigh {count : Nat} (high : 2 ^ 30 < count) :
      RefusesCount network count (.splitCountTooHigh network count)
  | notPowerOfTwo {count : Nat} (notLow : 2 ≤ count) (notHigh : count ≤ 2 ^ 30)
      (between : ∀ power, count ≠ 2 ^ power) :
      RefusesCount network count (.splitCountNotPowerOfTwo network count)
  | tooFewHostBits {power : Nat} (positive : 1 ≤ power) (bounded : power ≤ 30)
      (tooLong : network.width < network.prefixLen + power) :
      RefusesCount network (2 ^ power) (.tooFewHostBits network power)

variable {network : Network} {power count : Nat} {error : Error}

theorem splitByPower_eq_error_iff :
    network.splitByPower power = .error error ↔ network.RefusesPower power error := by
  constructor
  · intro refused
    unfold splitByPower at refused
    split at refused
    · next beyond =>
        cases refused
        exact .outOfRange beyond
    · next within =>
        split at refused
        · next tooLong =>
            cases refused
            exact .tooFewHostBits (by omega) (by omega) tooLong
        · cases refused
  · intro refused
    cases refused with
    | outOfRange beyond => exact if_pos beyond
    | tooFewHostBits positive bounded tooLong =>
        unfold splitByPower
        rw [if_neg (by omega), if_pos tooLong]

/-- The counts within the range that are powers of two are those of the powers within the range. -/
theorem two_pow_in_range_iff : 2 ≤ 2 ^ power ∧ 2 ^ power ≤ 2 ^ 30 ↔ 1 ≤ power ∧ power ≤ 30 :=
  and_congr (Nat.pow_le_pow_iff_right (by decide : 1 < 2) : 2 ^ 1 ≤ 2 ^ power ↔ 1 ≤ power)
    (Nat.pow_le_pow_iff_right (by decide : 1 < 2))

theorem splitByCount_two_pow (positive : 1 ≤ power) (bounded : power ≤ 30) :
    network.splitByCount (2 ^ power) = network.splitByPower power := by
  obtain ⟨notLow, notHigh⟩ := two_pow_in_range_iff.mpr ⟨positive, bounded⟩
  have isPower : (2 ^ power).isPowerOfTwo := ⟨power, rfl⟩
  unfold splitByCount
  rw [if_neg (Nat.not_lt.mpr notLow), if_neg (Nat.not_lt.mpr notHigh),
    if_neg (not_not.mpr isPower), Nat.log2_two_pow]

theorem exists_splitByCount_eq_ok_iff :
    (∃ blocks, network.splitByCount count = .ok blocks) ↔
      ∃ power, count = 2 ^ power ∧ 1 ≤ power ∧ power ≤ 30 ∧
        network.prefixLen + power ≤ network.width := by
  constructor
  · intro accepted
    obtain ⟨blocks, accepted⟩ := accepted
    obtain ⟨power, count_eq, accepted⟩ := exists_power_of_splitByCount accepted
    exact ⟨power, count_eq, exists_splitByPower_eq_ok_iff.mp ⟨blocks, accepted⟩⟩
  · intro fitting
    obtain ⟨power, rfl, positive, bounded, fits⟩ := fitting
    rw [splitByCount_two_pow positive bounded]
    exact ⟨_, splitByPower_eq_ok positive bounded fits⟩

theorem refusesCount_of_splitByCount (refused : network.splitByCount count = .error error) :
    network.RefusesCount count error := by
  have unfolded := refused
  unfold splitByCount at unfolded
  split at unfolded
  · next low =>
      cases unfolded
      exact .tooLow low
  · next notLow =>
      split at unfolded
      · next high =>
          cases unfolded
          exact .tooHigh high
      · next notHigh =>
          have inRange : 2 ≤ count ∧ count ≤ 2 ^ 30 := by omega
          split at unfolded
          · next between =>
              cases unfolded
              exact .notPowerOfTwo inRange.1 inRange.2 (not_exists.mp between)
          · next isPower =>
              obtain ⟨power, rfl⟩ := not_not.mp isPower
              obtain ⟨positive, bounded⟩ := two_pow_in_range_iff.mp inRange
              rw [splitByCount_two_pow positive bounded, splitByPower_eq_error_iff] at refused
              cases refused with
              | outOfRange beyond => omega
              | tooFewHostBits _ _ tooLong => exact .tooFewHostBits positive bounded tooLong

theorem RefusesCount.splitByCount_eq (refused : network.RefusesCount count error) :
    network.splitByCount count = .error error := by
  cases refused with
  | tooLow low => exact if_pos low
  | tooHigh high =>
      unfold splitByCount
      rw [if_neg (by omega), if_pos high]
  | notPowerOfTwo notLow notHigh between =>
      have notPower : ¬ count.isPowerOfTwo := not_exists.mpr between
      unfold splitByCount
      rw [if_neg (Nat.not_lt.mpr notLow), if_neg (Nat.not_lt.mpr notHigh), if_pos notPower]
  | tooFewHostBits positive bounded tooLong =>
      rw [splitByCount_two_pow positive bounded, splitByPower_eq_error_iff]
      exact .tooFewHostBits positive bounded tooLong

theorem splitByCount_eq_error_iff :
    network.splitByCount count = .error error ↔ network.RefusesCount count error :=
  ⟨refusesCount_of_splitByCount, RefusesCount.splitByCount_eq⟩

/-- A power or a count splits the network, or one error says why it does not. -/
structure SplitsUnlessRefused (network : Network) : Prop where
  power_ok_iff : ∀ power, (∃ blocks, network.splitByPower power = .ok blocks) ↔
    1 ≤ power ∧ power ≤ 30 ∧ network.prefixLen + power ≤ network.width
  power_error_iff : ∀ power error,
    network.splitByPower power = .error error ↔ network.RefusesPower power error
  count_ok_iff : ∀ count, (∃ blocks, network.splitByCount count = .ok blocks) ↔
    ∃ power, count = 2 ^ power ∧ 1 ≤ power ∧ power ≤ 30 ∧
      network.prefixLen + power ≤ network.width
  count_eq_power : ∀ power, 1 ≤ power → power ≤ 30 →
    network.splitByCount (2 ^ power) = network.splitByPower power
  count_error_iff : ∀ count error,
    network.splitByCount count = .error error ↔ network.RefusesCount count error
  /-- A count is judged before it becomes a power, which is then within the range. -/
  count_ne_splitPower : ∀ count other power,
    network.splitByCount count ≠ .error (.splitPower other power)

end Network

namespace CommandLine

variable {readOperands? : OperandReader} {arguments : List String} {literal : String}
  {network : Network} {count : Nat}

/-- What a run prints and how it ends if the network is to be split into `count` blocks. -/
structure ReportsSplit (network : Network) (count : Nat) (output? : Option Output) : Prop where
  refused : ∀ error, network.RefusesCount count error →
    output? = some ⟨network.report, some error⟩
  split : (∀ error, ¬ network.RefusesCount count error) →
    ∃ blocks, network.splitByCount count = .ok blocks ∧ blocks.length = count ∧
      output? = some ⟨network.report ++ blocks.map Network.text, none⟩
  exitCode_eq_one_iff : exitCode output? = 1 ↔ ∃ error, network.RefusesCount count error

theorem run_of_refusesCount {error : Error} (refused : network.RefusesCount count error) :
    Request.run ⟨network, some count⟩ = ⟨network.report, some error⟩ := by
  simp only [Request.run, refused.splitByCount_eq]

theorem exists_run_eq_of_not_refusesCount (valid : network.Valid)
    (accepted : ∀ error, ¬ network.RefusesCount count error) :
    ∃ blocks, network.splitByCount count = .ok blocks ∧ blocks.length = count ∧
      Request.run ⟨network, some count⟩ = ⟨network.report ++ blocks.map Network.text, none⟩ := by
  cases outcome : network.splitByCount count with
  | error error => exact absurd (Network.splitByCount_eq_error_iff.mp outcome) (accepted error)
  | ok blocks =>
      obtain ⟨power, rfl, split⟩ := Network.exists_power_of_splitByCount outcome
      exact ⟨blocks, rfl, (valid.tiles_of_splitByPower split).length_eq,
        by simp only [Request.run, outcome]⟩

theorem reportsSplit_run (valid : network.Valid) :
    ReportsSplit network count (some (Request.run ⟨network, some count⟩)) where
  refused := fun _ refused => congrArg some (run_of_refusesCount refused)
  split := by
    intro accepted
    obtain ⟨blocks, split, length_eq, ran⟩ := exists_run_eq_of_not_refusesCount valid accepted
    exact ⟨blocks, split, length_eq, congrArg some ran⟩
  exitCode_eq_one_iff := by
    constructor
    · intro failed
      by_contra accepted
      obtain ⟨_, _, _, ran⟩ := exists_run_eq_of_not_refusesCount valid (not_exists.mp accepted)
      rw [ran] at failed
      cases failed
    · rintro ⟨error, refused⟩
      rw [run_of_refusesCount refused]
      rfl

theorem runWith?_eq_report (given : readOperands? arguments = some [literal])
    (parsed : Network.parse literal = .ok network) :
    runWith? readOperands? arguments = some ⟨network.report, none⟩ := by
  have toOption_eq : (Network.parse literal).toOption = some network := by rw [parsed]; rfl
  rw [runWith?_of_operands given, Request.ofOperands?, toOption_eq]
  rfl

end CommandLine

open CommandLine

/-- A network is split where nothing refuses it. A run for it prints six lines, and then the blocks
of the split or none at all, with any reader of operands. -/
theorem splitsUnlessRefused (network : Network) :
    network.SplitsUnlessRefused ∧ network.report.length = 6 ∧
      ∀ (readOperands? : OperandReader) arguments literal, Network.parse literal = .ok network →
        (readOperands? arguments = some [literal] →
          runWith? readOperands? arguments = some ⟨network.report, none⟩) ∧
        ∀ countText count, readOperands? arguments = some [literal, countText] →
          readCount? countText.toList = some count →
          ReportsSplit network count (runWith? readOperands? arguments) := by
  refine ⟨⟨?_, ?_, ?_, ?_, ?_, ?_⟩, network.length_report, ?_⟩
  · exact fun power => Network.exists_splitByPower_eq_ok_iff
  · exact fun power error => Network.splitByPower_eq_error_iff
  · exact fun count => Network.exists_splitByCount_eq_ok_iff
  · exact fun power => Network.splitByCount_two_pow
  · exact fun count error => Network.splitByCount_eq_error_iff
  · intro count other power refused
    cases Network.splitByCount_eq_error_iff.mp refused
  · intro readOperands? arguments literal parsed
    refine ⟨fun given => runWith?_eq_report given parsed, ?_⟩
    intro countText count given counted
    rw [runWith?_eq given parsed, counted]
    exact reportsSplit_run (Network.parse_valid parsed)

/-- `192.168.107.0/24` has no 512 blocks: the report stands alone, and the status is 1. -/
theorem splitsUnlessRefused_tooFewHostBits :
    operands? ["192.168.107/24", "512"] = some ["192.168.107/24", "512"] ∧
      Network.parse "192.168.107/24" = .ok ⟨.v4 0xC0A86B00, 24⟩ ∧
      readCount? "512".toList = some 512 ∧
      run? ["192.168.107/24", "512"] = some ⟨Network.report ⟨.v4 0xC0A86B00, 24⟩,
        some (.tooFewHostBits ⟨.v4 0xC0A86B00, 24⟩ 9)⟩ ∧
      exitCode (run? ["192.168.107/24", "512"]) = 1 ∧
      Network.splitByPower ⟨.v4 0xC0A86B00, 24⟩ (2 ^ 32 - 1) =
        .error (.splitPower ⟨.v4 0xC0A86B00, 24⟩ (2 ^ 32 - 1)) := by
  have given : operands? ["192.168.107/24", "512"] = some ["192.168.107/24", "512"] := by decide
  have parsed : Network.parse "192.168.107/24" = .ok ⟨.v4 0xC0A86B00, 24⟩ := by decide
  have counted : readCount? "512".toList = some 512 := by decide
  obtain ⟨splits, _, runs⟩ := splitsUnlessRefused ⟨.v4 0xC0A86B00, 24⟩
  have reports := (runs operands? _ _ parsed).2 _ _ given counted
  have refused : Network.RefusesCount ⟨.v4 0xC0A86B00, 24⟩ (2 ^ 9) (.tooFewHostBits _ 9) :=
    .tooFewHostBits (by decide) (by decide) (by decide)
  refine ⟨given, parsed, counted, reports.refused _ refused,
    reports.exitCode_eq_one_iff.mpr ⟨_, refused⟩, ?_⟩
  exact (splits.power_error_iff _ _).mpr (.outOfRange (by decide))

end Netblock
