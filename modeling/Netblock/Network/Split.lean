import Netblock.Network.Block
/-!
# Splitting a network

A network is split into a power of two of equal blocks, at least 2 and at most 2^30. The blocks
are a chain: each one is the block next to the one before it, from which its mark is handed on.
-/

set_option autoImplicit false

namespace Netblock.Network

private def chainOnto (done : List Network) : Nat → Network → List Network
  | 0, _ => done.reverse
  | count + 1, block =>
      match block.nextBlock? with
      | none => (block :: done).reverse
      | some next => chainOnto (block :: done) count next

/-- The blocks from a first one upwards, at most `count` of them. The chain ends early where the
address space does. -/
def chain (count : Nat) (first : Network) : List Network :=
  chainOnto [] count first

private theorem chainOnto_eq (done : List Network) (count : Nat) (block : Network) :
    chainOnto done count block = done.reverse ++ chain count block := by
  induction count generalizing done block with
  | zero => simp [chainOnto, chain]
  | succ count ih =>
      simp only [chain, chainOnto]
      cases block.nextBlock? with
      | none => simp
      | some next => simp [ih]

@[simp]
theorem chain_zero (first : Network) : chain 0 first = [] := rfl

theorem chain_succ (count : Nat) (first : Network) :
    chain (count + 1) first =
      first :: (first.nextBlock?.map (chain count)).getD [] := by
  rw [chain, chainOnto]
  cases first.nextBlock? with
  | none => rfl
  | some next => simp [chainOnto_eq]

/-- The blocks of `network` whose prefix is longer by `power`. -/
def splitByPower (network : Network) (power : Nat) : Except Error (List Network) :=
  if power = 0 ∨ 30 < power then
    .error (.splitPower network power)
  else if network.width < network.prefixLen + power then
    .error (.tooFewHostBits network power)
  else
    .ok (chain (2 ^ power) ⟨network.base, network.prefixLen + power⟩)

def splitByCount (network : Network) (count : Nat) : Except Error (List Network) :=
  if count < 2 then
    .error (.splitCountTooLow network count)
  else if 2 ^ 30 < count then
    .error (.splitCountTooHigh network count)
  else if ¬ count.isPowerOfTwo then
    .error (.splitCountNotPowerOfTwo network count)
  else
    network.splitByPower count.log2

/-- The two halves of a network. -/
def split (network : Network) : Except Error (List Network) :=
  network.splitByPower 1

end Netblock.Network
