import Netblock.Network.Block
/-!
# Merging networks

Merging undoes a split: a power of two of blocks, each next to the one before it, become the
network that they fill. The whole address space is never the result.
-/

set_option autoImplicit false

namespace Netblock.Network

/-- Each network has to be followed by the next one of the list. `index` is the place of the
second network, and `count` the length of the whole list. -/
def checkChain (count : Nat) : Nat → List Network → Except Error Unit
  | index, network :: following :: rest =>
      if network.family ≠ following.family then
        .error (.mixedFamilies network.base following.base)
      else if ¬ network.IsFollowedBy following then
        .error (.mergeOrder count index)
      else
        checkChain count (index + 1) (following :: rest)
  | _, _ => .ok ()

/-- The number of networks is judged first, then their order from the front, then the length of
the merged prefix, then whether the first network starts it. The mark is that of the last. -/
def merge : List Network → Except Error Network
  | [] => .error (.mergeCount 0)
  | first :: rest =>
      let count := rest.length + 1
      let power := count.log2
      let prefixLen := first.prefixLen - power
      if count < 2 ∨ ¬ count.isPowerOfTwo then
        .error (.mergeCount count)
      else do
        checkChain count 1 (first :: rest)
        if first.prefixLen ≤ power then
          .error (.mergeAnyAddress count)
        else if ¬ first.base.IsAligned prefixLen then
          .error (.mergeOrder count 0)
        else
          .ok ⟨first.base.withMark (rest.getLastD first).base.mark, prefixLen⟩

end Netblock.Network
