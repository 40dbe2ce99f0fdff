import Netblock.Positional
/-!
# Octets

Addresses in network order: lists of eight-bit words, most significant first.
-/

set_option autoImplicit false

namespace Netblock

abbrev Octet := BitVec 8

namespace Octets

/-- The last `len` octets of a value, most significant first. -/
def ofNat (len value : Nat) : List Octet :=
  (Positional.encode 256 len value).map (BitVec.ofNat 8)

/-- The value that octets spell, most significant first. -/
def toNat (octets : List Octet) : Nat :=
  Positional.decode 256 (octets.map BitVec.toNat)

@[simp]
theorem length_ofNat (len value : Nat) : (ofNat len value).length = len := by
  simp [ofNat]

private theorem map_toNat_ofNat (len value : Nat) :
    (ofNat len value).map BitVec.toNat = Positional.encode 256 len value := by
  rw [ofNat, List.map_map]
  refine (List.map_congr_left fun digit member => ?_).trans (List.map_id _)
  have below : digit < 256 := Positional.lt_of_mem_encode (by decide) member
  simp [Nat.mod_eq_of_lt below]

@[simp]
theorem toNat_ofNat (len value : Nat) : toNat (ofNat len value) = value % 256 ^ len := by
  rw [toNat, map_toNat_ofNat, Positional.decode_encode]

theorem ofNat_toNat (octets : List Octet) : ofNat octets.length (toNat octets) = octets := by
  rw [ofNat, toNat, Positional.encode_decode (by simp)
    (by simp only [List.mem_map]; rintro _ ⟨octet, _, rfl⟩; exact octet.isLt), List.map_map]
  exact (List.map_congr_left fun octet _ => by simp).trans (List.map_id _)

end Octets

end Netblock
