/-!
# Internet addresses

An address is the number its bits write. All addresses of version 4 come before all of version 6,
and within a version the numbers decide.
-/

namespace Softphone

/-- An internet address of either version. -/
inductive Address
  | v4 (bits : BitVec 32)
  | v6 (bits : BitVec 128)
  deriving DecidableEq, Repr

namespace Address

/-- Where an address stands in the order of all addresses. -/
def rank : Address → Nat
  | v4 bits => bits.toNat
  | v6 bits => UInt32.size + bits.toNat

instance : LT Address := ⟨fun a b => a.rank < b.rank⟩

instance (a b : Address) : Decidable (a < b) := inferInstanceAs (Decidable (a.rank < b.rank))

theorem lt_def {a b : Address} : a < b ↔ a.rank < b.rank := Iff.rfl

theorem rank_inj {a b : Address} (h : a.rank = b.rank) : a = b := by
  match a, b with
  | v4 x, v4 y => exact congrArg v4 (BitVec.eq_of_toNat_eq h)
  | v6 x, v6 y => exact congrArg v6 (BitVec.eq_of_toNat_eq (Nat.add_left_cancel h))
  | v4 x, v6 y => have := x.isLt; simp only [rank, UInt32.size] at h; omega
  | v6 x, v4 y => have := y.isLt; simp only [rank, UInt32.size] at h; omega

theorem lt_trans {a b c : Address} (hab : a < b) (hbc : b < c) : a < c :=
  Nat.lt_trans (lt_def.1 hab) (lt_def.1 hbc)

theorem lt_irrefl (a : Address) : ¬ a < a := Nat.lt_irrefl _

/-- Two addresses of which neither comes first are one address. -/
theorem eq_of_not_lt {a b : Address} (hab : ¬ a < b) (hba : ¬ b < a) : a = b :=
  rank_inj (Nat.le_antisymm (Nat.not_lt.1 hba) (Nat.not_lt.1 hab))

def isV4 : Address → Bool
  | v4 _ => true
  | v6 _ => false

def isV6 (a : Address) : Bool := !a.isV4

/-- Whether the first `length` of `width` bits write the number `block`. -/
def inBlock {width : Nat} (bits : BitVec width) (length block : Nat) : Bool :=
  bits.toNat >>> (width - length) == block

/-- Addresses that are meaningful on one link only: 169.254/16 and fe80::/10. -/
def isLinkLocal : Address → Bool
  | v4 bits => inBlock bits 16 0xA9FE
  | v6 bits => inBlock bits 10 0x3FA

/-- Addresses of private networks: 10/8, 172.16/12, 192.168/16 and fec0::/10. -/
def isSiteLocal : Address → Bool
  | v4 bits => inBlock bits 8 10 || inBlock bits 12 0xAC1 || inBlock bits 16 0xC0A8
  | v6 bits => inBlock bits 10 0x3FB

end Address

/-- An address with a port. -/
structure Endpoint where
  address : Address
  port : Nat
  deriving DecidableEq, Repr

end Softphone
