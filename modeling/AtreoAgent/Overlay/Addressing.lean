import AtreoAgent.WireGuard.Addresses

/-! The addressing of an install (package `overlay`): one of the IPv4 /24s of 100.64.0.0/10,
and the IPv6 /64 that goes with it. -/

structure Overlay where
  subnetV4 : String
  gatewayV4 : String
  subnetV6 : String
  gatewayV6 : String
  deriving DecidableEq, Repr

namespace Overlay

open Net

def subnetCount : Nat := 2 ^ 14

/-- The lowest eight bits. -/
def byte (n : Int) : UInt8 := UInt8.ofNat (n % 256).toNat

/-- The network address of the /64. -/
def networkV6 (b64 third : Int) : IP :=
  [0xfd, 0x00, 0x00, 0x64, byte (b64 / 256), byte b64, byte (third / 256), byte third] ++
    List.replicate 8 0

def v6At (b64 third : Int) : String × String :=
  let ip := networkV6 b64 third
  (ipString ip ++ "/64", ipString (ip.set 15 1))

def subnetAt (idx : Nat) : Overlay :=
  let second := 64 + idx / 256
  let third := idx % 256
  { subnetV4 := "100." ++ toString second ++ "." ++ toString third ++ ".0/24"
    gatewayV4 := "100." ++ toString second ++ "." ++ toString third ++ ".1"
    subnetV6 := (v6At (idx / 256) third).1
    gatewayV6 := (v6At (idx / 256) third).2 }

/-- The IPv6 gateway is read back as an address that is no IPv4 address. -/
theorem parseIP_gatewayV6 (idx : Nat) :
    ∃ base, parseIP (subnetAt idx).gatewayV6 = some base ∧ to4 base = none := by
  have hV6 : ∀ b64 third : Int, to4 ((networkV6 b64 third).set 15 1) = none := by
    intro b64 third
    simp [to4, networkV6, v4Head]
  have hLength : ∀ b64 third : Int, ((networkV6 b64 third).set 15 1).length = 16 := by
    intro b64 third
    simp [networkV6]
  dsimp only [subnetAt, v6At]
  exact ⟨_, parseIP_ipString (hLength _ _) (hV6 _ _), hV6 _ _⟩

end Overlay
