/-
Nullsploit/Auth.lean

The address check of the SOC server, `auth_check_ip` in soc-server/auth.c.
-/
import Nullsploit.CidrMatch

namespace Nullsploit

open Inet

/-- `struct whitelist_entry`. -/
structure WhitelistEntry where
  ip : BitVec 32
  mask : BitVec 8
  deriving DecidableEq, Repr

/-- `auth_check_ip` over the loaded whitelist. -/
def authCheckIp (shl : BitVec 8 → BitVec 32) (whitelist : List WhitelistEntry)
    (ip : List UInt8) : Bool :=
  match inetPton ip with
  | none => false
  | some clientAddr => whitelist.any fun w => cidrMatch shl w.ip w.mask clientAddr

theorem authCheckIp_inetNtop (shl : BitVec 8 → BitVec 32) (whitelist : List WhitelistEntry)
    (src : BitVec 32) :
    authCheckIp shl whitelist (inetNtop src)
      = whitelist.any fun w => cidrMatch shl w.ip w.mask src := by
  rw [authCheckIp, inetPton_inetNtop]

end Nullsploit
