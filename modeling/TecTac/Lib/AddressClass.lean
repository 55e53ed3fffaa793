import TecTac.Lib.IpAddress

/-!
# Classes of addresses

The blocks that are set aside for one use: the machine itself, the link, groups of machines, private networks, and what is reserved. An address of eight hextets that stands for one of
four octets is in the classes of the latter.
-/

namespace IpNetwork

/-- The addresses whose first bits are those of a number. -/
def ofPrefix (six : Bool) (start hostBits : Nat) : IpNetwork := ⟨six, start * 2 ^ hostBits, hostBits, Nat.mul_mod_left start (2 ^ hostBits)⟩

end IpNetwork

namespace IpAddress

open IpNetwork

/-- An address is in one of the networks. -/
def inAny (networks : List IpNetwork) (a : IpAddress) : Bool := networks.any fun network => network.contains a

/-- The four octets that an address of eight hextets stands for. -/
def v4Mapped : IpAddress → Option (Groups 4 256)
  | .v4 _ => none
  | .v6 hextets _ =>
    match hextets.digits with
    | [0, 0, 0, 0, 0, 65535, high, low] => Groups.ofList 4 256 [high / 256, high % 256, low / 256, low % 256]
    | _ => none

/-- The address that is meant. -/
def unmapped (a : IpAddress) : IpAddress :=
  match a.v4Mapped with
  | some octets => .v4 octets
  | none => a

/-- 127.0.0.0/8 and ::1. -/
def isLoopback : IpAddress → Bool := inAny [ofPrefix false 127 24, ofPrefix true 1 0]

/-- 169.254.0.0/16 and fe80::/10. -/
def isLinkLocal : IpAddress → Bool := inAny [ofPrefix false (169 * 256 + 254) 16, ofPrefix true 0x3fa 118]

/-- 224.0.0.0/4 and ff00::/8. -/
def isMulticast : IpAddress → Bool := inAny [ofPrefix false 14 28, ofPrefix true 0xff 120]

/-- 0.0.0.0 and ::. -/
def isUnspecified : IpAddress → Bool := inAny [ofPrefix false 0 0, ofPrefix true 0 0]

/-- 240.0.0.0/4; of the others all but 2000::/3, fc00::/7, fe80::/9 and ff00::/8. -/
def reservedNetworks : List IpNetwork :=
  [ofPrefix false 15 28, ofPrefix true 0x00 120, ofPrefix true 0x01 120, ofPrefix true 0x01 121, ofPrefix true 0x01 122, ofPrefix true 0x01 123, ofPrefix true 0x01 124,
    ofPrefix true 0x2 125, ofPrefix true 0x3 125, ofPrefix true 0x4 125, ofPrefix true 0x5 125, ofPrefix true 0x6 125, ofPrefix true 0xe 124, ofPrefix true 0x1e 123,
    ofPrefix true 0x3e 122, ofPrefix true 0x1fc 119]

def isReserved : IpAddress → Bool := inAny reservedNetworks

/-- 100.64.0.0/10, shared by the customers of a carrier. -/
def isShared : IpAddress → Bool := inAny [ofPrefix false (100 * 4 + 1) 22]

def privateNetworks : List IpNetwork :=
  [ -- 0.0.0.0/8, 10.0.0.0/8, 127.0.0.0/8, 169.254.0.0/16, 172.16.0.0/12
    ofPrefix false 0 24, ofPrefix false 10 24, ofPrefix false 127 24, ofPrefix false (169 * 256 + 254) 16, ofPrefix false (172 * 16 + 1) 20,
    -- 192.0.0.0/24, 192.0.2.0/24, 192.168.0.0/16, 198.18.0.0/15, 198.51.100.0/24, 203.0.113.0/24, 240.0.0.0/4
    ofPrefix false (192 * 65536) 8, ofPrefix false (192 * 65536 + 2) 8, ofPrefix false (192 * 256 + 168) 16, ofPrefix false (198 * 128 + 9) 17,
    ofPrefix false (198 * 65536 + 51 * 256 + 100) 8, ofPrefix false (203 * 65536 + 113) 8, ofPrefix false 15 28,
    -- ::1, ::, ::ffff:0:0/96, 64:ff9b:1::/48, 100::/64, 2001::/23, 2001:db8::/32, 2002::/16, 3fff::/20, fc00::/7, fe80::/10
    ofPrefix true 1 0, ofPrefix true 0 0, ofPrefix true 0xffff 32, ofPrefix true 0x64ff9b0001 80, ofPrefix true 0x0100000000000000 64, ofPrefix true 0x100080 105,
    ofPrefix true 0x20010db8 96, ofPrefix true 0x2002 112, ofPrefix true 0x3fff0 108, ofPrefix true 0x7e 121, ofPrefix true 0x3fa 118]

/-- What is reached from everywhere although it lies in a private block. -/
def privateExceptions : List IpNetwork :=
  [ -- 192.0.0.9 and 192.0.0.10
    ofPrefix false (192 * 16777216 + 9) 0, ofPrefix false (192 * 16777216 + 10) 0,
    -- 2001:1::1, 2001:1::2, 2001:3::/32, 2001:4:112::/48, 2001:20::/28, 2001:30::/28
    ofPrefix true 0x20010001000000000000000000000001 0, ofPrefix true 0x20010001000000000000000000000002 0, ofPrefix true 0x20010003 96, ofPrefix true 0x200100040112 80,
    ofPrefix true 0x2001002 100, ofPrefix true 0x2001003 100]

def isPrivate (a : IpAddress) : Bool := inAny privateNetworks a && !inAny privateExceptions a

theorem v4Mapped_unmapped (a : IpAddress) : a.unmapped.v4Mapped = none := by
  unfold unmapped
  split
  · rfl
  · assumption

/-- What is meant by an address is meant by itself. -/
@[simp] theorem unmapped_unmapped (a : IpAddress) : a.unmapped.unmapped = a.unmapped := by
  rw [unmapped, v4Mapped_unmapped]

end IpAddress
