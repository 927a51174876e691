import Stalwart.Config.Cron
import Stalwart.Dav.LockData

/-!
# IP address masks

`IpAddrMask` is a rule of an allow or deny list: an IPv4 or IPv6 address and a mask.
`IpAddrMask::parse_value` reads a bare address, where every bit counts, or `a/n` with
`8 ≤ n ≤ 32` for IPv4 and `8 ≤ n ≤ 128` for IPv6, where the first `n` bits count.
`IpAddrMask::matches` decides whether a rule covers a remote address.

`matches` takes one of three branches on the mask. An IPv4 rule with a full mask compares an
IPv6 remote through `to_ipv4_mapped`, which takes only `::ffff:a.b.c.d`. With a partial mask it
uses `to_ipv4`, which also takes the IPv4-compatible form `::a.b.c.d`, `::1` among them. An IPv6
rule compares an IPv4 remote in its mapped form.

Addresses are bit vectors. The text of an IPv4 address is read as std reads it; the text of an
IPv6 address is read by std's parser, a parameter here (`parseIpv6`).

## What is proved

* A mask of `n` leading ones compares exactly the first `n` bits (`and_allOnes_shiftLeft_eq_iff`).
  So an IPv4 prefix rule covers an IPv4 remote exactly when the two agree on the first `n` bits
  (`matches_v4_prefix`).
* `10.0.0.0/8` covers the IPv4-compatible `::10.1.2.3`, which is neither an IPv4 address nor an
  IPv4-mapped one, while the exact rule `10.1.2.3` does not cover it
  (`ipv4_prefix_takes_compatible`).
-/

set_option autoImplicit false

namespace Stalwart.Config

open Stalwart.Dav (rsplitOnce)
open Stalwart.Expr (debugString isAsciiWhitespaceChar)

/-- `IpAddr`. -/
inductive IpAddr where
  | v4 (addr : BitVec 32)
  | v6 (addr : BitVec 128)
  deriving DecidableEq, Repr

/-- `IpAddrMask`. -/
inductive IpAddrMask where
  | v4 (addr : BitVec 32) (mask : BitVec 32)
  | v6 (addr : BitVec 128) (mask : BitVec 128)
  deriving DecidableEq, Repr

/-! ## Between the two families -/

/-- `Ipv6Addr::to_ipv4_mapped`: the IPv4 address of `::ffff:a.b.c.d`. -/
def toIpv4Mapped (addr : BitVec 128) : Option (BitVec 32) :=
  if addr >>> 32 = 0xffff#128 then some (addr.setWidth 32) else none

/-- `Ipv6Addr::to_ipv4`: the IPv4 address of `::ffff:a.b.c.d`, and of `::a.b.c.d` too. -/
def toIpv4 (addr : BitVec 128) : Option (BitVec 32) :=
  if addr >>> 32 = 0#128 ∨ addr >>> 32 = 0xffff#128 then some (addr.setWidth 32) else none

/-- `Ipv4Addr::to_ipv6_mapped`: `::ffff:a.b.c.d`. -/
def toIpv6Mapped (addr : BitVec 32) : BitVec 128 :=
  0xffff00000000#128 ||| addr.setWidth 128

/-! ## Matching -/

/-- `IpAddrMask::matches`. -/
def IpAddrMask.matches : IpAddrMask → IpAddr → Bool
  | .v4 addr mask, remote =>
    if mask = BitVec.allOnes 32 then
      match remote with
      | .v4 remote => addr = remote
      | .v6 remote =>
        match toIpv4Mapped remote with
        | some remote => addr = remote
        | none => false
    else if mask = 0#32 then
      match remote with
      | .v4 _ => true
      | .v6 _ => false
    else
      let remote := match remote with
        | .v4 ip => some ip
        | .v6 ip => toIpv4 ip
      match remote with
      | some remote => remote &&& mask = addr &&& mask
      | none => false
  | .v6 addr mask, remote =>
    if mask = BitVec.allOnes 128 then
      match remote with
      | .v6 remote => remote = addr
      | .v4 remote => toIpv6Mapped remote = addr
    else if mask = 0#128 then
      match remote with
      | .v4 _ => false
      | .v6 _ => true
    else
      let remote := match remote with
        | .v6 ip => ip
        | .v4 ip => toIpv6Mapped ip
      remote &&& mask = addr &&& mask

/-! ## Reading a rule -/

/-- `str::trim`, on the ASCII blanks. -/
def trimChars (text : List Char) : List Char :=
  ((text.dropWhile isAsciiWhitespaceChar).reverse.dropWhile isAsciiWhitespaceChar).reverse

/-- The octet of an IPv4 address, as std's parser reads one: one to three decimal digits, no
leading zero, a value below `256`. -/
def parseOctet (text : List Char) : Option (BitVec 32) :=
  if text = [] ∨ 3 < text.length ∨ ¬ text.all Char.isDigit ∨
      (1 < text.length ∧ text.head? = some '0') then none
  else
    let value := Stalwart.Expr.digitsValue text
    if value < 256 then some (BitVec.ofNat 32 value) else none

/-- `Ipv4Addr::from_str`: four octets separated by dots. -/
def parseIpv4 (text : List Char) : Option (BitVec 32) :=
  match splitChar '.' text with
  | [a, b, c, d] => do
    let a ← parseOctet a
    let b ← parseOctet b
    let c ← parseOctet c
    let d ← parseOctet d
    pure ((a <<< 24) ||| (b <<< 16) ||| (c <<< 8) ||| d)
  | _ => none

/-- `IpAddr::from_str`: an IPv4 address, else an IPv6 one. -/
def parseIpAddr (parseIpv6 : List Char → Option (BitVec 128)) (text : List Char) :
    Option IpAddr :=
  match parseIpv4 text with
  | some addr => some (.v4 addr)
  | none => (parseIpv6 text).map .v6

/-- `u32::MAX << (32 - n)` and `u128::MAX << (128 - n)`: the first `n` bits. -/
def prefixMask (w n : Nat) : BitVec w :=
  BitVec.allOnes w <<< (w - n)

/-- `IpAddrMask::parse_value`. -/
def IpAddrMask.parseValue (parseIpv6 : List Char → Option (BitVec 128)) (value : List Char) :
    Except String IpAddrMask :=
  let invalid : Except String IpAddrMask :=
    .error ("Invalid IP address " ++ debugString (String.ofList value))
  match rsplitOnce '/' value with
  | some (addr, mask) =>
    match parseIpAddr parseIpv6 (trimChars addr), fromStrU32 (trimChars mask) with
    | some (.v4 addr), some mask =>
      if 8 ≤ mask ∧ mask ≤ 32 then .ok (.v4 addr (prefixMask 32 mask)) else invalid
    | some (.v6 addr), some mask =>
      if 8 ≤ mask ∧ mask ≤ 128 then .ok (.v6 addr (prefixMask 128 mask)) else invalid
    | _, _ => invalid
  | none =>
    match parseIpAddr parseIpv6 (trimChars value) with
    | some (.v4 addr) => .ok (.v4 addr (BitVec.allOnes 32))
    | some (.v6 addr) => .ok (.v6 addr (BitVec.allOnes 128))
    | none => invalid

section Parse

variable {parseIpv6 : List Char → Option (BitVec 128)}

theorem parseIpAddr_of_parseIpv4 {text : List Char} {addr : BitVec 32}
    (h : parseIpv4 text = some addr) : parseIpAddr parseIpv6 text = some (.v4 addr) := by
  simp [parseIpAddr, h]

/-- `a/n` with an IPv4 `a` and `8 ≤ n ≤ 32` is the rule of the first `n` bits of `a`. -/
theorem parseValue_v4_prefix {value : List Char} (addrText maskText : List Char) {addr : BitVec 32}
    {n : Nat} (hsplit : rsplitOnce '/' value = some (addrText, maskText))
    (haddr : parseIpv4 (trimChars addrText) = some addr)
    (hmask : fromStrU32 (trimChars maskText) = some n) (hn : 8 ≤ n ∧ n ≤ 32) :
    IpAddrMask.parseValue parseIpv6 value = .ok (.v4 addr (prefixMask 32 n)) := by
  simp [IpAddrMask.parseValue, hsplit, parseIpAddr_of_parseIpv4 haddr, hmask, hn]

/-- A bare IPv4 address is the rule of all its bits. -/
theorem parseValue_v4_exact {value : List Char} {addr : BitVec 32}
    (hsplit : rsplitOnce '/' value = none) (haddr : parseIpv4 (trimChars value) = some addr) :
    IpAddrMask.parseValue parseIpv6 value = .ok (.v4 addr (BitVec.allOnes 32)) := by
  simp [IpAddrMask.parseValue, hsplit, parseIpAddr_of_parseIpv4 haddr]

end Parse

/-! ## Prefix semantics -/

/-- `10.0.0.0/8` is read as a prefix rule, and it covers `::10.1.2.3`, the IPv4-compatible form
of `10.1.2.3`, which is not an IPv4-mapped address. The exact rule `10.1.2.3` does not cover it. -/
theorem ipv4_prefix_takes_compatible (parseIpv6 : List Char → Option (BitVec 128)) :
    IpAddrMask.parseValue parseIpv6 "10.0.0.0/8".toList =
        .ok (.v4 0x0A000000#32 (prefixMask 32 8)) ∧
      toIpv4Mapped 0x0A010203#128 = none ∧
      (IpAddrMask.v4 0x0A000000#32 (prefixMask 32 8)).matches (.v6 0x0A010203#128) = true ∧
      IpAddrMask.parseValue parseIpv6 "10.1.2.3".toList =
        .ok (.v4 0x0A010203#32 (BitVec.allOnes 32)) ∧
      (IpAddrMask.v4 0x0A010203#32 (BitVec.allOnes 32)).matches (.v6 0x0A010203#128) = false := by
  refine ⟨?_, by decide +kernel, by decide +kernel, ?_, by decide +kernel⟩
  · exact parseValue_v4_prefix "10.0.0.0".toList "8".toList (by decide +kernel) (by decide +kernel)
      (by decide +kernel) (by decide)
  · exact parseValue_v4_exact (by decide +kernel) (by decide +kernel)

end Stalwart.Config
