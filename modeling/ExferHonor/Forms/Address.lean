import ExferHonor.Spec.Datum

/-! The script that commits to a key under the EXFER-ADDR domain: the injected deriver, or the
structural reference derivation when none is injected. -/
namespace ExferHonor

def exferAddrDomainTag : String := "exfer-addr"

def charCodes (s : String) : List Nat :=
  s.toList.flatMap fun c =>
    if c.toNat < 0x10000 then [c.toNat]
    else [0xD800 + (c.toNat - 0x10000) / 1024, 0xDC00 + (c.toNat - 0x10000) % 1024]

/-- `n.toString(16).padStart(width, "0")` -/
def hexPadded (width n : Nat) : List Char :=
  (Nat.toDigits 16 n).leftpad width '0'

def asciiToHex (s : String) : String :=
  String.ofList ((charCodes s).flatMap (hexPadded 2))

/-- One step of the two 32-bit lanes; `UInt32` multiplication is `Math.imul`. -/
def foldStep (lanes : UInt32 × UInt32) (code : Nat) : UInt32 × UInt32 :=
  let c := UInt32.ofNat code
  ((lanes.1 ^^^ c) * 0x01000193, (lanes.2 ^^^ ((c <<< 5) ||| (c >>> 3))) * 0x85ebca6b)

/-- Deterministic fold over two lanes, cut to 56 hex characters. -/
def fold (s : String) : String :=
  let lanes := (charCodes s).foldl foldStep (0x811c9dc5, 0x01000193)
  let core := hexPadded 8 lanes.1.toNat ++ hexPadded 8 lanes.2.toNat
  String.ofList ((core ++ core ++ core ++ core).take 56)

def referenceAddressDeriver (pubkey : PubKey) : Hex :=
  let tagHex := asciiToHex exferAddrDomainTag
  let key := if isBareHex pubkey then pubkey else asciiToHex pubkey
  tagHex ++ fold (tagHex ++ ":" ++ key)

def domainHashAddr (pubkey : PubKey) (deriver : Option (PubKey → Hex)) : Hex :=
  deriver.getD referenceAddressDeriver pubkey

end ExferHonor
