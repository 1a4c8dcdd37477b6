import OpenCam.Bytes.Decimal
import OpenCam.Linux.ControlProtocol

/-!
`showPairingQr` of `main.cpp`: the text of the QR code that carries a pairing secret.
-/

namespace OpenCam.Linux

open Octets Control

def SERVER_PORT : Int := 6969

/-- An octet as `inet_ntop` writes it: decimal, without leading zeros. -/
def octetText (octet : UInt8) : Bytes :=
  (if 100 ≤ octet then [48 + octet / 100] else []) ++
    (if 10 ≤ octet then [48 + octet / 10 % 10] else []) ++ [48 + octet % 10]

/-- What `inet_ntop(AF_INET, …)` writes for an address. -/
def inetNtop (a b c d : UInt8) : Bytes :=
  octetText a ++ 46 :: (octetText b ++ 46 :: (octetText c ++ 46 :: octetText d))

/-- The `payload` of `showPairingQr`. -/
def pairingPayload (address : Bytes) (secret : Block 32) : Bytes :=
  ascii "OCAM1|" ++ address ++ ascii "|" ++ putInt SERVER_PORT ++ ascii "|" ++ encodeHex secret.val

def showPairingQr (address : Bytes) (secret : Block 32) : Program Bool :=
  ask (.displayPairingQr (pairingPayload address secret))

end OpenCam.Linux
