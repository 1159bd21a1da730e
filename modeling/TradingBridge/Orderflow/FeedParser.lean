import TradingBridge.Lib.Framing

/-!
# The packets of a feed frame

The header of each packet says how long it is; where it does not, the length goes by its type.
-/

namespace TradingBridge.Orderflow

section LiveFeed

def headerLen : ℕ := 8

def pktTicker : UInt8 := 2
def pktQuote : UInt8 := 4
def pktOi : UInt8 := 5
def pktPrevClose : UInt8 := 6
def pktFull : UInt8 := 8
def pktDisconnect : UInt8 := 50

def fallbackLen (packetType : UInt8) : Option ℕ :=
  if packetType = pktFull then some (headerLen + 54 + 100)
  else if packetType = pktQuote then some (headerLen + 42)
  else if packetType = pktTicker then some (headerLen + 8)
  else if packetType = pktOi then some (headerLen + 4)
  else if packetType = pktPrevClose then some (headerLen + 8)
  else if packetType = pktDisconnect then some (headerLen + 2)
  else none

variable (data : List UInt8)

/-- The `H` of a header, at the given offset. -/
def uint16At (i : ℕ) : ℕ := (data.getD i 0).toNat + 256 * (data.getD (i + 1) 0).toNat

def packetLen : List UInt8 → Option ℕ := Framing.ofHeader headerLen fun header =>
  if uint16At header 1 < headerLen then fallbackLen (header.getD 0 0)
  else some (uint16At header 1)

def splitFrame : Option (List (List UInt8)) := Framing.split packetLen (data.length + 1) data

end LiveFeed

section DepthFeed

def depthHeaderLen : ℕ := 12

def feedBid : UInt8 := 41
def feedAsk : UInt8 := 51

def depthPacketLen : ℕ := 332

variable (data : List UInt8)

def isDepth : Bool := data.getD 2 0 = feedBid ∨ data.getD 2 0 = feedAsk

def depthLen : List UInt8 → Option ℕ := Framing.ofHeader depthHeaderLen fun header =>
  if isDepth header then some depthPacketLen
  else if depthHeaderLen ≤ uint16At header 0 then some (uint16At header 0)
  else none

def splitDepthFrame : Option (List (List UInt8)) := Framing.split depthLen (data.length + 1) data

end DepthFeed

end TradingBridge.Orderflow
