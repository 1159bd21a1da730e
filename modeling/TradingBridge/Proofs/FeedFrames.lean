import TradingBridge.Orderflow.FeedParser

/-!
# Splitting a frame is exact

Both splitters read a packet's length from its header alone. So packets that carry their length come
back from their concatenation, and a frame that is cut loses packets at its end only.
-/

namespace TradingBridge.Orderflow

variable {header : List UInt8} {k : ℕ}

theorem getD_take {h i : ℕ} (hi : i < h) : (header.take h).getD i 0 = header.getD i 0 := by
  simp [hi]

theorem uint16At_take {h i : ℕ} (hi : i + 1 < h) :
    uint16At (header.take h) i = uint16At header i := by
  rw [uint16At, getD_take (by omega), getD_take hi, uint16At]

theorem fallbackLen_pos {t : UInt8} (h : fallbackLen t = some k) : 0 < k := by
  unfold fallbackLen at h
  split_ifs at h <;> cases h <;> decide

theorem fromFront_packetLen : Framing.FromFront packetLen := by
  refine Framing.fromFront_ofHeader fun h => ?_
  split_ifs at h with hshort
  · exact fallbackLen_pos h
  · cases h
    exact lt_of_lt_of_le (by decide) (not_lt.1 hshort)

theorem fromFront_depthLen : Framing.FromFront depthLen := by
  refine Framing.fromFront_ofHeader fun h => ?_
  split_ifs at h with _ hlong
  · cases h
    decide
  · cases h
    exact lt_of_lt_of_le (by decide) hlong

/-- The packets that are in order come back from their concatenation. Every input is read to an end,
the packets lie at its front, and cutting it anywhere leaves the front of them. -/
structure SplitsExactly (split : List UInt8 → Option (List (List UInt8)))
    (inOrder : List UInt8 → Prop) : Prop where
  whole : ∀ packets : List (List UInt8), (∀ p ∈ packets, inOrder p) →
    split packets.flatten = some packets
  cut : ∀ data, ∃ packets, split data = some packets ∧ packets.flatten <+: data ∧
    ∀ c, ∃ part, split (data.take c) = some part ∧ part <+: packets

theorem splitsExactly_of_fromFront {len : List UInt8 → Option ℕ} {inOrder : List UInt8 → Prop}
    (hlen : Framing.FromFront len) (hown : ∀ p, inOrder p → len p = some p.length) :
    SplitsExactly (fun data => Framing.split len (data.length + 1) data) inOrder where
  whole packets hp := Framing.split_flatten hlen (fun p h => hown p (hp p h)) (Nat.lt_succ_self _)
  cut data := by
    obtain ⟨packets, hall, hpre⟩ := Framing.split_total hlen (Nat.lt_succ_self data.length)
    refine ⟨packets, hall, hpre, fun c => ?_⟩
    obtain ⟨part, hpart, -⟩ := Framing.split_total hlen (Nat.lt_succ_self (data.take c).length)
    exact ⟨part, hpart, Framing.split_take hlen hpart hall⟩

/-- The header's length is the packet's. -/
def OwnLength (p : List UInt8) : Prop := headerLen ≤ p.length ∧ uint16At p 1 = p.length

/-- A bid or ask packet has its fixed length, any other the one in its header. -/
def OwnDepthLength (p : List UInt8) : Prop :=
  if isDepth p then p.length = depthPacketLen
  else depthHeaderLen ≤ p.length ∧ uint16At p 0 = p.length

/-- Both feeds' frames are split into exactly their packets. -/
theorem frames_split_exactly :
    SplitsExactly splitFrame OwnLength ∧ SplitsExactly splitDepthFrame OwnDepthLength := by
  constructor
  · refine splitsExactly_of_fromFront fromFront_packetLen fun p hp => ?_
    obtain ⟨hlen, hown⟩ := hp
    rw [packetLen, Framing.ofHeader, if_neg (not_lt.2 hlen), uint16At_take (by decide), hown,
      if_neg (not_lt.2 hlen)]
  · refine splitsExactly_of_fromFront fromFront_depthLen fun p hp => ?_
    have hdepth : isDepth (p.take depthHeaderLen) = isDepth p := by
      rw [isDepth, getD_take (by decide), isDepth]
    unfold OwnDepthLength at hp
    rw [depthLen, Framing.ofHeader, hdepth, uint16At_take (by decide)]
    split_ifs at hp with h
    · rw [if_neg (by rw [hp]; decide), if_pos h, hp]
    · rw [if_neg (not_lt.2 hp.1), if_neg h, hp.2, if_pos hp.1]

end TradingBridge.Orderflow
