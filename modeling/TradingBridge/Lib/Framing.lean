import Mathlib

/-!
# Packets that say how long they are

The length of the next packet is read at its start, and the walk stops where no length can be read
or the packet is cut short.
-/

namespace Framing

open List

variable {α : Type*}

/-- The packets from the front of the input on; `none` where the fuel runs out. -/
def split (len : List α → Option ℕ) : ℕ → List α → Option (List (List α))
  | 0, _ => none
  | n + 1, data =>
    match len data with
    | none => some []
    | some k =>
      if data.length < k then some []
      else (split len n (data.drop k)).map (data.take k :: ·)

/-- A length is positive, and it is read from the front alone. -/
structure FromFront (len : List α → Option ℕ) : Prop where
  pos : ∀ {data k}, len data = some k → 0 < k
  append : ∀ {data k} (rest : List α), len data = some k → len (data ++ rest) = some k

/-- The length as `f` reads it off a header of `h` items. -/
def ofHeader (h : ℕ) (f : List α → Option ℕ) (data : List α) : Option ℕ :=
  if data.length < h then none else f (data.take h)

theorem fromFront_ofHeader {h : ℕ} {f : List α → Option ℕ}
    (hpos : ∀ {header k}, f header = some k → 0 < k) : FromFront (ofHeader h f) where
  pos hk := by
    unfold ofHeader at hk
    split_ifs at hk
    exact hpos hk
  append rest hk := by
    unfold ofHeader at hk ⊢
    split_ifs at hk with hshort
    rwa [if_neg (by rw [length_append]; omega), take_append_of_le_length (by omega)]

variable {len : List α → Option ℕ}

/-- With fuel for every item the walk ends, and its packets lie at the front of the input. -/
theorem split_total (hlen : FromFront len) : ∀ {n : ℕ} {data : List α}, data.length < n →
    ∃ packets, split len n data = some packets ∧ packets.flatten <+: data
  | 0, data, h => by omega
  | n + 1, data, h => by
    rw [split]
    cases hk : len data with
    | none => exact ⟨[], rfl, nil_prefix⟩
    | some k =>
      have hpos := hlen.pos hk
      dsimp only
      split_ifs with hshort
      · exact ⟨[], rfl, nil_prefix⟩
      · have hrest : (data.drop k).length < n := by
          rw [length_drop]
          omega
        obtain ⟨packets, hsplit, hpre⟩ := split_total hlen hrest
        refine ⟨data.take k :: packets, by rw [hsplit]; rfl, ?_⟩
        conv_rhs => rw [← take_append_drop k data]
        exact (prefix_append_right_inj _).2 hpre

/-- Packets that carry their own length come back from their concatenation. -/
theorem split_flatten (hlen : FromFront len) : ∀ {packets : List (List α)} {n : ℕ},
    (∀ p ∈ packets, len p = some p.length) → packets.flatten.length < n →
      split len n packets.flatten = some packets
  | _, 0, _, hn => by omega
  | [], n + 1, _, _ => by
    rw [flatten_nil, split]
    cases hk : len [] with
    | none => rfl
    | some k => exact if_pos (hlen.pos hk)
  | p :: packets, n + 1, hp, hn => by
    have hk := hp p mem_cons_self
    have hpos := hlen.pos hk
    rw [flatten_cons, length_append] at hn
    have hrest := split_flatten hlen (n := n) (fun q hq => hp q (mem_cons_of_mem p hq))
      (by omega)
    simp [split, hlen.append _ hk, hrest]

/-- What is read of a cut input is the front of what is read of the whole. -/
theorem split_take (hlen : FromFront len) : ∀ {m n c : ℕ} {data : List α}
    {part packets : List (List α)}, split len m (data.take c) = some part →
      split len n data = some packets → part <+: packets
  | 0, _, _, _, _, _, h, _ => by cases h
  | _ + 1, 0, _, _, _, _, _, h => by cases h
  | m + 1, n + 1, c, data, part, packets, hpart, hall => by
    rw [split] at hpart hall
    cases hk : len (data.take c) with
    | none =>
      simp only [hk] at hpart
      cases hpart
      exact nil_prefix
    | some k =>
      have hwhole : len data = some k := by
        have := hlen.append (data.drop c) hk
        rwa [take_append_drop] at this
      simp only [hk] at hpart
      split_ifs at hpart with hshort
      · cases hpart
        exact nil_prefix
      · rw [length_take, not_lt, Nat.le_min] at hshort
        simp only [hwhole, if_neg (not_lt.2 hshort.2)] at hall
        obtain ⟨part', hpart', rfl⟩ := Option.map_eq_some_iff.1 hpart
        obtain ⟨packets', hall', rfl⟩ := Option.map_eq_some_iff.1 hall
        rw [take_take, min_eq_left hshort.1, prefix_cons_inj]
        rw [drop_take] at hpart'
        exact split_take hlen hpart' hall'

end Framing
