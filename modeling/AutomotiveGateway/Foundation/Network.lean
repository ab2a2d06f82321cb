import AutomotiveGateway.Foundation.Machine
import Mathlib.Algebra.Order.Group.Multiset
import Mathlib.Data.Multiset.Bind
import Mathlib.Tactic.Abel

/-!
# Parties on a network that loses, delays and copies packets

Parties act on their own, or when a packet is delivered to them, and either may send packets.
The network holds the packets in flight. It delivers them in any order, loses some and copies
others. Every packet that was sent or copied is in flight, delivered or lost.
-/

/-- What the parties do. A result `none` means that a party never returns. -/
structure Protocol (σ α π : Type*) where
  act : σ → α → Option (σ × List π)
  deliver : σ → π → Option (σ × List π)

namespace Protocol

variable {σ α π : Type*}

/-- The parties, and the packets in flight. -/
structure Net (σ π : Type*) where
  parties : σ
  inFlight : Multiset π

/-- A party acts, or the network delivers, loses or copies a packet. -/
inductive Move (α π : Type*)
  | act (action : α)
  | deliver (packet : π)
  | lose (packet : π)
  | duplicate (packet : π)

def Move.action? : Move α π → Option α
  | act action => some action
  | _ => none

def Move.delivered? : Move α π → Option π
  | deliver packet => some packet
  | _ => none

def Move.lost? : Move α π → Option π
  | lose packet => some packet
  | _ => none

def Move.duplicated? : Move α π → Option π
  | duplicate packet => some packet
  | _ => none

/-- What the parties did on their own, in order. -/
def acted (moves : List (Move α π)) : List α := moves.filterMap Move.action?

/-- The packets delivered, in order. -/
def delivered (moves : List (Move α π)) : List π := moves.filterMap Move.delivered?

def lost (moves : List (Move α π)) : List π := moves.filterMap Move.lost?

def duplicated (moves : List (Move α π)) : List π := moves.filterMap Move.duplicated?

theorem delivered_cons (move : Move α π) (moves : List (Move α π)) :
    delivered (move :: moves) = delivered [move] ++ delivered moves :=
  List.filterMap_append (l := [move])

theorem lost_cons (move : Move α π) (moves : List (Move α π)) :
    lost (move :: moves) = lost [move] ++ lost moves :=
  List.filterMap_append (l := [move])

theorem duplicated_cons (move : Move α π) (moves : List (Move α π)) :
    duplicated (move :: moves) = duplicated [move] ++ duplicated moves :=
  List.filterMap_append (l := [move])

variable [DecidableEq π]

/-- The parties on their network. Its outputs are the packets sent. -/
def machine (P : Protocol σ α π) : Machine (Net σ π) (Move α π) π where
  Enabled net
    | .act _ => True
    | .deliver packet | .lose packet | .duplicate packet => packet ∈ net.inFlight
  step net
    | .act action => (P.act net.parties action).map fun acted =>
        ({ parties := acted.1, inFlight := net.inFlight + acted.2 }, acted.2)
    | .deliver packet => (P.deliver net.parties packet).map fun served =>
        ({ parties := served.1, inFlight := net.inFlight.erase packet + served.2 }, served.2)
    | .lose packet => some ({ net with inFlight := net.inFlight.erase packet }, [])
    | .duplicate packet => some ({ net with inFlight := packet ::ₘ net.inFlight }, [])

variable {P : Protocol σ α π} {net next : Net σ π} {move : Move α π} {sent : List π}

/-- Everything a move can do. -/
theorem step_cases (henabled : P.machine.Enabled net move)
    (hstep : P.machine.step net move = some (next, sent)) :
    (∃ action, move = .act action ∧ P.act net.parties action = some (next.parties, sent) ∧
      next.inFlight = net.inFlight + sent) ∨
    (∃ packet, move = .deliver packet ∧ packet ∈ net.inFlight ∧
      P.deliver net.parties packet = some (next.parties, sent) ∧
      next.inFlight = net.inFlight.erase packet + sent) ∨
    (∃ packet, move = .lose packet ∧ packet ∈ net.inFlight ∧ next.parties = net.parties ∧
      sent = [] ∧ next.inFlight = net.inFlight.erase packet) ∨
    (∃ packet, move = .duplicate packet ∧ packet ∈ net.inFlight ∧ next.parties = net.parties ∧
      sent = [] ∧ next.inFlight = packet ::ₘ net.inFlight) := by
  cases move with
  | act action =>
      obtain ⟨⟨parties, packets⟩, hact, hnext⟩ := Option.map_eq_some_iff.mp hstep
      cases hnext
      exact .inl ⟨action, rfl, hact, rfl⟩
  | deliver packet =>
      obtain ⟨⟨parties, packets⟩, hdeliver, hnext⟩ := Option.map_eq_some_iff.mp hstep
      cases hnext
      exact .inr (.inl ⟨packet, rfl, henabled, hdeliver, rfl⟩)
  | lose packet =>
      cases hstep
      exact .inr (.inr (.inl ⟨packet, rfl, henabled, rfl, rfl, rfl⟩))
  | duplicate packet =>
      cases hstep
      exact .inr (.inr (.inr ⟨packet, rfl, henabled, rfl, rfl, rfl⟩))

theorem balance_step (henabled : P.machine.Enabled net move)
    (hstep : P.machine.step net move = some (next, sent)) :
    next.inFlight + delivered [move] + lost [move] = net.inFlight + sent + duplicated [move] := by
  rcases step_cases henabled hstep with ⟨_, rfl, -, hnext⟩ | ⟨packet, rfl, hmem, -, hnext⟩ |
    ⟨packet, rfl, hmem, -, rfl, hnext⟩ | ⟨packet, rfl, -, -, rfl, hnext⟩
  · rw [hnext]
    change net.inFlight + ↑sent + 0 + 0 = net.inFlight + ↑sent + 0
    rw [add_zero]
  · have hback : net.inFlight.erase packet + {packet} = net.inFlight := by
      rw [add_comm]
      exact Multiset.cons_erase hmem
    rw [hnext]
    change net.inFlight.erase packet + ↑sent + {packet} + 0 = net.inFlight + ↑sent + 0
    rw [add_zero, add_zero, add_right_comm, hback]
  · rw [hnext]
    change net.inFlight.erase packet + 0 + {packet} = net.inFlight + 0 + 0
    rw [add_zero, add_zero, add_zero, add_comm]
    exact Multiset.cons_erase hmem
  -- a copy is what the right side has more
  · rw [hnext]
    change packet ::ₘ net.inFlight + 0 + 0 = net.inFlight + 0 + {packet}
    rw [add_zero, add_zero, add_zero, add_comm]
    rfl

/-- Whatever was sent or copied is in flight, delivered or lost. -/
theorem balance {first last : Net σ π} {moves : List (Move α π)}
    (hrun : P.machine.Run first moves last sent) :
    last.inFlight + delivered moves + lost moves =
      first.inFlight + sent + duplicated moves := by
  induction hrun with
  | nil => rfl
  | @cons net move middle out moves last outs henabled hstep _ ih =>
      have hfirst := balance_step henabled hstep
      rw [delivered_cons move, lost_cons move, duplicated_cons move, ← Multiset.coe_add,
        ← Multiset.coe_add, ← Multiset.coe_add, ← Multiset.coe_add]
      calc last.inFlight + (delivered [move] + delivered moves) + (lost [move] + lost moves)
          = (last.inFlight + delivered moves + lost moves) + delivered [move] + lost [move] := by
            abel
        _ = (middle.inFlight + outs + duplicated moves) + delivered [move] + lost [move] := by
            rw [ih]
        _ = (middle.inFlight + delivered [move] + lost [move]) + outs + duplicated moves := by
            abel
        _ = (net.inFlight + out + duplicated [move]) + outs + duplicated moves := by rw [hfirst]
        _ = net.inFlight + (out + outs) + (duplicated [move] + duplicated moves) := by abel

/-- The same of what each packet carries. -/
theorem balance_bind {κ : Type*} (carried : π → Multiset κ) {first last : Net σ π}
    {moves : List (Move α π)} (hrun : P.machine.Run first moves last sent) :
    last.inFlight.bind carried + (delivered moves : Multiset π).bind carried +
        (lost moves : Multiset π).bind carried =
      first.inFlight.bind carried + (sent : Multiset π).bind carried +
        (duplicated moves : Multiset π).bind carried := by
  rw [← Multiset.add_bind, ← Multiset.add_bind, ← Multiset.add_bind, ← Multiset.add_bind,
    balance hrun]

/-- Packets in flight behind a move were so before it, or were sent by it. -/
theorem mem_inFlight_of_step (henabled : P.machine.Enabled net move)
    (hstep : P.machine.step net move = some (next, sent)) {packet : π}
    (hpacket : packet ∈ next.inFlight) : packet ∈ net.inFlight ∨ packet ∈ sent := by
  rcases step_cases henabled hstep with ⟨_, -, -, hnext⟩ | ⟨own, -, -, -, hnext⟩ |
    ⟨own, -, -, -, -, hnext⟩ | ⟨own, -, hmem, -, -, hnext⟩
  · rw [hnext, Multiset.mem_add] at hpacket
    exact hpacket
  · rw [hnext, Multiset.mem_add] at hpacket
    exact hpacket.imp Multiset.mem_of_mem_erase id
  · rw [hnext] at hpacket
    exact .inl (Multiset.mem_of_mem_erase hpacket)
  · rw [hnext, Multiset.mem_cons] at hpacket
    rcases hpacket with rfl | hpacket
    · exact .inl hmem
    · exact .inl hpacket

/-- The network forges nothing: a packet that is in flight, or that it has delivered, was in
flight at first or sent. -/
theorem mem_sent_of_run {first last : Net σ π} {moves : List (Move α π)}
    (hrun : P.machine.Run first moves last sent) {packet : π}
    (hpacket : packet ∈ last.inFlight ∨ packet ∈ delivered moves) :
    packet ∈ first.inFlight ∨ packet ∈ sent := by
  induction hrun with
  | nil => exact .inl (hpacket.resolve_right List.not_mem_nil)
  | @cons net move middle out moves last outs henabled hstep _ ih =>
      -- what is in flight behind the first move was so before it, or is sent by it
      have hlater : packet ∈ last.inFlight ∨ packet ∈ delivered moves →
          packet ∈ net.inFlight ∨ packet ∈ out ++ outs := by
        intro hlast
        rcases ih hlast with hmiddle | hsent
        · exact (mem_inFlight_of_step henabled hstep hmiddle).imp id
            fun hout => List.mem_append.mpr (.inl hout)
        · exact .inr (List.mem_append.mpr (.inr hsent))
      rw [delivered_cons, List.mem_append] at hpacket
      rcases hpacket with hlast | hmove | hrest
      · exact hlater (.inl hlast)
      -- only a delivery delivers, and what it delivers was in flight
      · rcases step_cases henabled hstep with ⟨_, rfl, -⟩ | ⟨own, rfl, hmem, -⟩ | ⟨own, rfl, -⟩ |
          ⟨own, rfl, -⟩
        · exact absurd hmove List.not_mem_nil
        · exact .inl (List.mem_singleton.mp hmove ▸ hmem)
        · exact absurd hmove List.not_mem_nil
        · exact absurd hmove List.not_mem_nil
      · exact hlater (.inr hrest)

/-- Packets that are in flight together can be delivered one behind the other, if those that
they are delivered to take them. -/
theorem exists_run_deliver {packets : List π} (hflight : (packets : Multiset π) ≤ net.inFlight)
    (hdeliver : ∀ parties, ∀ packet ∈ packets, (P.deliver parties packet).isSome) :
    ∃ last sent, P.machine.Run net (packets.map .deliver) last sent := by
  induction packets generalizing net with
  | nil => exact ⟨net, [], .nil net⟩
  | cons packet packets ih =>
      obtain ⟨hfirst, hrest⟩ := List.forall_mem_cons.mp fun packet hmem parties =>
        hdeliver parties packet hmem
      obtain ⟨⟨parties, out⟩, hserved⟩ := Option.isSome_iff_exists.mp (hfirst net.parties)
      have hmem : packet ∈ net.inFlight :=
        Multiset.mem_of_le hflight (Multiset.mem_coe.mpr List.mem_cons_self)
      have hlater := Multiset.erase_le_erase packet hflight
      rw [← Multiset.cons_coe, Multiset.erase_cons_head] at hlater
      have hstep : P.machine.step net (.deliver packet) =
          some ({ parties, inFlight := net.inFlight.erase packet + out }, out) := by
        change (P.deliver net.parties packet).map _ = _
        rw [hserved]
        rfl
      obtain ⟨last, sent, hrun⟩ := @ih
        { parties, inFlight := net.inFlight.erase packet + out }
        (hlater.trans (Multiset.le_add_right _ _)) fun parties packet hmem =>
          hrest packet hmem parties
      exact ⟨last, out ++ sent, .cons hmem hstep hrun⟩

end Protocol
