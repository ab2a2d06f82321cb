import AutomotiveGateway.Gateway.Pipeline
import AutomotiveGateway.Gateway.WatchdogTimer

/-!
# Silence on the CAN bus

The watchdog is fed at the start of every callback, and checked at the end of some, so the
check measures the time the callback took. The time between two frames is never compared
with the timeout.
-/

namespace AutomotiveGateway

open Can Someip

/-- A received frame, with the readings of the clock during its callback. -/
structure Arrival where
  frame : CanFrame
  clock : Clock

/-- The event of the loop that hands over the frame. -/
def Arrival.event (arrival : Arrival) : GatewayEvent := .can ⟨16, arrival.frame⟩ arrival.clock

/-- The nanoseconds that a callback takes from its first reading of the clock to its last. -/
def Arrival.duration (arrival : Arrival) : Nat :=
  arrival.clock.check.toNat - arrival.clock.feed.toNat

/-- The clock never goes back, from callback to callback and within each of them. -/
structure MonotoneClock (arrivals : List Arrival) : Prop where
  within : ∀ arrival ∈ arrivals, arrival.clock.feed ≤ arrival.clock.check
  between : arrivals.IsChain fun earlier later => earlier.clock.check ≤ later.clock.feed

/-- Two frames arrive more than the timeout apart. -/
def SilenceBetween (timeoutUs : UInt64) (earlier later : Arrival) : Prop :=
  1000 * timeoutUs.toNat < later.clock.feed.toNat - earlier.clock.feed.toNat

instance (timeoutUs : UInt64) (earlier later : Arrival) :
    Decidable (SilenceBetween timeoutUs earlier later) := Nat.decLt _ _

variable {D : Type} [DoubleOps D]

/-- For every silence between two consecutive frames of a run a check reports it, from the
callback of the earlier frame on. -/
def Gateway.SilenceReported (dbc : DbcParser D) (gateway : Gateway) (arrivals : List Arrival) :
    Prop :=
  ∀ before earlier later after, arrivals = before ++ earlier :: later :: after →
    SilenceBetween gateway.watchdog.timeoutUs earlier later →
    ∀ middle outs last outs',
      (machine dbc).Run gateway (before.map Arrival.event) middle outs →
      (machine dbc).Run middle ((earlier :: later :: after).map Arrival.event) last outs' →
      .alert ∈ outs'

namespace Watchdog

/-- Right after it was fed the watchdog reports nothing. -/
theorem check_feed {watchdog : Watchdog} {fedNs nowNs : UInt64} (hle : fedNs ≤ nowNs)
    (htimely : nowNs.toNat - fedNs.toNat < 1000 * watchdog.timeoutUs.toNat) :
    (watchdog.feed fedNs).check nowNs = (watchdog.feed fedNs, false) := by
  apply check_of_not_overdue hle
  change ¬ watchdog.timeoutUs.toNat < (nowNs.toNat - fedNs.toNat) / 1000
  omega

end Watchdog

namespace Gateway

omit [DoubleOps D] in
/-- The end of the callback alerts only when the watchdog reports a timeout. -/
theorem quiet_afterPublish {gateway next : Gateway} {clock : Clock}
    {actions : List (GatewayAction D)}
    (hquiet : gateway.watchdog.check clock.check = (gateway.watchdog, false))
    (hafter : gateway.afterPublish clock = some (next, actions)) :
    next.watchdog = gateway.watchdog ∧ .alert ∉ actions := by
  obtain ⟨ended, offers, hended, -, hwatchdog⟩ := @exists_afterPublish_eq D gateway clock
  rw [hended, Option.some.injEq, Prod.mk.injEq] at hafter
  obtain ⟨rfl, rfl⟩ := hafter
  have hchecked : gateway.checked clock = (gateway.watchdog, false) := by
    rw [checked, hquiet, ite_self]
  refine ⟨by rw [hwatchdog, hchecked], ?_⟩
  have htable : .alert ∉ (if (gateway.frameCount + 1) % 10 = 0 then
      [.printTable (gateway.frameCount + 1)] else [] : List (GatewayAction D)) := by
    split
    next => simp
    next => exact List.not_mem_nil
  rw [hchecked]
  simp [htable]

/-- A callback that takes less than the timeout raises no alert. -/
theorem quiet_onCanFrame {dbc : DbcParser D} {gateway next : Gateway} {arrival : Arrival}
    {actions : List (GatewayAction D)}
    (hcallback : gateway.onCanFrame dbc arrival.clock arrival.frame = some (next, actions))
    (hle : arrival.clock.feed ≤ arrival.clock.check)
    (htimely : arrival.duration < 1000 * gateway.watchdog.timeoutUs.toNat) :
    next.watchdog.timeoutUs = gateway.watchdog.timeoutUs ∧ .alert ∉ actions := by
  have hquiet := Watchdog.check_feed hle htimely
  rcases onCanFrame_cases hcallback with ⟨-, rfl, rfl⟩ |
    ⟨msg, publisher, upkeep, sent, -, hafter, rfl⟩
  · exact ⟨rfl, List.not_mem_nil⟩
  · obtain ⟨hwatchdog, hupkeep⟩ := quiet_afterPublish hquiet hafter
    refine ⟨by rw [hwatchdog]; rfl, ?_⟩
    simp [hupkeep]

/-- A run of timely callbacks raises no alert. -/
theorem quiet_run {dbc : DbcParser D} {gateway last : Gateway} {arrivals : List Arrival}
    {outs : List (GatewayAction D)}
    (hrun : (machine dbc).Run gateway (arrivals.map Arrival.event) last outs)
    (hclock : ∀ arrival ∈ arrivals, arrival.clock.feed ≤ arrival.clock.check)
    (htimely : ∀ arrival ∈ arrivals,
      arrival.duration < 1000 * gateway.watchdog.timeoutUs.toNat) :
    last.watchdog.timeoutUs = gateway.watchdog.timeoutUs ∧ .alert ∉ outs := by
  induction arrivals generalizing gateway outs with
  | nil =>
      cases hrun
      exact ⟨rfl, List.not_mem_nil⟩
  | cons arrival arrivals ih =>
      cases hrun with
      | @cons _ _ middle out _ _ outs _ hstep hrest =>
          obtain ⟨htimeout, hout⟩ := quiet_onCanFrame hstep (hclock arrival List.mem_cons_self)
            (htimely arrival List.mem_cons_self)
          obtain ⟨hlast, houts⟩ := ih hrest
            (fun other hmem => hclock other (List.mem_cons_of_mem _ hmem))
            (fun other hmem => by
              rw [htimeout]
              exact htimely other (List.mem_cons_of_mem _ hmem))
          refine ⟨hlast.trans htimeout, ?_⟩
          rw [List.mem_append, not_or]
          exact ⟨hout, houts⟩

/-- A silence between two frames of a timely run is not reported. -/
theorem not_silenceReported {dbc : DbcParser D} {gateway : Gateway} {before after : List Arrival}
    {earlier later : Arrival}
    (hclock : ∀ arrival ∈ before ++ earlier :: later :: after,
      arrival.clock.feed ≤ arrival.clock.check)
    (htimely : ∀ arrival ∈ before ++ earlier :: later :: after,
      arrival.duration < 1000 * gateway.watchdog.timeoutUs.toNat)
    (hsilence : SilenceBetween gateway.watchdog.timeoutUs earlier later) :
    ¬ gateway.SilenceReported dbc (before ++ earlier :: later :: after) := by
  intro hreported
  obtain ⟨last, outs, hrun, -⟩ := exists_run dbc gateway
    ((before ++ earlier :: later :: after).map Arrival.event)
  have hwhole := quiet_run hrun hclock htimely
  rw [List.map_append] at hrun
  obtain ⟨middle, first, second, hfirst, hsecond, rfl⟩ := hrun.split
  have halert := hreported before earlier later after rfl hsilence middle first last second hfirst
    hsecond
  exact hwhole.2 (List.mem_append_right first halert)

/-- In a run on a monotone clock, with callbacks that take less than the timeout, silence
on the bus is reported if and only if there is none: no two consecutive frames arrive more
than the timeout apart. -/
theorem silenceReported_iff (dbc : DbcParser D) (gateway : Gateway) {arrivals : List Arrival}
    (hclock : MonotoneClock arrivals)
    (htimely : ∀ arrival ∈ arrivals,
      arrival.duration < 1000 * gateway.watchdog.timeoutUs.toNat) :
    gateway.SilenceReported dbc arrivals ↔
      arrivals.IsChain fun earlier later =>
        ¬ SilenceBetween gateway.watchdog.timeoutUs earlier later := by
  rw [List.isChain_iff_forall_rel_of_append_cons_cons]
  constructor
  · rintro hreported earlier later before after rfl hsilence
    exact not_silenceReported hclock.within htimely hsilence hreported
  · intro hnone before earlier later after hsplit hsilence
    exact absurd hsilence (hnone hsplit)

/-- A frame without a message, one millisecond of work, at a time given in milliseconds. -/
def unmatchedAt (ms : UInt64) : Arrival where
  frame := { canId := 0x7FF }
  clock := { feed := ms * 1000000, check := (ms + 1) * 1000000 }

/-- Two frames one second apart. -/
theorem silenceReported_steady :
    @SilenceReported Int intOps {} { publisher := .create 0 0, sd := {} }
      [unmatchedAt 1000, unmatchedAt 2000] :=
  (@silenceReported_iff Int intOps {} _ [unmatchedAt 1000, unmatchedAt 2000]
    ⟨by decide, by decide⟩ (by decide)).2 (by decide)

/-- Two frames one minute apart. -/
theorem not_silenceReported_minute :
    ¬ @SilenceReported Int intOps {} { publisher := .create 0 0, sd := {} }
      [unmatchedAt 1000, unmatchedAt 61000] :=
  @not_silenceReported Int intOps _ _ [] [] _ _ (by decide) (by decide) (by decide)

end Gateway

end AutomotiveGateway
