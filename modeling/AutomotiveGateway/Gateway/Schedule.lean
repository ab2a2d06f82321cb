import AutomotiveGateway.Bench.BenchmarkCollector
import AutomotiveGateway.Someip.OfferRuns

/-!
# What the callback does now and then

Behind the publishing of a frame the callback counts it, and at some counts it offers the
services again or prints the table. Which events those are follows from the frames alone, so
the service discovery service lives by a schedule that nothing else in the gateway disturbs.
-/

namespace AutomotiveGateway

open Bench Can Someip

variable {D : Type}

/-- What the service discovery service does. -/
def GatewayAction.sd? : GatewayAction D → Option SdAction
  | sd action => some action
  | _ => none

/-- The count at which the table is printed. -/
def GatewayAction.table? : GatewayAction D → Option UInt64
  | printTable frameCount => some frameCount
  | _ => none

def sdActions (actions : List (GatewayAction D)) : List SdAction :=
  actions.filterMap GatewayAction.sd?

def tables (actions : List (GatewayAction D)) : List UInt64 :=
  actions.filterMap GatewayAction.table?

@[simp] theorem sdActions_append (actions more : List (GatewayAction D)) :
    sdActions (actions ++ more) = sdActions actions ++ sdActions more := List.filterMap_append

@[simp] theorem tables_append (actions more : List (GatewayAction D)) :
    tables (actions ++ more) = tables actions ++ tables more := List.filterMap_append

@[simp] theorem sdActions_map_sd (actions : List SdAction) :
    sdActions (actions.map (GatewayAction.sd : SdAction → GatewayAction D)) = actions := by
  rw [sdActions, List.filterMap_map]
  exact List.filterMap_some

@[simp] theorem tables_map_sd (actions : List SdAction) :
    tables (actions.map (GatewayAction.sd : SdAction → GatewayAction D)) = [] := by
  rw [tables, List.filterMap_map]
  exact List.filterMap_none actions

@[simp] theorem sdActions_map_notify (sent : List (List UInt8 × SockaddrIn)) :
    sdActions (sent.map fun sent => (GatewayAction.notify sent.1 sent.2 : GatewayAction D)) =
      [] := by
  rw [sdActions, List.filterMap_map]
  exact List.filterMap_none sent

@[simp] theorem tables_map_notify (sent : List (List UInt8 × SockaddrIn)) :
    tables (sent.map fun sent => (GatewayAction.notify sent.1 sent.2 : GatewayAction D)) =
      [] := by
  rw [tables, List.filterMap_map]
  exact List.filterMap_none sent

/-- The message that an event is processed with. -/
def messageOf (dbc : DbcParser D) (event : GatewayEvent) : Option (MessageDef D) :=
  event.frame?.bind fun frame => dbc.findMessage (frame.canId &&& canEffMask)

theorem decodes_of_upkeep {actions : List (GatewayAction D)}
    (hupkeep : ∀ action ∈ actions, action.IsUpkeep) : decodes actions = [] := by
  rw [decodes, List.filterMap_eq_nil_iff]
  intro action hmem
  cases action with
  | decode frame msg => exact (hupkeep _ hmem).elim
  | _ => rfl

/-- How many of the events bring a frame that is processed. -/
def processed (dbc : DbcParser D) (events : List GatewayEvent) : Nat :=
  (events.filterMap (messageOf dbc)).length

theorem processed_append (dbc : DbcParser D) (events more : List GatewayEvent) :
    processed dbc (events ++ more) = processed dbc events + processed dbc more := by
  rw [processed, List.filterMap_append, List.length_append]
  rfl

theorem processed_cons (dbc : DbcParser D) (event : GatewayEvent) (events : List GatewayEvent) :
    processed dbc (event :: events) = processed dbc [event] + processed dbc events :=
  processed_append dbc [event] events

/-- The calls of the service that an event makes, `n` frames having been processed before: a
datagram is handled when it is received, and every 100th frame offers the services. -/
def callsOf (dbc : DbcParser D) (n : Nat) (event : GatewayEvent) : List SdCall :=
  match event with
  | .sd received => [.onReadable received]
  | .can _ _ => if (messageOf dbc event).isSome ∧ 100 ∣ n + 1 then [.sendOffers] else []

def scheduledCalls (dbc : DbcParser D) : Nat → List GatewayEvent → List SdCall
  | _, [] => []
  | n, event :: events =>
      callsOf dbc n event ++ scheduledCalls dbc (n + processed dbc [event]) events

/-- The calls of the service at the start of `main`. -/
def openingCalls (localIp : UInt32) : List SdCall :=
  [.offerService 0x0101 localIp 30501, .offerService 0x0102 localIp 30501,
    .offerService 0x0103 localIp 30501, .sendOffers, .setOnSubscribe true]

/-- The counts at which the table is printed while `count` more frames are processed behind
`n`. -/
def tableCounts (n count : Nat) : List UInt64 :=
  ((List.range' (n + 1) count).map UInt64.ofNat).filter (· % 10 = 0)

theorem tableCounts_add (n count more : Nat) :
    tableCounts n (count + more) = tableCounts n count ++ tableCounts (n + count) more := by
  rw [tableCounts, tableCounts, tableCounts, ← List.filter_append, ← List.map_append,
    Nat.add_right_comm, List.range'_append_1]

theorem tableCounts_one (n : Nat) :
    tableCounts n 1 =
      if UInt64.ofNat (n + 1) % 10 = 0 then [UInt64.ofNat (n + 1)] else [] := by
  rw [tableCounts, List.range'_one, List.map_singleton, List.filter_singleton]
  split_ifs with hten
  · rw [decide_eq_true hten, cond_true]
  · rw [decide_eq_false hten, cond_false]

namespace Gateway

/-- The next frame is one at which the services are offered. -/
def Offering (gateway : Gateway) : Prop := gateway.frameCount + 1 - gateway.lastOfferFrame ≥ 100

instance decidableOffering (gateway : Gateway) : Decidable gateway.Offering :=
  inferInstanceAs (Decidable (gateway.frameCount + 1 - gateway.lastOfferFrame ≥ 100))

/-- The counters behind `n` processed frames. -/
structure OnSchedule (n : Nat) (gateway : Gateway) : Prop where
  frameCount : gateway.frameCount = UInt64.ofNat n
  lastOfferFrame : gateway.lastOfferFrame = UInt64.ofNat (n - n % 100)

variable {n : Nat} {gateway next : Gateway}

/-- The difference of the counters reaches 100 exactly at the multiples of 100. It does not
notice when they wrap. -/
theorem OnSchedule.offering_iff (h : gateway.OnSchedule n) : gateway.Offering ↔ 100 ∣ n + 1 := by
  have hsplit : n + 1 = n % 100 + 1 + (n - n % 100) := by omega
  have hnext : UInt64.ofNat n + 1 = UInt64.ofNat (n % 100 + 1) + UInt64.ofNat (n - n % 100) := by
    have hone : UInt64.ofNat n + 1 = UInt64.ofNat (n + 1) := (UInt64.ofNat_add n 1).symm
    rw [hone, ← UInt64.ofNat_add, ← hsplit]
  have hsmall : (UInt64.ofNat (n % 100 + 1)).toNat = n % 100 + 1 :=
    UInt64.toNat_ofNat_of_lt' (Nat.lt_of_le_of_lt (by omega : n % 100 + 1 ≤ 100) (by decide))
  rw [Offering, h.frameCount, h.lastOfferFrame, hnext, UInt64.add_sub_cancel, ge_iff_le,
    UInt64.le_iff_toNat_le, hsmall]
  change 100 ≤ n % 100 + 1 ↔ 100 ∣ n + 1
  omega

/-! ## One event -/

/-- The end of the callback: its counters, the call of the service and the table, which comes
last. -/
theorem afterPublish_schedule {clock : Clock} {actions : List (GatewayAction D)}
    (hafter : gateway.afterPublish clock = some (next, actions)) :
    next.frameCount = gateway.frameCount + 1 ∧
    next.lastOfferFrame =
      (if gateway.Offering then gateway.frameCount + 1 else gateway.lastOfferFrame) ∧
    ∃ body, (∀ action ∈ body, action.IsUpkeep) ∧ tables body = [] ∧
      SomeIpSdService.machine.Run gateway.sd (if gateway.Offering then [.sendOffers] else [])
        next.sd (sdActions body) ∧
      actions = body ++
        if (gateway.frameCount + 1) % 10 = 0 then [.printTable (gateway.frameCount + 1)]
        else [] := by
  have hupkeep : ∀ offers : List SdAction, ∀ alerted : Bool,
      (∀ action ∈ (if alerted then [.alert] else []) ++
        offers.map (GatewayAction.sd : SdAction → GatewayAction D), action.IsUpkeep) ∧
      tables ((if alerted then [.alert] else []) ++
        offers.map (GatewayAction.sd : SdAction → GatewayAction D)) = [] ∧
      sdActions ((if alerted then [.alert] else []) ++
        offers.map (GatewayAction.sd : SdAction → GatewayAction D)) = offers := by
    intro offers alerted
    rw [List.forall_mem_append, tables_append, tables_map_sd, sdActions_append, sdActions_map_sd]
    refine ⟨⟨?_, isUpkeep_map_sd offers⟩, ?_, ?_⟩
    all_goals cases alerted <;> simp [GatewayAction.IsUpkeep, tables, sdActions,
      GatewayAction.table?, GatewayAction.sd?]
  obtain ⟨sd, offers, hoffers⟩ := gateway.sd.exists_sendOffers
  unfold afterPublish at hafter
  by_cases hoffering : gateway.Offering
  · have hdue : gateway.frameCount + 1 - gateway.lastOfferFrame ≥ 100 := hoffering
    simp only [if_pos hdue, hoffers, Option.bind_eq_bind, Option.bind_some] at hafter
    cases hafter
    rw [if_pos hoffering, if_pos hoffering]
    obtain ⟨hkind, htables, hsd⟩ := hupkeep offers (gateway.checked clock).2
    refine ⟨rfl, rfl, _, hkind, htables, ?_, rfl⟩
    rw [hsd, ← List.append_nil offers]
    exact .cons trivial hoffers (.nil _)
  · have hdue : ¬ gateway.frameCount + 1 - gateway.lastOfferFrame ≥ 100 := hoffering
    simp only [if_neg hdue, Option.bind_eq_bind, Option.bind_some] at hafter
    cases hafter
    rw [if_neg hoffering, if_neg hoffering]
    obtain ⟨hkind, htables, hsd⟩ := hupkeep [] (gateway.checked clock).2
    refine ⟨rfl, rfl, _, hkind, htables, ?_, rfl⟩
    rw [hsd]
    exact .nil _

/-- The end of the callback behind the `n`-th frame. -/
theorem OnSchedule.afterPublish {clock : Clock} {actions : List (GatewayAction D)}
    (h : gateway.OnSchedule n) (hafter : gateway.afterPublish clock = some (next, actions)) :
    next.OnSchedule (n + 1) ∧
    ∃ body, (∀ action ∈ body, action.IsUpkeep) ∧ tables body = [] ∧
      SomeIpSdService.machine.Run gateway.sd (if 100 ∣ n + 1 then [.sendOffers] else [])
        next.sd (sdActions body) ∧
      actions = body ++ (tableCounts n 1).map .printTable := by
  obtain ⟨hcount, hlast, body, hkind, htables, hsd, hactions⟩ := afterPublish_schedule hafter
  have hnext : gateway.frameCount + 1 = UInt64.ofNat (n + 1) := by
    rw [h.frameCount]
    exact (UInt64.ofNat_add n 1).symm
  simp only [h.offering_iff, hnext] at hlast hsd
  refine ⟨⟨hcount.trans hnext, ?_⟩, body, hkind, htables, hsd, ?_⟩
  -- the counter of the last offer moves on exactly when the services are offered
  · rw [hlast]
    by_cases hdue : 100 ∣ n + 1
    · rw [if_pos hdue, Nat.mod_eq_zero_of_dvd hdue]
      rfl
    · rw [if_neg hdue, h.lastOfferFrame]
      congr 1
      omega
  · rw [hactions, hnext, tableCounts_one]
    split_ifs <;> rfl

theorem OnSchedule.of_counters (h : gateway.OnSchedule n)
    (hcount : next.frameCount = gateway.frameCount)
    (hlast : next.lastOfferFrame = gateway.lastOfferFrame) : next.OnSchedule n where
  frameCount := hcount.trans h.frameCount
  lastOfferFrame := hlast.trans h.lastOfferFrame

/-- What a part of a run does that processes `count` frames behind `n` others. -/
structure Proceeds (n count : Nat) (calls : List SdCall) (gateway next : Gateway)
    (actions : List (GatewayAction D)) : Prop where
  onSchedule : next.OnSchedule (n + count)
  sd : SomeIpSdService.machine.Run gateway.sd calls next.sd (sdActions actions)
  measures : MeasuresDecodes actions
  decodes_length : (decodes actions).length = count
  tables_eq : tables actions = tableCounts n count
  tables_last : ∀ before frameCount after, actions = before ++ .printTable frameCount :: after →
    MeasuresDecodes before ∧ frameCount = UInt64.ofNat (n + (decodes before).length)

/-- What the callback does for a frame that is processed, in front of the table. -/
theorem measured_schedule (frame : CanFrame) (msg : MessageDef D) {body : List (GatewayAction D)}
    (hkind : ∀ action ∈ body, action.IsUpkeep) (htables : tables body = [])
    (sent : List (List UInt8 × SockaddrIn)) (lookupUs decodeUs publishUs wholeUs : UInt64) :
    let served := [.record "dbc_lookup".toList lookupUs, .decode frame msg,
        .record "signal_decode".toList decodeUs] ++
      sent.map (fun sent => .notify sent.1 sent.2) ++
      [.record "someip_publish".toList publishUs, .record "end_to_end".toList wholeUs] ++ body
    MeasuresDecodes served ∧ tables served = [] ∧ (decodes served).length = 1 ∧
      sdActions served = sdActions body := by
  have hsent : decodes (sent.map fun sent => (.notify sent.1 sent.2 : GatewayAction D)) = [] := by
    rw [decodes, List.filterMap_map]
    exact List.filterMap_none sent
  have hnotify : MeasuresDecodes
      (sent.map fun sent => (.notify sent.1 sent.2 : GatewayAction D)) := by
    apply measuresDecodes_of_none
    intro action hmem
    obtain ⟨datagram, _, rfl⟩ := List.mem_map.mp hmem
    exact ⟨rfl, rfl⟩
  have hbody : decodes body = [] := decodes_of_upkeep hkind
  refine ⟨(measuresDecodes_measured hnotify frame msg _ _ _ _).append
    (measuresDecodes_of_upkeep hkind), ?_, ?_, ?_⟩
  · rw [tables_append, tables_append, tables_append, tables_map_notify, htables]
    rfl
  · rw [decodes_append, decodes_append, decodes_append, hsent, hbody]
    rfl
  · rw [sdActions_append, sdActions_append, sdActions_append, sdActions_map_notify]
    rfl

/-- An event that prints no table. -/
theorem Proceeds.of_quiet {calls : List SdCall} {actions : List (GatewayAction D)}
    (hnext : next.OnSchedule n)
    (hsd : SomeIpSdService.machine.Run gateway.sd calls next.sd (sdActions actions))
    (hkind : ∀ action ∈ actions, action.IsUpkeep) (htables : tables actions = []) :
    Proceeds n 0 calls gateway next actions where
  onSchedule := hnext
  sd := hsd
  measures := measuresDecodes_of_upkeep hkind
  decodes_length := by
    rw [decodes_of_upkeep hkind]
    rfl
  tables_eq := htables
  tables_last := by
    rintro before frameCount after rfl
    simp [tables, GatewayAction.table?] at htables

/-- An event whose table comes last. -/
theorem Proceeds.of_body {calls : List SdCall} {body : List (GatewayAction D)}
    (hnext : next.OnSchedule (n + 1))
    (hsd : SomeIpSdService.machine.Run gateway.sd calls next.sd (sdActions body))
    (hmeasures : MeasuresDecodes body) (htables : tables body = [])
    (hdecodes : (decodes body).length = 1) :
    Proceeds n 1 calls gateway next (body ++ (tableCounts n 1).map .printTable) := by
  have hnone : ∀ counts : List UInt64,
      tables (counts.map (GatewayAction.printTable : UInt64 → GatewayAction D)) = counts ∧
      sdActions (counts.map (GatewayAction.printTable : UInt64 → GatewayAction D)) = [] ∧
      decodes (counts.map (GatewayAction.printTable : UInt64 → GatewayAction D)) = [] := by
    intro counts
    rw [tables, sdActions, decodes, List.filterMap_map, List.filterMap_map, List.filterMap_map]
    exact ⟨List.filterMap_some, List.filterMap_none counts, List.filterMap_none counts⟩
  obtain ⟨hprinted, hserved, hdecoded⟩ := hnone (tableCounts n 1)
  have hone : (tableCounts n 1).map (GatewayAction.printTable : UInt64 → GatewayAction D) =
      if UInt64.ofNat (n + 1) % 10 = 0 then [.printTable (UInt64.ofNat (n + 1))] else [] := by
    rw [tableCounts_one]
    split_ifs <;> rfl
  exact
    { onSchedule := hnext
      sd := by rwa [sdActions_append, hserved, List.append_nil]
      measures := by
        refine hmeasures.append (measuresDecodes_of_upkeep fun action hmem => ?_)
        obtain ⟨frameCount, -, rfl⟩ := List.mem_map.mp hmem
        trivial
      decodes_length := by rw [decodes_append, hdecoded, List.append_nil, hdecodes]
      tables_eq := by rw [tables_append, htables, hprinted, List.nil_append]
      tables_last := by
        intro before frameCount after hsplit
        -- the table that is asked for is the last action: nothing in front of it prints one
        have hlast : before = body ∧ frameCount = UInt64.ofNat (n + 1) := by
          rcases List.append_eq_append_iff.mp hsplit with ⟨printed, hbefore, hprinted⟩ |
            ⟨printed, hbody, hprinted⟩
          · rw [hone] at hprinted
            split at hprinted
            · cases printed with
              | nil =>
                  rw [List.nil_append, List.cons.injEq, GatewayAction.printTable.injEq] at hprinted
                  exact ⟨hbefore.trans (List.append_nil body), hprinted.1.symm⟩
              | cons action printed => simp at hprinted
            · simp at hprinted
          · rw [hone] at hprinted
            cases printed with
            | nil =>
                split at hprinted
                · rw [List.nil_append, List.cons.injEq, GatewayAction.printTable.injEq] at hprinted
                  exact ⟨(hbody.trans (List.append_nil before)).symm, hprinted.1⟩
                · simp at hprinted
            | cons action printed =>
                -- The table would be among the earlier actions.
                rw [List.cons_append, List.cons.injEq] at hprinted
                rw [hbody, tables_append, ← hprinted.1] at htables
                simp [tables, GatewayAction.table?] at htables
        rw [hlast.1, hlast.2, hdecodes]
        exact ⟨hmeasures, rfl⟩ }

/-- What comes behind starts from the counts of what came before. -/
theorem Proceeds.append {count more : Nat} {calls rest : List SdCall} {first middle last : Gateway}
    {actions later : List (GatewayAction D)} (hfirst : Proceeds n count calls first middle actions)
    (hrest : Proceeds (n + count) more rest middle last later) :
    Proceeds n (count + more) (calls ++ rest) first last (actions ++ later) where
  onSchedule := by
    rw [← Nat.add_assoc]
    exact hrest.onSchedule
  sd := by
    rw [sdActions_append]
    exact hfirst.sd.append hrest.sd
  measures := hfirst.measures.append hrest.measures
  decodes_length := by
    rw [decodes_append, List.length_append, hfirst.decodes_length, hrest.decodes_length]
  tables_eq := by rw [tables_append, tableCounts_add, hfirst.tables_eq, hrest.tables_eq]
  tables_last := by
    have hlater : ∀ before frameCount after, later = before ++ .printTable frameCount :: after →
        MeasuresDecodes (actions ++ before) ∧
          frameCount = UInt64.ofNat (n + (decodes (actions ++ before)).length) := by
      intro before frameCount after hsplit
      obtain ⟨hmeasures, hcount⟩ := hrest.tables_last before frameCount after hsplit
      refine ⟨hfirst.measures.append hmeasures, ?_⟩
      rw [hcount, decodes_append, List.length_append, hfirst.decodes_length, Nat.add_assoc]
    intro before frameCount after hsplit
    -- the table is of the second part, or of the first with the whole second part behind it
    rcases List.append_eq_append_iff.mp hsplit with ⟨printed, rfl, hprinted⟩ |
      ⟨printed, hactions, hprinted⟩
    · exact hlater printed frameCount after hprinted
    · cases printed with
      | nil =>
          rw [List.append_nil] at hactions
          subst hactions
          have hlast := hlater [] frameCount after hprinted.symm
          rwa [List.append_nil] at hlast
      | cons action printed =>
          rw [List.cons_append, List.cons.injEq] at hprinted
          exact hfirst.tables_last before frameCount printed (by rw [hactions, hprinted.1])

variable [DoubleOps D]

/-- What an event does, `n` frames having been processed before. -/
theorem OnSchedule.serve {dbc : DbcParser D} {event : GatewayEvent}
    {actions : List (GatewayAction D)} (h : gateway.OnSchedule n)
    (hserve : gateway.serve dbc event = some (next, actions)) :
    Proceeds n (processed dbc [event]) (callsOf dbc n event) gateway next actions := by
  cases event with
  | can read clock =>
      -- Without a message to decode the frame with, at most the watchdog is touched.
      have hidle : messageOf dbc (.can read clock) = none → next.OnSchedule n →
          next.sd = gateway.sd → actions = [] →
          Proceeds n (processed dbc [.can read clock]) (callsOf dbc n (.can read clock)) gateway
            next actions := by
        intro hnone hnext hsd hactions
        have hprocessed : processed dbc [.can read clock] = 0 := by simp [processed, hnone]
        have hcalls : callsOf dbc n (.can read clock) = [] := by simp [callsOf, hnone]
        rw [hprocessed, hcalls, hactions]
        refine .of_quiet hnext ?_ (by simp) rfl
        rw [hsd]
        exact .nil _
      rw [Gateway.serve] at hserve
      cases hframe : read.frame? with
      | none =>
          rw [hframe] at hserve
          cases hserve
          exact hidle (by simp [messageOf, GatewayEvent.frame?, hframe]) h rfl rfl
      | some frame =>
          rw [hframe] at hserve
          have hmessage : messageOf dbc (.can read clock) =
              dbc.findMessage (frame.canId &&& canEffMask) := by
            simp [messageOf, GatewayEvent.frame?, hframe]
          rcases onCanFrame_cases hserve with ⟨hnone, rfl, rfl⟩ |
            ⟨msg, publisher, upkeep, sent, hmsg, hafter, rfl⟩
          · exact hidle (hmessage.trans hnone) (h.of_counters rfl rfl) rfl rfl
          · have hprocessed : processed dbc [.can read clock] = 1 := by
              simp [processed, hmessage, hmsg]
            have hcalls : callsOf dbc n (.can read clock) =
                if 100 ∣ n + 1 then [.sendOffers] else [] := by
              simp [callsOf, hmessage, hmsg]
            rw [hprocessed]
            have hfed : OnSchedule n { gateway with
                publisher
                watchdog := gateway.watchdog.feed clock.feed } := h.of_counters rfl rfl
            obtain ⟨hnext, body, hkind, htables, hsd, rfl⟩ := hfed.afterPublish hafter
            obtain ⟨hmeasures, hnone, hdecodes, hserved⟩ := measured_schedule frame msg hkind
              htables sent ((clock.t1 - clock.t0) / 1000) ((clock.t2 - clock.t1) / 1000)
              ((clock.t3 - clock.t2) / 1000) ((clock.t3 - clock.t0) / 1000)
            rw [hcalls, ← List.append_assoc]
            exact .of_body hnext (by rwa [hserved]) hmeasures hnone hdecodes
  | sd received =>
      simp only [Gateway.serve, Option.bind_eq_bind, Option.bind_eq_some_iff] at hserve
      obtain ⟨⟨sd, actions⟩, hreadable, hnext⟩ := hserve
      cases hnext
      refine .of_quiet (h.of_counters rfl rfl) ?_ (isUpkeep_map_sd actions) (tables_map_sd actions)
      rw [sdActions_map_sd, ← List.append_nil actions]
      exact .cons trivial hreadable (.nil _)

/-! ## Whole runs -/

theorem OnSchedule.run {dbc : DbcParser D} {first last : Gateway} {events : List GatewayEvent}
    {actions : List (GatewayAction D)} (hrun : (machine dbc).Run first events last actions)
    (hfirst : first.OnSchedule n) :
    Proceeds n (processed dbc events) (scheduledCalls dbc n events) first last actions := by
  induction hrun generalizing n with
  | nil state => exact .of_quiet hfirst (.nil _) (by simp) rfl
  | @cons state event middle out events last outs _ hstep _ ih =>
      rw [processed_cons]
      have hevent := hfirst.serve hstep
      exact hevent.append (ih hevent.onSchedule)

omit [DoubleOps D] in
/-- `main` starts the service with its opening calls. -/
theorem exists_start_schedule (routes : List SignalRoute) (localIp : UInt32) :
    ∃ first opening, @start D routes localIp = some (first, opening) ∧ first.OnSchedule 0 ∧
      SomeIpSdService.machine.Run {} (openingCalls localIp) first.sd (sdActions opening) ∧
      tables opening = [] := by
  obtain ⟨sd, offers, hoffers⟩ := SomeIpSdService.exists_sendOffers
    (((({} : SomeIpSdService).offerService 0x0101 localIp 30501).offerService
      0x0102 localIp 30501).offerService 0x0103 localIp 30501)
  have hrun : SomeIpSdService.machine.Run {} (openingCalls localIp)
      { sd with onSubscribe := true } ([] ++ ([] ++ ([] ++ (offers ++ ([] ++ []))))) :=
    .cons trivial rfl (.cons trivial rfl (.cons trivial rfl (.cons trivial hoffers
      (.cons trivial rfl (.nil _)))))
  unfold start
  simp only [hoffers]
  refine ⟨_, _, rfl, ⟨rfl, rfl⟩, ?_, tables_map_sd offers⟩
  rw [sdActions_map_sd]
  simpa using hrun

end Gateway

/-! ## What shows of it -/

theorem registered_callsOf (dbc : DbcParser D) (n : Nat) (event : GatewayEvent) :
    registered (callsOf dbc n event) = [] := by
  unfold callsOf
  split
  · rfl
  · split_ifs <;> rfl

theorem registered_scheduledCalls (dbc : DbcParser D) (n : Nat) (events : List GatewayEvent) :
    registered (scheduledCalls dbc n events) = [] := by
  induction events generalizing n with
  | nil => rfl
  | cons event events ih =>
      rw [scheduledCalls, registered_append, registered_callsOf, ih]
      rfl

theorem offersDue_callsOf (dbc : DbcParser D) (services : List OfferedService) (n : Nat)
    (event : GatewayEvent) :
    offersDue services (callsOf dbc n event) =
      (List.replicate ((n + processed dbc [event]) / 100 - n / 100)
        (services.map OfferedService.serviceId)).flatten := by
  have hnone : ∀ count, n / 100 = (n + count) / 100 →
      offersDue services [] = (List.replicate ((n + count) / 100 - n / 100)
        (services.map OfferedService.serviceId)).flatten := by
    intro count hcount
    rw [← hcount, Nat.sub_self]
    rfl
  cases event with
  | sd received => exact hnone 0 rfl
  | can read clock =>
      cases hmessage : messageOf dbc (.can read clock) with
      | none =>
          have hprocessed : processed dbc [.can read clock] = 0 := by simp [processed, hmessage]
          rw [hprocessed, callsOf, hmessage, if_neg (by simp)]
          exact hnone 0 rfl
      | some msg =>
          have hprocessed : processed dbc [.can read clock] = 1 := by simp [processed, hmessage]
          rw [hprocessed, callsOf, hmessage]
          by_cases hdue : 100 ∣ n + 1
          · have hone : (n + 1) / 100 - n / 100 = 1 := by omega
            rw [if_pos ⟨rfl, hdue⟩, hone, List.replicate_one, List.flatten_singleton]
            exact List.append_nil _
          · rw [if_neg fun h => hdue h.2]
            exact hnone 1 (by omega)

/-- Among the calls of a run, one for each multiple of 100 that the count passes offers the
services. -/
theorem offersDue_scheduledCalls (dbc : DbcParser D) (services : List OfferedService) (n : Nat)
    (events : List GatewayEvent) :
    offersDue services (scheduledCalls dbc n events) =
      (List.replicate ((n + processed dbc events) / 100 - n / 100)
        (services.map OfferedService.serviceId)).flatten := by
  induction events generalizing n with
  | nil =>
      rw [processed, List.filterMap_nil, List.length_nil, Nat.add_zero, Nat.sub_self]
      rfl
  | cons event events ih =>
      -- the multiples passed add up
      have hcount : (n + processed dbc (event :: events)) / 100 - n / 100 =
          ((n + processed dbc [event]) / 100 - n / 100) +
            ((n + processed dbc [event] + processed dbc events) / 100 -
              (n + processed dbc [event]) / 100) := by
        rw [processed_cons]
        omega
      rw [scheduledCalls, offersDue_append, registered_callsOf, List.append_nil, ih,
        offersDue_callsOf, hcount, List.replicate_add, List.flatten_append]

variable [DoubleOps D]

/-- A run behind the start is, for the service discovery service, a run on the calls that are
scheduled, and offers the three services once at the start and once for each of them. -/
theorem offers_behind_start {dbc : DbcParser D} {localIp : UInt32} {first last : Gateway}
    {opening actions : List (GatewayAction D)} {events : List GatewayEvent}
    (hopening : SomeIpSdService.machine.Run {} (openingCalls localIp) first.sd (sdActions opening))
    (hfirst : first.OnSchedule 0) (hrun : (Gateway.machine dbc).Run first events last actions) :
    SomeIpSdService.machine.Run {} (openingCalls localIp ++ scheduledCalls dbc 0 events)
      last.sd (sdActions (opening ++ actions)) ∧
    (sdActions (opening ++ actions)).flatMap SdAction.offers =
      (List.replicate (1 + processed dbc events / 100) [0x0101, 0x0102, 0x0103]).flatten := by
  have hsd := hopening.append (hfirst.run hrun).sd
  rw [← sdActions_append] at hsd
  refine ⟨hsd, ?_⟩
  have hregistered : registered (openingCalls localIp ++ scheduledCalls dbc 0 events) =
      registered (openingCalls localIp) := by
    rw [registered_append, registered_scheduledCalls, List.append_nil]
  rw [(offers_run hsd (by rw [hregistered]; exact Nat.le_of_ble_eq_true rfl)).2, offersDue_append,
    offersDue_scheduledCalls, Nat.zero_add, Nat.zero_div, Nat.sub_zero, List.replicate_add,
    List.flatten_append]
  rfl

/-- In every run of the gateway the service discovery service lives as if it were alone and
called for its datagrams and at every 100th processed frame only: its state and all it does are
those of a run on these calls. What a receiver reads of it are the three services, offered at
the start and at every 100th processed frame. -/
theorem run_offers (dbc : DbcParser D) (routes : List SignalRoute) (localIp : UInt32)
    (events : List GatewayEvent) :
    ∃ first opening, Gateway.start routes localIp = some (first, opening) ∧
      ∀ last actions, (Gateway.machine dbc).Run first events last actions →
        SomeIpSdService.machine.Run {} (openingCalls localIp ++ scheduledCalls dbc 0 events)
          last.sd (sdActions (opening ++ actions)) ∧
        (sdActions (opening ++ actions)).flatMap SdAction.offers =
          (List.replicate (1 + processed dbc events / 100) [0x0101, 0x0102, 0x0103]).flatten := by
  obtain ⟨first, opening, hstart, hfirst, hopening, -⟩ :=
    @Gateway.exists_start_schedule D routes localIp
  exact ⟨first, opening, hstart, fun last actions hrun => offers_behind_start hopening hfirst hrun⟩

end AutomotiveGateway
